import MarkdownWord.Download
import MarkdownWord.Proofs.PercentTexts
import MarkdownWord.Proofs.SeveralLines

/-!
# Headers of downloads

The header that offers a file is made of printable characters of ASCII whatever the name of the
file is, and the name can be read from it: between the quotes, or in an extended form after them
(`Download.disposition_offers`).
-/

namespace MarkdownWord.Download
open Text

/-! ## The parts of a header -/

/-- What stands before the name in quotes. -/
def opening : String := "attachment; filename=\""

/-- What stands between the name in quotes and the encoded one. -/
def extension : String := "\"; filename*=UTF-8''"

/-- The text between the quotes for a name that is not plain. -/
def fallback (name : String) : String := String.ofList (fallbackName name.toList)

/-- The text of a name in percent-encoded UTF-8. -/
def encoded (name : String) : String := String.ofList (percentEncode isUnreserved name.toList)

/-- A text can stand between the quotes. -/
def IsQuotable (s : String) : Prop := ∀ c ∈ s.toList, c ≠ '"' ∧ c ≠ '\\'

/-- The headers that offer a file of a name: the name in quotes, or any text in quotes and the name
in percent-encoded UTF-8. -/
inductive Offers (name : String) : String → Prop where
  | plain (h : IsQuotable name) : Offers name (opening ++ name ++ "\"")
  | encoded {q p : String} (hq : IsQuotable q) (hp : IsPercentEncoded isUnreserved p.toList)
      (hname : percentDecode (fun _ => false) p.toList = name.toList) :
      Offers name (opening ++ q ++ extension ++ p)

theorem disposition_of_plain {name : String} (h : name.toList.all isPlain = true) :
    disposition name = opening ++ name ++ "\"" := by
  rw [disposition]
  exact if_pos h

theorem disposition_of_not_plain {name : String} (h : name.toList.all isPlain = false) :
    disposition name = opening ++ fallback name ++ extension ++ encoded name := by
  rw [disposition, h]
  rfl

theorem isPlain_fallback (name : String) : ∀ c ∈ (fallback name).toList, isPlain c = true := by
  have hdefault : defaultName.toList.all isPlain = true := by decide
  rw [fallback, String.toList_ofList, fallbackName]
  split
  · exact List.all_eq_true.mp hdefault
  · intro c hc
    exact (List.mem_filter.mp hc).2

theorem isQuotable_of_plain {s : String} (h : ∀ c ∈ s.toList, isPlain c = true) : IsQuotable s := by
  intro c hc
  have hplain := h c hc
  simp only [isPlain, Bool.and_eq_true, bne_iff_ne] at hplain
  exact ⟨hplain.1.2, hplain.2⟩

theorem isQuotable_fallback (name : String) : IsQuotable (fallback name) :=
  isQuotable_of_plain (isPlain_fallback name)

theorem isPercentEncoded_encoded (name : String) :
    IsPercentEncoded isUnreserved (encoded name).toList := by
  rw [encoded, String.toList_ofList]
  exact isPercentEncoded_percentEncode fun _ _ hkeep => hkeep

theorem percentDecode_encoded (name : String) :
    percentDecode (fun _ => false) (encoded name).toList = name.toList := by
  rw [encoded, String.toList_ofList]
  exact percentDecode_percentEncode (fun _ => rfl) (by decide) name.toList

theorem offers_disposition (name : String) : Offers name (disposition name) := by
  cases h : name.toList.all isPlain with
  | true =>
    rw [disposition_of_plain h]
    exact .plain (isQuotable_of_plain (List.all_eq_true.mp h))
  | false =>
    rw [disposition_of_not_plain h]
    exact .encoded (isQuotable_fallback name) (isPercentEncoded_encoded name)
      (percentDecode_encoded name)

example : disposition "né.docx" =
    "attachment; filename=\"n.docx\"; filename*=UTF-8''n%C3%A9.docx" := by
  decide

/-! ## Reading a header -/

/-- What follows the name in quotes, the quote itself not included. -/
def afterQuote : List Char := extension.toList.tail

theorem toList_plain (name : String) :
    (opening ++ name ++ "\"").toList = opening.toList ++ name.toList ++ '"' :: [] := by
  rw [String.toList_append, String.toList_append]
  rfl

theorem toList_encoded (q p : String) : (opening ++ q ++ extension ++ p).toList =
    opening.toList ++ q.toList ++ '"' :: (afterQuote ++ p.toList) := by
  have hextension : extension.toList = '"' :: afterQuote := by decide
  rw [String.toList_append, String.toList_append, String.toList_append, hextension,
    List.append_assoc, List.cons_append]

/-- The quotes of a header end at its only quote after the opening one. -/
theorem eq_of_quoted {q q' : String} {rest rest' : List Char} (hq : IsQuotable q)
    (hrest : '"' ∉ rest) (h : opening.toList ++ q.toList ++ '"' :: rest =
      opening.toList ++ q'.toList ++ '"' :: rest') : q = q' ∧ rest = rest' := by
  rw [List.append_assoc, List.append_assoc] at h
  have hquote : '"' ∉ q.toList := fun hmem => (hq _ hmem).1 rfl
  obtain ⟨hname, -, hafter⟩ :=
    (List.append_cons_inj_of_notMem hquote hrest).mp (List.append_cancel_left h)
  exact ⟨String.toList_inj.mp hname, hafter⟩

theorem quote_notMem_encoded {p : List Char} (hp : IsPercentEncoded isUnreserved p) :
    '"' ∉ afterQuote ++ p := by
  intro hmem
  obtain hmem | hmem := List.mem_append.mp hmem
  · exact absurd hmem (by decide)
  · exact absurd (hp.of_mem hmem) (by decide)

theorem plain_inj {a b : String} (ha : IsQuotable a)
    (h : opening ++ a ++ "\"" = opening ++ b ++ "\"") : a = b := by
  rw [← String.toList_inj, toList_plain, toList_plain] at h
  exact (eq_of_quoted ha List.not_mem_nil h).1

theorem plain_ne_encoded {a q p : String} (ha : IsQuotable a) :
    opening ++ a ++ "\"" ≠ opening ++ q ++ extension ++ p := by
  intro h
  rw [← String.toList_inj, toList_plain, toList_encoded] at h
  obtain ⟨-, hnil⟩ := eq_of_quoted ha List.not_mem_nil h
  have hafter : afterQuote = [] := (List.append_eq_nil_iff.mp hnil.symm).1
  exact absurd hafter (by decide)

theorem encoded_inj {q p q' p' : String} (hq : IsQuotable q)
    (hp : IsPercentEncoded isUnreserved p.toList)
    (h : opening ++ q ++ extension ++ p = opening ++ q' ++ extension ++ p') : p = p' := by
  rw [← String.toList_inj, toList_encoded, toList_encoded] at h
  obtain ⟨-, hparts⟩ := eq_of_quoted hq (quote_notMem_encoded hp) h
  exact String.toList_inj.mp (List.append_cancel_left hparts)

/-- A header offers files of one name only. -/
theorem Offers.eq {a b header : String} (ha : Offers a header) (hb : Offers b header) : a = b := by
  generalize heq : header = other at hb
  cases ha with
  | plain ha =>
    cases hb with
    | plain hb => exact plain_inj ha heq
    | encoded hq hp hname => exact absurd heq (plain_ne_encoded ha)
  | encoded hq hp hname =>
    cases hb with
    | plain hb => exact absurd heq.symm (plain_ne_encoded hb)
    | encoded hq' hp' hname' =>
      have hparts := encoded_inj hq hp heq
      rw [← String.toList_inj, ← hname, ← hname', hparts]

/-! ## Characters -/

/-- A character that a header can hold: one of ASCII that is not a control. -/
def isHeaderChar (c : Char) : Bool := ' ' ≤ c && c ≤ '~'

theorem isHeaderChar_of_isPlain {c : Char} (h : isPlain c = true) : isHeaderChar c = true := by
  simp only [isPlain, Bool.and_eq_true] at h
  exact Bool.and_eq_true_iff.mpr h.1.1

theorem isHeaderChar_of_isGraphic {c : Char} (h : isGraphic c = true) : isHeaderChar c = true := by
  simp only [isGraphic, Bool.and_eq_true, decide_eq_true_eq] at h
  simp only [isHeaderChar, Bool.and_eq_true, decide_eq_true_eq]
  constructor
  · exact UInt32.le_iff_toNat_le.mpr (Nat.le_of_succ_le h.1)
  · exact UInt32.le_iff_toNat_le.mpr h.2

theorem isGraphic_of_isUnreserved {c : Char} (h : isUnreserved c = true) : isGraphic c = true := by
  simp only [isUnreserved, Bool.or_eq_true, decide_eq_true_eq] at h
  obtain ((((halnum | rfl) | rfl) | rfl) | rfl) | rfl := h
  · exact isGraphic_of_isAlphanum halnum
  all_goals decide

theorem isHeaderChar_of_mem_encoded {p : List Char} (h : IsPercentEncoded isUnreserved p) {c : Char}
    (hc : c ∈ p) : isHeaderChar c = true := by
  apply isHeaderChar_of_isGraphic
  obtain hkeep | rfl | hdigit := h.of_mem hc
  · exact isGraphic_of_isUnreserved hkeep
  · decide
  · exact isGraphic_of_hexValue? hdigit

theorem isHeaderChar_quoted {q : String} {rest : List Char} (hq : ∀ c ∈ q.toList, isPlain c = true)
    (hrest : ∀ c ∈ rest, isHeaderChar c = true) :
    ∀ c ∈ opening.toList ++ q.toList ++ '"' :: rest, isHeaderChar c = true := by
  have hopening : opening.toList.all isHeaderChar = true := by decide
  intro c hc
  obtain hc | hc := List.mem_append.mp hc
  · obtain hc | hc := List.mem_append.mp hc
    · exact List.all_eq_true.mp hopening c hc
    · exact isHeaderChar_of_isPlain (hq c hc)
  · obtain rfl | hc := List.mem_cons.mp hc
    · decide
    · exact hrest c hc

theorem isHeaderChar_disposition (name : String) :
    ∀ c ∈ (disposition name).toList, isHeaderChar c = true := by
  cases h : name.toList.all isPlain with
  | true =>
    rw [disposition_of_plain h, toList_plain]
    exact isHeaderChar_quoted (List.all_eq_true.mp h) fun _ hc => absurd hc List.not_mem_nil
  | false =>
    have hafter : afterQuote.all isHeaderChar = true := by decide
    rw [disposition_of_not_plain h, toList_encoded]
    refine isHeaderChar_quoted (isPlain_fallback name) ?_
    intro c hc
    obtain hc | hc := List.mem_append.mp hc
    · exact List.all_eq_true.mp hafter c hc
    · exact isHeaderChar_of_mem_encoded (isPercentEncoded_encoded name) hc

/-! ## Names of downloads -/

theorem mem_splitName {s : List Char} {c : Char} (h : c ∈ (Path.splitName s).1) : c ∈ s := by
  unfold Path.splitName at h
  dsimp only at h
  split at h
  · exact List.mem_of_mem_take h
  · exact h

theorem slash_notMem_nameOf {s : List Char} (h : '/' ∉ s) : '/' ∉ nameOf s := by
  have hsuffix : '/' ∉ documentSuffix.toList := by decide
  have hdefault : '/' ∉ defaultName.toList := by decide
  have hstem : '/' ∉ (Path.splitName s).1 := fun hmem => h (mem_splitName hmem)
  unfold nameOf
  dsimp only
  split
  · exact List.not_mem_append hstem hsuffix
  split
  · exact hdefault
  split
  · exact h
  · exact List.not_mem_append h hsuffix

theorem slash_notMem_pathName (s : List Char) : '/' ∉ (Path.read s).name := by
  rw [Path.name]
  cases hlast : (Path.read s).components.getLast? with
  | none => exact List.not_mem_nil
  | some component =>
    have hmem : component ∈ (splitAt '/' s).filter Path.isComponent :=
      List.mem_of_getLast? hlast
    exact notMem_of_mem_splitAt (List.mem_filter.mp hmem).1

theorem slash_notMem_name (fileName : Option String) : '/' ∉ (name fileName).toList := by
  have hdefault : '/' ∉ defaultName.toList := by decide
  cases fileName with
  | none => exact hdefault
  | some s =>
    rw [name]
    split
    · exact hdefault
    · rw [String.toList_ofList]
      exact slash_notMem_nameOf (slash_notMem_pathName s.toList)

theorem slash_notMem_encoded {s : String} (hs : '/' ∉ s.toList) : '/' ∉ (encoded s).toList := by
  have hother : IsPercentEncoded (fun c => c != '/') (percentEncode isUnreserved s.toList) :=
    isPercentEncoded_percentEncode fun c hc _ => bne_iff_ne.mpr fun heq => hs (heq ▸ hc)
  rw [encoded, String.toList_ofList]
  intro hmem
  exact absurd (hother.of_mem hmem) (by decide)

/-- The encoded name in the header of a name without slashes has none. -/
theorem slash_notMem_disposition {s q p : String} (hs : '/' ∉ s.toList)
    (h : disposition s = opening ++ q ++ extension ++ p) : '/' ∉ p.toList := by
  cases hplain : s.toList.all isPlain with
  | true =>
    rw [disposition_of_plain hplain] at h
    exact absurd h (plain_ne_encoded (isQuotable_of_plain (List.all_eq_true.mp hplain)))
  | false =>
    rw [disposition_of_not_plain hplain] at h
    rw [← encoded_inj (isQuotable_fallback s) (isPercentEncoded_encoded s) h]
    exact slash_notMem_encoded hs

/-- The header for a name is printable and offers files of that name and of no other. A name made
from that of an uploaded file has no slash in its encoded form. -/
theorem disposition_offers :
    (∀ name, (∀ c ∈ (disposition name).toList, isHeaderChar c = true) ∧
      Offers name (disposition name)) ∧
    Function.Injective disposition ∧
    ∀ fileName q p, disposition (name fileName) = opening ++ q ++ extension ++ p →
      '/' ∉ p.toList := by
  refine ⟨?_, ?_, ?_⟩
  · intro name
    exact ⟨isHeaderChar_disposition name, offers_disposition name⟩
  · intro a b heq
    have hother := offers_disposition b
    rw [← heq] at hother
    exact (offers_disposition a).eq hother
  · intro fileName q p h
    exact slash_notMem_disposition (slash_notMem_name fileName) h

end MarkdownWord.Download
