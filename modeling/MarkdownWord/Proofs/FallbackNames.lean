import MarkdownWord.Proofs.Answers
import MarkdownWord.Proofs.DownloadNames
import MarkdownWord.Proofs.Titles

/-!
# Names for plain clients

A name that is not plain is offered to clients that know plain characters only by what is left of it
when the others are taken out. That is a name to save a file under, unless spaces and then a dot are
left at the front (`Service.usable_iff_of_offered`).
-/

namespace MarkdownWord

/-! ## Trimming -/

namespace Text

theorem dropWhile_congr {p q : Char → Bool} {s : List Char} (h : ∀ c ∈ s, p c = q c) :
    s.dropWhile p = s.dropWhile q := by
  induction s with
  | nil => rfl
  | cons c s ih =>
    obtain ⟨hc, hs⟩ := List.forall_mem_cons.mp h
    rw [List.dropWhile_cons, List.dropWhile_cons, hc, ih hs]

theorem trim_congr {p q : Char → Bool} {s : List Char} (h : ∀ c ∈ s, p c = q c) :
    trim p s = trim q s := by
  have hrest : ∀ c ∈ (s.dropWhile q).reverse, p c = q c := fun c hc =>
    h c ((List.dropWhile_sublist q).subset (List.mem_reverse.mp hc))
  rw [trim, trim, trimRight, trimRight, dropWhile_congr h, dropWhile_congr hrest]

/-- Trimming at the end leaves the first character that is not trimmed at the front. -/
theorem head?_trim (p : Char → Bool) (s : List Char) :
    (trim p s).head? = (s.dropWhile p).head? := by
  have htrim : trim p s = (s.dropWhile p).rdropWhile p := rfl
  rw [htrim]
  cases hfront : s.dropWhile p with
  | nil => rfl
  | cons c t =>
    have hc : ¬ p c = true := by
      have hhead := List.head?_dropWhile_not p s
      rw [hfront] at hhead
      simpa using hhead
    have hkept : (c :: t).rdropWhile p = c :: t.rdropWhile p :=
      rdropWhile_cons fun h => hc (List.rdropWhile_eq_nil_iff.mp h c List.mem_cons_self)
    rw [hkept]
    rfl

end Text

namespace Download
open Text

/-! ## What is left of a name -/

/-- A name that a client can save a file under: it is that of a download without a name, or with the
spaces at its ends taken off it is neither empty nor hidden. -/
def IsUsable (s : String) : Prop :=
  s = "converted.docx" ∨
    (trim (· == ' ') s.toList ≠ [] ∧ (trim (· == ' ') s.toList).head? ≠ some '.')

instance (s : String) : Decidable (IsUsable s) := inferInstanceAs (Decidable (_ ∨ _))

/-- The plain characters of a name are spaces, then a dot, then any others. -/
def LeavesHidden (name : String) : Prop :=
  ∃ spaces rest, name.toList.filter isPlain = spaces ++ '.' :: rest ∧ spaces ≠ [] ∧
    ∀ c ∈ spaces, c = ' '

theorem isBlank_of_isPlain {c : Char} (h : isPlain c = true) : (c == ' ') = isBlank c := by
  have hrange := isHeaderChar_of_isPlain h
  simp only [isHeaderChar, Bool.and_eq_true, decide_eq_true_eq, Char.le_def,
    UInt32.le_iff_toNat_le] at hrange
  have hlow : 32 ≤ c.toNat := hrange.1
  have hhigh : c.toNat ≤ 126 := hrange.2
  have hspace : c = ' ' ↔ c.toNat = 32 := Char.toNat_inj.symm
  rw [Bool.eq_iff_iff, beq_iff_eq, hspace]
  simp only [isBlank, Bool.or_eq_true, Bool.and_eq_true, decide_eq_true_eq]
  omega

theorem trimBlank_plain {s : List Char} (h : ∀ c ∈ s, isPlain c = true) :
    trim (· == ' ') s = trimBlank s :=
  trim_congr fun c hc => isBlank_of_isPlain (h c hc)

/-- The dot after the spaces at the front of a text is its first character when it is trimmed. -/
theorem head?_trim_of_spaces {spaces : List Char} (h : ∀ c ∈ spaces, c = ' ') (rest : List Char) :
    (trim (· == ' ') (spaces ++ '.' :: rest)).head? = some '.' := by
  rw [head?_trim, List.dropWhile_append_of_pos fun c hc => beq_iff_eq.mpr (h c hc)]
  rfl

theorem exists_spaces {s : List Char} (h : (trim (· == ' ') s).head? = some '.') :
    ∃ spaces rest, s = spaces ++ '.' :: rest ∧ ∀ c ∈ spaces, c = ' ' := by
  rw [head?_trim] at h
  obtain ⟨rest, hrest⟩ := List.head?_eq_some_iff.mp h
  refine ⟨s.takeWhile (· == ' '), rest, ?_, fun c hc => ?_⟩
  · rw [← hrest, List.takeWhile_append_dropWhile]
  · have hspace := List.mem_takeWhile_imp hc
    exact beq_iff_eq.mp hspace

/-- What is offered in the place of a name is usable unless the guard against hidden names is passed
by with spaces. -/
theorem isUsable_fallback_iff (name : String) :
    IsUsable (fallback name) ↔ ¬ LeavesHidden name := by
  have hplain : ∀ c ∈ name.toList.filter isPlain, isPlain c = true := fun c hc =>
    (List.mem_filter.mp hc).2
  have htrim := trimBlank_plain hplain
  rw [fallback, fallbackName, LeavesHidden]
  generalize name.toList.filter isPlain = plain at hplain htrim ⊢
  rw [← htrim]
  constructor
  · rintro husable ⟨spaces, rest, rfl, hne, hspaces⟩
    have hhead := head?_trim_of_spaces hspaces rest
    obtain ⟨c, spaces, rfl⟩ := List.exists_cons_of_ne_nil hne
    obtain rfl := hspaces c List.mem_cons_self
    rw [if_neg ?kept] at husable
    case kept =>
      simp only [Bool.or_eq_true, List.isEmpty_iff, decide_eq_true_eq, not_or]
      refine ⟨fun hnil => ?_, by simp⟩
      rw [hnil] at hhead
      cases hhead
    rw [IsUsable, String.toList_ofList] at husable
    obtain hdefault | ⟨-, hvisible⟩ := husable
    · have hfirst := congrArg (fun s : String => s.toList.head?) hdefault
      simp at hfirst
    · exact hvisible hhead
  · intro hvisible
    split
    · exact .inl rfl
    · next hkept =>
      simp only [Bool.or_eq_true, List.isEmpty_iff, decide_eq_true_eq, not_or] at hkept
      rw [IsUsable, String.toList_ofList]
      refine .inr ⟨hkept.1, fun hhead => ?_⟩
      obtain ⟨spaces, rest, rfl, hspaces⟩ := exists_spaces hhead
      refine hvisible ⟨spaces, rest, rfl, ?_, hspaces⟩
      rintro rfl
      exact hkept.2 rfl

end Download

/-! ## What the service offers -/

namespace Service
open Download Text

/-- The headers with which the service offers a document to a request or an upload with a name.
Surrogates in a name that has a header are all among its directories. -/
inductive Offered (fileName : Option String) : String → Prop where
  | asText {p : Pipeline} {c : Configuration} {body : Value} {r : Request} {package : Word.Package}
      {header : String} (hread : Request.read body = .ok r)
      (hname : r.fileName.map AnyText.standIn = fileName)
      (hanswer : convertText p c body = .converted package header) : Offered fileName header
  | asFile {p : Pipeline} {c : Configuration} {contents : ByteArray} {size : Option Number}
      {package : Word.Package} {header : String}
      (hanswer : convertFile p c fileName contents size = .converted package header) :
      Offered fileName header

theorem eq_of_offered {fileName : Option String} {header : String} (h : Offered fileName header) :
    header = disposition (name fileName) := by
  cases h with
  | asText hread hname hanswer =>
    rw [convertText_read hread, convert_eq_iff] at hanswer
    rw [← hname]
    exact eq_of_header? hanswer.header
  | asFile hanswer =>
    rw [convertFile_eq_iff] at hanswer
    cases hanswer with
    | asText file octets answers =>
      have hheader := answers.header
      rw [header?_whole] at hheader
      exact (Option.some.inj hheader).symm

/-- Both ways into the service offer a document under every name that they accept. -/
theorem offered_name (fileName : Option String) :
    Offered fileName (disposition (name fileName)) := by
  have hsome : (Pipeline.convert {} {} (.string "x") none).toOption.isSome = true := by
    decide +kernel
  have hlength : ¬ TooLong {} "x" := by decide
  have hread := @read_payload (.string "x") (fileName.map .whole) none nofun
  have hname : (fileName.map .whole).map AnyText.standIn = fileName := by cases fileName <;> rfl
  cases hresult : Pipeline.convert {} {} (.string "x") none with
  | error e =>
    rw [hresult] at hsome
    cases hsome
  | ok package =>
    have hanswer : convertText {} {} (payload (.string "x") (fileName.map .whole) none) =
        .converted package (disposition (name fileName)) := by
      rw [convertText_read hread, Option.map_none, convert_text hlength, hresult]
    exact .asText hread hname hanswer

variable {fileName : Option String} {header : String}

/-- A name that is not plain is offered under two names. The one for clients that know plain
characters only is usable exactly if no spaces with a dot after them are left of the name. -/
theorem usable_iff_of_offered (h : Offered fileName header)
    (hplain : (name fileName).toList.all isPlain = false) :
    ∃ q p, header = opening ++ q ++ extension ++ p ∧ IsQuotable q ∧
      (IsUsable q ↔ ¬ LeavesHidden (name fileName)) := by
  refine ⟨fallback (name fileName), encoded (name fileName), ?_, isQuotable_fallback _,
    isUsable_fallback_iff _⟩
  rw [eq_of_offered h, disposition_of_not_plain hplain]

/-- Spaces at the front do not matter where no dot follows them. -/
theorem usable_iff_of_offered_spaces :
    let fileName := some "é  a.md"
    let header := disposition (name fileName)
    Offered fileName header ∧ (name fileName).toList.all isPlain = false ∧
      ∃ q p, header = opening ++ q ++ extension ++ p ∧ IsQuotable q ∧ IsUsable q := by
  intro fileName header
  have hoffered : Offered fileName header := offered_name fileName
  have hplain : (name fileName).toList.all isPlain = false := by decide
  have hvisible : ¬ LeavesHidden (name fileName) := by
    rintro ⟨spaces, rest, hleft, -, hspaces⟩
    have hhead := head?_trim_of_spaces hspaces rest
    rw [← hleft] at hhead
    exact absurd hhead (by decide)
  obtain ⟨q, p, hheader, hquotable, husable⟩ := usable_iff_of_offered hoffered hplain
  exact ⟨hoffered, hplain, q, p, hheader, hquotable, husable.mpr hvisible⟩

/-- A space that is left at the front of a name hides the dot after it from the guard against hidden
names. -/
theorem hidden_name_offered :
    ¬ ∀ (fileName : Option String) (header q p : String), Offered fileName header →
      (name fileName).toList.all isPlain = false → header = opening ++ q ++ extension ++ p →
      IsQuotable q → IsUsable q := by
  intro hall
  have hheader : disposition (name (some "é .md")) =
      opening ++ " .docx" ++ extension ++ "%C3%A9%20.docx" := by decide
  have hleft : " .docx".toList.all isPlain = true := by decide
  have hquotable : IsQuotable " .docx" := isQuotable_of_plain (List.all_eq_true.mp hleft)
  have husable := hall _ _ _ _ (offered_name (some "é .md")) (by decide) hheader hquotable
  exact absurd husable (by decide)

end Service
end MarkdownWord
