import MarkdownWord.Markdown.Destination
import MarkdownWord.Word.Xml

/-!
# The characters of destinations

Whatever a destination was written with, its percent-encoded form is made of graphic characters of
ASCII, so that XML can hold it.
-/

namespace MarkdownWord
open Word

namespace Text

/-- A character of ASCII that is neither a blank nor a control. -/
def isGraphic (c : Char) : Bool := 33 ≤ c.toNat && c.toNat ≤ 126

theorem isGraphic_hexDigit : ∀ n < 16, isGraphic (hexDigit n) = true := by decide

theorem isGraphic_of_hexValue? {c : Char} (h : (hexValue? c).isSome = true) :
    isGraphic c = true := by
  have hrange : (48 ≤ c.toNat ∧ c.toNat ≤ 57) ∨ (97 ≤ c.toNat ∧ c.toNat ≤ 102) ∨
      (65 ≤ c.toNat ∧ c.toNat ≤ 70) := by
    unfold hexValue? at h
    split at h
    · next hd =>
      left
      simpa [Char.isDigit, UInt32.le_iff_toNat_le] using hd
    split at h
    · next hd =>
      right; left
      simpa [Char.le_def, UInt32.le_iff_toNat_le] using hd
    split at h
    · next hd =>
      right; right
      simpa [Char.le_def, UInt32.le_iff_toNat_le] using hd
    · simp at h
  simp only [isGraphic, Bool.and_eq_true, decide_eq_true_eq]
  omega

private theorem isGraphic_of_le {c first last : Char} (h : first.val ≤ c.val ∧ c.val ≤ last.val)
    (hfirst : 33 ≤ first.toNat) (hlast : last.toNat ≤ 126) : isGraphic c = true := by
  have hlow : first.toNat ≤ c.toNat := UInt32.le_iff_toNat_le.mp h.1
  have hhigh : c.toNat ≤ last.toNat := UInt32.le_iff_toNat_le.mp h.2
  simp only [isGraphic, Bool.and_eq_true, decide_eq_true_eq]
  omega

theorem isGraphic_of_isAlphanum {c : Char} (h : c.isAlphanum = true) : isGraphic c = true := by
  rcases (Bool.or_eq_true _ _).mp h with halpha | hdigit
  · rcases (Bool.or_eq_true _ _).mp halpha with hupper | hlower
    · exact isGraphic_of_le (of_decide_eq_true hupper) (by decide) (by decide)
    · obtain ⟨hlow, hhigh⟩ := (Bool.and_eq_true _ _).mp hlower
      exact isGraphic_of_le ⟨of_decide_eq_true hlow, of_decide_eq_true hhigh⟩ (by decide) (by decide)
  · obtain ⟨hlow, hhigh⟩ := (Bool.and_eq_true _ _).mp hdigit
    exact isGraphic_of_le ⟨of_decide_eq_true hlow, of_decide_eq_true hhigh⟩ (by decide) (by decide)

theorem isGraphic_percentByte {n : Nat} {c : Char} (h : c ∈ percentByte n) : isGraphic c = true := by
  simp only [percentByte, List.mem_cons, List.not_mem_nil, or_false] at h
  rcases h with rfl | rfl | rfl
  · decide
  · exact isGraphic_hexDigit _ (Nat.mod_lt _ (by decide))
  · exact isGraphic_hexDigit _ (Nat.mod_lt _ (by decide))

theorem isGraphic_percentChar {a c : Char} (h : c ∈ percentChar a) : isGraphic c = true := by
  obtain ⟨b, -, hc⟩ := List.mem_flatMap.mp h
  exact isGraphic_percentByte hc

theorem isGraphic_percentComplete {keep : Char → Bool}
    (hkeep : ∀ c, keep c = true → isGraphic c = true) (s : List Char) :
    ∀ c ∈ percentComplete keep s, isGraphic c = true := by
  have hone (c d : Char) (h : d ∈ if keep c then [c] else percentChar c) : isGraphic d = true := by
    split at h
    · next hc => rw [List.mem_singleton.mp h]; exact hkeep c hc
    · exact isGraphic_percentChar h
  fun_induction percentComplete keep s with
  | case1 a b rest hboth ih =>
    obtain ⟨ha, hb⟩ := (Bool.and_eq_true _ _).mp hboth
    intro c hc
    rcases List.mem_cons.mp hc with rfl | hc
    · decide
    rcases List.mem_cons.mp hc with rfl | hc
    · exact isGraphic_of_hexValue? ha
    rcases List.mem_cons.mp hc with rfl | hc
    · exact isGraphic_of_hexValue? hb
    · exact ih c hc
  | case2 a b rest hboth ih =>
    intro c hc
    rcases List.mem_append.mp hc with hc | hc
    · exact isGraphic_percentChar hc
    · exact ih c hc
  | case3 d rest _ ih =>
    intro c hc
    rcases List.mem_append.mp hc with hc | hc
    · exact hone d c hc
    · exact ih c hc
  | case4 => simp

end Text

namespace Markdown
open Text

theorem isGraphic_of_isPlainInDestination {c : Char} (h : isPlainInDestination c = true) :
    isGraphic c = true := by
  unfold isPlainInDestination at h
  rcases (Bool.or_eq_true _ _).mp h with h | h
  · exact isGraphic_of_isAlphanum h
  · have hall : ";/?:@&=+$,-_.!~*'()#".toList.all isGraphic = true := by decide
    exact List.all_eq_true.mp hall c (by simpa using h)

theorem isXmlChar_of_isGraphic {c : Char} (h : isGraphic c = true) : isXmlChar c = true := by
  simp only [isGraphic, Bool.and_eq_true, decide_eq_true_eq] at h
  simp only [isXmlChar, Bool.and_eq_true, Bool.or_eq_true, decide_eq_true_eq, bne_iff_ne]
  omega

/-- A destination that XML can hold. -/
def LegalDestination (s : List Char) : Prop := ∀ c ∈ s, isXmlChar c = true

theorem legal_nil : LegalDestination [] := fun _ hc => absurd hc List.not_mem_nil

/-- XML can hold every destination in its written form. -/
theorem legal_normalDestination (s : List Char) : LegalDestination (normalDestination s) := by
  intro c hc
  have hgraphic := isGraphic_percentComplete (fun _ => isGraphic_of_isPlainInDestination) _ c hc
  exact isXmlChar_of_isGraphic hgraphic

end Markdown
end MarkdownWord
