import MarkdownWord.Pipeline
import MarkdownWord.Proofs.SingleLines

/-!
# Other spellings of line ends

A line ends at LF, at CR or at both. Two texts whose lines are the same are respellings of each
other, whichever way their lines end (`Text.respelled_iff`). A text and its respellings have one
tree, so that they are converted alike (`Pipeline.convert_of_respelled`).
-/

namespace MarkdownWord

namespace Text

/-- The ways in which a line ends. -/
inductive LineEnd where
  | lineFeed | carriageReturn | both
  deriving DecidableEq, Repr

namespace LineEnd

def chars : LineEnd → List Char
  | lineFeed => ['\n']
  | carriageReturn => ['\r']
  | both => ['\r', '\n']

/-- A line end is complete before a text unless an LF there would make it a longer one. -/
def CompleteBefore (e : LineEnd) (rest : List Char) : Prop :=
  e = carriageReturn → rest.head? ≠ some '\n'

theorem completeBefore_of_ne {e : LineEnd} (h : e ≠ carriageReturn) (rest : List Char) :
    e.CompleteBefore rest := fun he => absurd he h

end LineEnd

/-- Two texts have the same lines. Their line ends may be different ones, but no line end of either
text runs into what follows it. -/
inductive Respelled : List Char → List Char → Prop where
  | nil : Respelled [] []
  | char {c : Char} {s t : List Char} (hfeed : c ≠ '\n') (hreturn : c ≠ '\r')
      (rest : Respelled s t) : Respelled (c :: s) (c :: t)
  | lineEnd (e f : LineEnd) {s t : List Char} (he : e.CompleteBefore s) (hf : f.CompleteBefore t)
      (rest : Respelled s t) : Respelled (e.chars ++ s) (f.chars ++ t)

theorem unifyLineEnds_cons {c : Char} (h : c ≠ '\r') (s : List Char) :
    unifyLineEnds (c :: s) = c :: unifyLineEnds s := by
  rw [unifyLineEnds]
  · exact fun _ heq _ => h heq
  · exact h

theorem unifyLineEnds_chars {e : LineEnd} {s : List Char} (h : e.CompleteBefore s) :
    unifyLineEnds (e.chars ++ s) = '\n' :: unifyLineEnds s := by
  cases e with
  | lineFeed => exact unifyLineEnds_cons (by decide) s
  | both => exact unifyLineEnds.eq_1 s
  | carriageReturn =>
    have hfeed : ∀ rest, s = '\n' :: rest → False := by
      rintro rest rfl
      exact h rfl rfl
    rw [LineEnd.chars, List.singleton_append, unifyLineEnds]
    exact hfeed

theorem lineEnd_cases (t : List Char) :
    t = [] ∨ (∃ c u, t = c :: u ∧ c ≠ '\n' ∧ c ≠ '\r') ∨
      ∃ (f : LineEnd) (u : List Char), t = f.chars ++ u ∧ f.CompleteBefore u := by
  cases t with
  | nil => exact .inl rfl
  | cons c t =>
    by_cases hfeed : c = '\n'
    · exact .inr (.inr ⟨.lineFeed, t, by rw [hfeed]; rfl,
        LineEnd.completeBefore_of_ne (by decide) t⟩)
    by_cases hreturn : c = '\r'
    · cases t with
      | nil => exact .inr (.inr ⟨.carriageReturn, [], by rw [hreturn]; rfl, fun _ => by simp⟩)
      | cons d t =>
        by_cases hd : d = '\n'
        · exact .inr (.inr ⟨.both, t, by rw [hreturn, hd]; rfl,
            LineEnd.completeBefore_of_ne (by decide) t⟩)
        · refine .inr (.inr ⟨.carriageReturn, d :: t, by rw [hreturn]; rfl, fun _ heq => ?_⟩)
          exact hd (Option.some.inj heq)
    · exact .inr (.inl ⟨c, t, rfl, hfeed, hreturn⟩)

namespace Respelled

theorem unifyLineEnds_eq {s t : List Char} (h : Respelled s t) :
    unifyLineEnds s = unifyLineEnds t := by
  induction h with
  | nil => rfl
  | char _ hreturn _ ih => rw [unifyLineEnds_cons hreturn, unifyLineEnds_cons hreturn, ih]
  | lineEnd e f he hf _ ih => rw [unifyLineEnds_chars he, unifyLineEnds_chars hf, ih]

/-- A text that is read as a line end and some more starts with a line end. -/
theorem of_lineEnd {e : LineEnd} {s t : List Char} (he : e.CompleteBefore s)
    (h : '\n' :: unifyLineEnds s = unifyLineEnds t)
    (ih : ∀ u, unifyLineEnds s = unifyLineEnds u → Respelled s u) :
    Respelled (e.chars ++ s) t := by
  obtain rfl | ⟨c, u, rfl, hfeed, hreturn⟩ | ⟨f, u, rfl, hf⟩ := lineEnd_cases t
  · cases h
  · rw [unifyLineEnds_cons hreturn] at h
    exact absurd (List.cons.inj h).1.symm hfeed
  · rw [unifyLineEnds_chars hf] at h
    exact .lineEnd e f he hf (ih u (List.cons.inj h).2)

theorem of_unifyLineEnds_eq {s t : List Char} (h : unifyLineEnds s = unifyLineEnds t) :
    Respelled s t := by
  fun_induction unifyLineEnds s generalizing t with
  | case1 rest ih =>
    exact of_lineEnd (LineEnd.completeBefore_of_ne (e := .both) (by decide) rest) h
      fun u hu => ih hu
  | case2 rest hrest ih =>
    refine of_lineEnd (e := .carriageReturn) (fun _ hhead => ?_) h fun u hu => ih hu
    cases rest with
    | nil => cases hhead
    | cons d rest => exact hrest rest (by rw [Option.some.inj hhead])
  | case3 c rest _ hreturn ih =>
    by_cases hc : c = '\n'
    · rw [hc] at h ⊢
      exact of_lineEnd (LineEnd.completeBefore_of_ne (e := .lineFeed) (by decide) rest) h
        fun u hu => ih hu
    obtain rfl | ⟨d, u, rfl, hd, hd'⟩ | ⟨f, u, rfl, hf⟩ := lineEnd_cases t
    · cases h
    · rw [unifyLineEnds_cons hd'] at h
      obtain ⟨rfl, hrest⟩ := List.cons.inj h
      exact .char hc hreturn (ih hrest)
    · rw [unifyLineEnds_chars hf] at h
      exact absurd (List.cons.inj h).1 hc
  | case4 =>
    obtain rfl | ⟨d, u, rfl, hd, hd'⟩ | ⟨f, u, rfl, hf⟩ := lineEnd_cases t
    · exact .nil
    · rw [unifyLineEnds_cons hd'] at h
      cases h
    · rw [unifyLineEnds_chars hf] at h
      cases h

end Respelled

/-- Texts are respellings of each other exactly when they are one with their line ends unified. -/
theorem respelled_iff {s t : List Char} :
    Respelled s t ↔ unifyLineEnds s = unifyLineEnds t :=
  ⟨Respelled.unifyLineEnds_eq, Respelled.of_unifyLineEnds_eq⟩

theorem unifyLineEnds_unifyLineEnds (s : List Char) :
    unifyLineEnds (unifyLineEnds s) = unifyLineEnds s := by
  fun_induction unifyLineEnds s with
  | case1 rest ih => rw [unifyLineEnds_cons (by decide), ih]
  | case2 rest _ ih => rw [unifyLineEnds_cons (by decide), ih]
  | case3 c rest _ hreturn ih => rw [unifyLineEnds_cons hreturn, ih]
  | case4 => rfl

instance (s t : List Char) : Decidable (Respelled s t) := decidable_of_iff _ respelled_iff.symm

theorem Respelled.isEmpty_eq {s t : List Char} (h : Respelled s t) : s.isEmpty = t.isEmpty := by
  cases h with
  | nil => rfl
  | char => rfl
  | lineEnd e f => cases e <;> cases f <;> rfl

end Text

/-! ## Conversions -/

open Text Markdown

/-- A text and its respellings have one tree. -/
theorem Node.ofMarkdown_of_respelled {s t : String} (h : Respelled s.toList t.toList) :
    ofMarkdown s = ofMarkdown t := by
  have hnormal : Markdown.normalize s.toList = Markdown.normalize t.toList := by
    rw [Markdown.normalize, h.unifyLineEnds_eq, Markdown.normalize]
  rw [ofMarkdown, ofMarkdown, readDocument, hnormal, readDocument]

namespace Pipeline

/-- A text and its respellings are converted alike. -/
theorem convert_of_respelled (c : Configuration) {s t : String}
    (h : Respelled s.toList t.toList) (size : Option Number) :
    convert {} c (.string s) size = convert {} c (.string t) size := by
  have hempty : s.isEmpty = t.isEmpty := by
    have hlists : s.toList = [] ↔ t.toList = [] := by
      rw [← List.isEmpty_iff, h.isEmpty_eq, List.isEmpty_iff]
    rwa [Bool.eq_iff_iff, String.isEmpty_iff, String.isEmpty_iff, ← String.toList_eq_nil_iff,
      ← String.toList_eq_nil_iff]
  have hdocument : document {} c (.string s) size = document {} c (.string t) size := by
    cases ht : t.isEmpty with
    | true => simp only [document, requireText, hempty, ht, if_true]
    | false =>
      simp only [document, requireText, hempty, ht, Bool.false_eq_true, if_false, pure_bind,
        Node.ofMarkdown_of_respelled h]
  rw [convert, hdocument, convert]

end Pipeline
end MarkdownWord
