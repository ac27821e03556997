import MarkdownWord.Markdown.Inline
import MarkdownWord.Proofs.Delimiters

/-!
# What spans are read

The spans of a text are made where something other than text starts, and are then moved about by the
pairing of delimiters. A property that all spans have when they are made, and that enclosures have
from the spans inside, is one of every span that is read (`readSpans_have`).
-/

namespace MarkdownWord.Markdown
open Text

/-- A computation whose value has a property, whatever its state. -/
def AlwaysGives {σ α : Type} (Q : α → Prop) (m : StateM σ α) : Prop := ∀ s, Q (m.run s).1

namespace AlwaysGives

variable {σ α β : Type} {Q : α → Prop} {R : β → Prop} {m : StateM σ α} {f : α → StateM σ β}

theorem pure {a : α} (h : Q a) : AlwaysGives Q (pure a : StateM σ α) := fun _ => h

theorem bind (hm : AlwaysGives Q m) (hf : ∀ a, Q a → AlwaysGives R (f a)) :
    AlwaysGives R (m >>= f) :=
  fun s => hf _ (hm s) _

/-- The value of a step of which nothing is known. -/
theorem bind_any (hf : ∀ a, AlwaysGives R (f a)) : AlwaysGives R (m >>= f) :=
  fun _ => hf _ _

end AlwaysGives

/-- A property that spans have when they are made, with what is known of the targets of links. -/
structure Made (definitions : List Definition) (T : Target → Prop) (P : Span → Prop) : Prop
    extends Inherited P where
  target : ∀ skip isLink pos s, AlwaysGives (fun found => ∀ link ∈ found, T link.target)
    (linkScan? skip definitions isLink pos s)
  code : ∀ s, P (.code s)
  softBreak : P .softBreak
  hardBreak : P .hardBreak
  html : ∀ s, P (.html s)
  address : ∀ {s destination shown : List Char} {n : Nat},
    autolink? s = some (destination, shown, n) → P (.link destination [] (joinTexts [.text shown]))
  link : ∀ {target : Target} {spans : List Span}, T target → (∀ s ∈ spans, P s) →
    P (.link target.destination target.title spans)
  image : ∀ destination title label,
    P (.image destination title label (readSpans definitions label))

/-- Pieces whose spans have a property. -/
def PiecesHave (P : Span → Prop) (pieces : List Piece) : Prop := ∀ p ∈ pieces, p.Holds P

namespace PiecesHave

variable {P : Span → Prop}

theorem nil : PiecesHave P [] := fun _ hp => absurd hp List.not_mem_nil

theorem singleton {s : Span} (hs : P s) : PiecesHave P [.span s] := fun p hp => by
  rw [List.mem_singleton.mp hp]
  exact hs

theorem append {ps qs : List Piece} (hps : PiecesHave P ps) (hqs : PiecesHave P qs) :
    PiecesHave P (ps ++ qs) := List.forall_mem_append.mpr ⟨hps, hqs⟩

theorem flush (hP : Inherited P) (pending : List Char) {pieces : List Piece}
    (h : PiecesHave P pieces) : PiecesHave P (flush pending pieces) := by
  unfold Markdown.flush
  split
  · exact h
  · exact List.forall_mem_cons.mpr ⟨hP.text _, h⟩

theorem delimiters (mark before after : Char) (n : Nat) :
    PiecesHave P (delimiters mark before after n) := by
  unfold Markdown.delimiters
  dsimp only
  intro p hp
  split at hp
  · rcases List.mem_append.mp hp with hp | hp
    · split at hp
      · rw [List.mem_singleton.mp hp]
        trivial
      · cases hp
    · rw [List.eq_of_mem_replicate hp]
      trivial
  · rw [List.eq_of_mem_replicate hp]
    trivial

end PiecesHave

variable {definitions : List Definition} {T : Target → Prop} {P : Span → Prop}

theorem readPieces_have (hP : Made definitions T P) (depth : Nat) (before : Char) (pos : Nat)
    (pending : List Char) : ∀ s : List Char,
      AlwaysGives (PiecesHave P) (readPieces definitions depth before pos pending s)
  | [] => by
    rw [readPieces.eq_def]
    exact AlwaysGives.pure (.flush hP.toInherited _ .nil)
  | c :: rest => by
    rw [readPieces.eq_def]
    dsimp -zeta only
    extract_lets plain piece
    have hplain (n : Nat) (text : List Char) (last : Char) :
        AlwaysGives (PiecesHave P) (plain n text last) :=
      readPieces_have hP depth last _ _ (rest.drop n)
    have hpiece (n : Nat) (last : Char) (pending : List Char) {new : List Piece}
        (hnew : PiecesHave P new) : AlwaysGives (PiecesHave P) (piece n last pending new) := by
      refine AlwaysGives.bind (readPieces_have hP depth last _ _ (rest.drop n)) ?_
      exact fun later hlater => AlwaysGives.pure (.flush hP.toInherited _ (hnew.append hlater))
    clear_value plain piece
    split
    · refine hpiece _ _ _ (.singleton ?_)
      split
      · exact hP.hardBreak
      · exact hP.softBreak
    split
    · split
      · exact hplain 0 _ _
      · split
        · exact hpiece _ _ _ (.singleton hP.hardBreak)
        · exact hpiece _ _ _ (.singleton (hP.text _))
    split
    · split
      · exact hpiece _ _ _ (.singleton (hP.code _))
      · exact hplain _ _ _
    split
    · split
      · exact hpiece _ _ _ (.delimiters _ _ _ _)
      · exact hplain 0 _ _
    split
    · refine AlwaysGives.bind (hP.target _ _ _ _) fun found hfound => ?_
      cases found with
      | none => exact hplain 0 _ _
      | some link =>
        have hlabel := readPieces_have hP (depth - 1) c (pos + 1) [] (rest.take link.label.length)
        refine AlwaysGives.bind hlabel fun label hlabel => hpiece _ _ _ (.singleton ?_)
        exact hP.link (hfound link rfl) (resolve_keeps hP.toInherited hlabel)
    split
    · refine AlwaysGives.bind_any fun found => ?_
      split
      · exact hpiece _ _ _ (.singleton (hP.image _ _ _))
      · exact hplain 0 _ _
    split
    · split
      · next hauto => exact hpiece _ _ _ (.singleton (hP.address hauto))
      · split
        · exact hpiece _ _ _ (.singleton (hP.html _))
        · exact hplain 0 _ _
    split
    · split
      · exact hpiece _ _ _ (.singleton (hP.text _))
      · exact hplain 0 _ _
    · exact hplain 0 _ _
termination_by s => s.length
decreasing_by
  all_goals
    simp only [List.length_drop, List.length_take, List.length_cons]
    omega

/-- A property that spans have when they are made is one of every span that is read from a text. -/
theorem readSpans_have (hP : Made definitions T P) (s : List Char) :
    ∀ span ∈ readSpans definitions s, P span :=
  resolve_keeps hP.toInherited (readPieces_have hP _ _ _ _ s _)

end MarkdownWord.Markdown
