import Mathlib.Data.List.Forall2
import MarkdownWord.Proofs.Contents
import MarkdownWord.Proofs.Leaves

/-!
# Links in running text

A link that stands directly in a paragraph keeps its runs together and marks them, while a link that
is met further down is passed through like any other container. Opening the links of a paragraph
gives the runs of running text again, in their places, and only the marks of the linked ones are new
(`Node.marked_membersAll`).
-/

namespace MarkdownWord
open Word

/-! ## Runs and their marks -/

namespace Word

/-- The runs of a member, each with whether a link is around it. -/
def Member.placed : Member → List (Run × Bool)
  | .run r => [(r, false)]
  | .link _ rs => rs.map fun r => (r, true)

theorem Member.fst_placed (m : Member) : m.placed.map Prod.fst = m.runs := by
  cases m with
  | run r => rfl
  | link url rs => simp [placed, runs, Function.comp_def]

/-- A run without colour, underline and style. -/
def Run.unmarked : Run → Run
  | .text v f => .text v { f with color := none, underline := false, charStyle := none }
  | .lineBreak => .lineBreak

/-- A run that stands inside a link or not, beside the run at its place in running text. -/
structure Run.MarkedFrom (plain shown : Run) (inLink : Bool) : Prop where
  unmarked : shown.unmarked = plain.unmarked
  /-- The marks are others exactly inside a link, where only a line break is left as it is. -/
  ne_iff : shown ≠ plain ↔ inLink = true ∧ plain ≠ .lineBreak
  marks : inLink = true → ∀ v f, shown = .text v f →
    f.color = some "0563C1" ∧ f.underline = true ∧ f.charStyle = some "Hyperlink"

/-- A run that no link has marked. -/
def Run.IsUnlinked (r : Run) : Prop := ∀ v f, r = .text v f → f.charStyle = none

theorem Run.markedFrom_self (r : Run) : r.MarkedFrom r false where
  unmarked := rfl
  ne_iff := by simp
  marks := by simp

theorem Run.IsUnlinked.markedFrom_linked {r : Run} (h : r.IsUnlinked) :
    r.MarkedFrom r.linked true := by
  cases r with
  | lineBreak =>
    refine ⟨rfl, by simp [linked], ?_⟩
    rintro _ v f ⟨⟩
  | text v f =>
    have hne : (text v f).linked ≠ text v f := by
      intro heq
      have hstyle : some linkStyle = f.charStyle := congrArg Format.charStyle (text.inj heq).2
      rw [h v f rfl] at hstyle
      cases hstyle
    refine ⟨rfl, by simp [hne], ?_⟩
    rintro _ w g hg
    cases hg
    exact ⟨rfl, rfl, rfl⟩

end Word

/-! ## Nodes and their members -/

namespace Node

def isLink : Node → Bool
  | .link _ _ _ => true
  | _ => false

theorem isUnlinked_leafRuns {f : Flags} {n : Node} {r : Run} (h : r ∈ n.leafRuns f) :
    r.IsUnlinked := by
  rintro v g rfl
  unfold leafRuns at h
  split at h
  · cases List.mem_singleton.mp h
    rfl
  · cases List.mem_singleton.mp h
    rfl
  · cases List.mem_singleton.mp h
  · cases List.mem_singleton.mp h
    rfl
  · split at h
    · cases h
    · cases List.mem_singleton.mp h
      rfl

/-- Only the members of a paragraph are ever marked as linked. -/
theorem isUnlinked_runs {f : Flags} {n : Node} {r : Run} (h : r ∈ n.runs f) : r.IsUnlinked := by
  have hleaves := n.runs_along f []
  rw [Flags.along_nil] at hleaves
  rw [hleaves] at h
  obtain ⟨l, -, hr⟩ := List.mem_flatMap.mp h
  exact isUnlinked_leafRuns hr

/-- The members of a node are its runs, marked and in one member if the node is a link. -/
theorem placed_members (f : Flags) (n : Node) : (n.members f).flatMap Member.placed =
    (n.runs f).map fun r => (if n.isLink then r.linked else r, n.isLink) := by
  have hplain (rs : List Run) :
      (rs.map Member.run).flatMap Member.placed = rs.map fun r => (r, false) := by
    induction rs with
    | nil => rfl
    | cons r rs ih => simpa [Member.placed] using ih
  cases n with
  | link url title cs => simp [members, linkRuns, runs, Member.placed, isLink]
  | _ => exact hplain _

theorem marked_members (f : Flags) (n : Node) :
    List.Forall₂ (fun r p => r.MarkedFrom p.1 p.2) (n.runs f)
      ((n.members f).flatMap Member.placed) := by
  rw [placed_members, List.forall₂_map_right_iff, List.forall₂_same]
  intro r hr
  cases n.isLink with
  | false => exact r.markedFrom_self
  | true => exact (isUnlinked_runs hr).markedFrom_linked

/-- A member is a link with the address of a node that is one, around the runs of its children. -/
inductive IsWrapped (f : Flags) : Node → Member → Prop
  | link {url : String} {title : Value} {cs : List Node} {rs : List Run}
      (hruns : List.Forall₂ (fun r shown => r.MarkedFrom shown true) (runsAll f cs) rs) :
    IsWrapped f (.link url title cs) (.link url rs)

theorem isWrapped_members (f : Flags) (n : Node) :
    List.Forall₂ (IsWrapped f) ([n].filter isLink) ((n.members f).filter Member.isLink) := by
  have hplain (rs : List Run) : (rs.map Member.run).filter Member.isLink = [] := by
    simp [List.filter_eq_nil_iff, Member.isLink]
  cases n with
  | link url title cs =>
    refine .cons (.link ?_) .nil
    rw [linkRuns, List.forall₂_map_right_iff, List.forall₂_same]
    exact fun r hr => (isUnlinked_runs (n := .link url title cs) hr).markedFrom_linked
  | _ =>
    change List.Forall₂ _ [] (((runs f _).map Member.run).filter Member.isLink)
    rw [hplain]
    exact .nil

/-- Opening the links of the members of some nodes gives the runs that the nodes have in running
text, one after another, and only runs inside of links have other marks. There is one link for each
node that is a link itself, with its address and around its runs. -/
theorem marked_membersAll (f : Flags) (ns : List Node) :
    ((membersAll f ns).flatMap Member.placed).map Prod.fst =
      (membersAll f ns).flatMap Member.runs ∧
    List.Forall₂ (fun r p => r.MarkedFrom p.1 p.2) (ns.flatMap (runs f))
      ((membersAll f ns).flatMap Member.placed) ∧
    List.Forall₂ (IsWrapped f) (ns.filter isLink) ((membersAll f ns).filter Member.isLink) := by
  refine ⟨?_, ?_, ?_⟩
  · rw [List.map_flatMap]
    simp only [Member.fst_placed]
  · induction ns with
    | nil => exact .nil
    | cons n rest ih =>
      rw [membersAll_cons, List.flatMap_cons, List.flatMap_append]
      exact List.rel_append (marked_members f n) ih
  · induction ns with
    | nil => exact .nil
    | cons n rest ih =>
      rw [membersAll_cons, ← List.singleton_append, List.filter_append, List.filter_append]
      exact List.rel_append (isWrapped_members f n) ih

/-- Of two links, the outer one is kept together, and both a break and an image are inside it. -/
example :
    ((membersAll { bold := true } [.text "a", .link "u" .null [.inlineCode "b",
      .link "v" .null [.lineBreak "", .image "i" none ""]]]).flatMap Member.placed).map
        (fun p => (p.1.plainText, p.2)) =
      [("a", false), ("b", true), ("\n", true), ("[Image: i]", true)] := by decide

end Node
end MarkdownWord
