import MarkdownWord.Word.Blocks

/-!
# The contents of blocks

The paragraphs, runs and links of blocks in reading order. A table is read row by row and cell by
cell, and a link is opened into its runs.
-/

namespace MarkdownWord.Word

/-- The text of a run; a line break has none. -/
def Run.text? : Run → Option String
  | .text v _ => some v
  | .lineBreak => none

@[simp] theorem Run.text?_linked (r : Run) : r.linked.text? = r.text? := by
  cases r <;> rfl

/-- The address of a link that leads somewhere. -/
def Member.target? : Member → Option String
  | .link url _ => if url.isEmpty then none else some url
  | .run _ => none

/-- The addresses of the links of a paragraph, empty ones left out. -/
def Paragraph.targets (p : Paragraph) : List String := p.members.filterMap Member.target?

/-- The text of a paragraph is that of its runs. -/
theorem Paragraph.plainText_eq_runs (p : Paragraph) :
    p.plainText = String.join (p.runs.map Run.plainText) := by
  have hmembers (ms : List Member) : String.join (ms.map Member.plainText) =
      String.join ((ms.flatMap Member.runs).map Run.plainText) := by
    induction ms with
    | nil => rfl
    | cons m ms ih =>
      rw [List.map_cons, String.join_cons, ih, List.flatMap_cons, List.map_append,
        String.join_append, Member.plainText]
  exact hmembers p.members

namespace Block

/-- The paragraphs of a block, those in the cells of a table included. -/
def paragraphs : Block → List Paragraph
  | .paragraph p => [p]
  | .table t => t.rows.flatMap fun r => r.cells.flatMap (·.paragraphs)
  | .foreign _ => []

/-- The members of the paragraphs of a block. -/
def members (b : Block) : List Member := b.paragraphs.flatMap (·.members)

/-- The runs of a block, those inside links included. -/
def runs (b : Block) : List Run := b.paragraphs.flatMap Paragraph.runs

/-- The addresses of the links of a block, empty ones left out. -/
def targets (b : Block) : List String := b.paragraphs.flatMap Paragraph.targets

theorem runs_eq_members (b : Block) : b.runs = b.members.flatMap Member.runs := by
  simp only [runs, members, List.flatMap_assoc]
  rfl

theorem runs_paragraph (p : Paragraph) : (paragraph p).runs = p.members.flatMap Member.runs := by
  simp [runs, paragraphs, Paragraph.runs]

@[simp] theorem members_quoted (b : Block) : b.quoted.members = b.members := by
  cases b <;> simp [quoted, members, paragraphs]

@[simp] theorem runs_quoted (b : Block) : b.quoted.runs = b.runs := by
  simp [runs_eq_members]

end Block

/-- Each row of a table is made of one of its nodes. -/
theorem exists_rowOf_of_mem {ns : List Node} {r : Row} (h : r ∈ (tableOf ns).rows) :
    ∃ n ∈ ns, ∃ head, r = rowOf head n := by
  cases ns with
  | nil => cases h
  | cons n ns =>
    rcases List.mem_cons.mp h with rfl | h
    · exact ⟨n, List.mem_cons_self, true, rfl⟩
    · obtain ⟨m, hm, rfl⟩ := List.mem_map.mp h
      exact ⟨m, List.mem_cons_of_mem n hm, false, rfl⟩

end MarkdownWord.Word

namespace MarkdownWord.Node
open Word

private theorem texts_members (f : Flags) (n : Node) :
    ((n.members f).flatMap Member.runs).map Run.text? = (n.runs f).map Run.text? := by
  have hplain : ((n.runs f).map Member.run).flatMap Member.runs = n.runs f := by
    simp [List.flatMap_map, Member.runs]
  cases n with
  | link url title cs => simp [members, linkRuns, runs, Member.runs]
  | _ => rw [members, hplain]; simp

theorem membersAll_cons (f : Flags) (n : Node) (rest : List Node) :
    membersAll f (n :: rest) = n.members f ++ membersAll f rest := List.flatMap_cons

/-- Keeping the runs of a link together changes no text. -/
theorem texts_membersAll (f : Flags) (ns : List Node) :
    ((membersAll f ns).flatMap Member.runs).map Run.text? = (runsAll f ns).map Run.text? := by
  induction ns with
  | nil => simp [membersAll, runsAll]
  | cons n rest ih =>
    rw [membersAll_cons, List.flatMap_append, List.map_append, texts_members, ih, runsAll, List.map_append]

end MarkdownWord.Node
