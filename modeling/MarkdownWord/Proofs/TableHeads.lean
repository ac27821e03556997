import MarkdownWord.Proofs.LinkedRuns
import MarkdownWord.Proofs.Sites

/-!
# The heads of tables

The first row of a table is its head. Its cells are shaded and everything written in them is bold,
however deep it stands, and no other row has anything of this. Each table that is reached in a tree
becomes one table, and both are compared here cell by cell (`Node.tables_blocksAll`).
-/

namespace MarkdownWord
open Word

/-! ## Runs of the head -/

namespace Node

/-- A leaf with words of the text, which is set in bold where bold is asked for. -/
def isWords : Node → Bool
  | .text _ | .inlineCode _ => true
  | _ => false

/-- A leaf that has a run in running text, whatever flags are handed down. -/
def hasRun : Node → Bool
  | .text _ | .inlineCode _ | .lineBreak _ | .image _ _ _ => true
  | n => !n.value.isEmpty

/-- The leaves of some nodes that have a run, from left to right. -/
def sources (ns : List Node) : List Node := ((leavesOf [] ns).map Leaf.node).filter hasRun

/-- A run that comes from a leaf, inside text set off in some way, in a link or not. -/
def Gives (leaf : Node) (r : Run) : Prop :=
  ∃ f plain, leaf.leafRuns f = [plain] ∧ (r = plain ∨ r = plain.linked)

end Node

namespace Word

/-- A run in bold. -/
def Run.bolded : Run → Run
  | .text v f => .text v { f with flags := { f.flags with bold := true } }
  | .lineBreak => .lineBreak

/-- A run of a leaf in the head: words are bold, and all else is as in any other row. -/
def Run.headed (leaf : Node) (r : Run) : Run := if leaf.isWords then r.bolded else r

/-- The address of a link and the number of its runs. -/
def Member.shape : Member → Option (String × Nat)
  | .run _ => none
  | .link url rs => some (url, rs.length)

/-- The members that some nodes have in a cell of the head, beside those that they have in a cell of
any other row. -/
structure Member.HeadOf (ns : List Node) (plain head : List Member) : Prop where
  shapes : head.map shape = plain.map shape
  /-- Each run comes from one leaf. -/
  sources : List.Forall₂ Node.Gives (Node.sources ns) (plain.flatMap runs)
  runs : head.flatMap runs = List.zipWith Run.headed (Node.sources ns) (plain.flatMap runs)

theorem Run.headed_linked (leaf : Node) (r : Run) :
    (r.headed leaf).linked = r.linked.headed leaf := by
  unfold headed
  cases leaf.isWords with
  | false => rfl
  | true => cases r <;> rfl

theorem Flags.along_headFlags (path : List Node) :
    headFlags.along path = { Flags.along {} path with bold := true } := by
  simp [along, headFlags]

end Word

namespace Node

/-- A leaf has one run or none, and whether bold is asked for shows in words only. -/
theorem exists_leafRuns (n : Node) : ∃ run : Flags → Run,
    (∀ f, n.leafRuns f = if n.hasRun then [run f] else []) ∧
      ∀ f, run { f with bold := true } = (run f).headed n := by
  cases n with
  | text v => exact ⟨fun f => .text v { flags := f }, fun f => rfl, fun f => rfl⟩
  | inlineCode v =>
    exact ⟨fun f => .text v { flags := { bold := f.bold, italic := f.italic }, font := codeFont },
      fun f => rfl, fun f => rfl⟩
  | lineBreak v => exact ⟨fun f => .lineBreak, fun f => rfl, fun f => rfl⟩
  | image url alt v => exact ⟨fun f => _, fun f => rfl, fun f => rfl⟩
  | code v lang =>
    refine ⟨fun f => .text v {}, fun f => ?_, fun f => rfl⟩
    cases h : v.isEmpty <;> simp [leafRuns, hasRun, value, h]
  | literal name v =>
    refine ⟨fun f => .text v {}, fun f => ?_, fun f => rfl⟩
    cases h : v.isEmpty <;> simp [leafRuns, hasRun, value, h]
  | _ => exact ⟨fun f => .lineBreak, fun f => rfl, fun f => rfl⟩

/-! ## Leaves in order -/

section Leaves

variable (flags : Leaf → Flags)

theorem leafRuns_leaves (ls : List Leaf) :
    List.Forall₂ (fun leaf r => ∃ f, leaf.leafRuns f = [r]) ((ls.map Leaf.node).filter hasRun)
      (ls.flatMap fun l => l.node.leafRuns (flags l)) := by
  induction ls with
  | nil => exact .nil
  | cons l ls ih =>
    obtain ⟨run, hrun, -⟩ := l.node.exists_leafRuns
    rw [List.map_cons, List.filter_cons, List.flatMap_cons, hrun]
    cases hl : l.node.hasRun with
    | false => exact ih
    | true =>
      rw [hl] at hrun
      exact .cons ⟨flags l, hrun _⟩ ih

theorem bold_leaves (ls : List Leaf) :
    (ls.flatMap fun l => l.node.leafRuns { flags l with bold := true }) =
      List.zipWith Run.headed ((ls.map Leaf.node).filter hasRun)
        (ls.flatMap fun l => l.node.leafRuns (flags l)) := by
  induction ls with
  | nil => rfl
  | cons l ls ih =>
    obtain ⟨run, hrun, hbold⟩ := l.node.exists_leafRuns
    rw [List.map_cons, List.filter_cons, List.flatMap_cons, List.flatMap_cons, hrun, hrun, ih]
    cases l.node.hasRun with
    | false => rfl
    | true => exact congrArg (· :: _) (hbold (flags l))

end Leaves

theorem sources_singleton (n : Node) :
    sources [n] = ((n.leavesBelow []).map Leaf.node).filter hasRun := by
  simp [sources, leavesOf]

theorem sources_cons (n : Node) (rest : List Node) :
    sources (n :: rest) = sources [n] ++ sources rest := by
  simp [sources, leavesOf]

theorem leafRuns_sources (n : Node) :
    List.Forall₂ (fun leaf r => ∃ f, leaf.leafRuns f = [r]) (sources [n]) (n.runs {}) := by
  have hleaves := leafRuns_leaves (fun l => Flags.along {} l.path) (n.leavesBelow [])
  rwa [← runs_along, Flags.along_nil, ← sources_singleton] at hleaves

theorem runs_headFlags (n : Node) :
    n.runs headFlags = List.zipWith Run.headed (sources [n]) (n.runs {}) := by
  have hleaves := bold_leaves (fun l => Flags.along {} l.path) (n.leavesBelow [])
  simp only [← Flags.along_headFlags] at hleaves
  rwa [← runs_along, ← runs_along, Flags.along_nil, Flags.along_nil, ← sources_singleton]
    at hleaves

theorem length_runs_headFlags (n : Node) : (n.runs headFlags).length = (n.runs {}).length := by
  rw [runs_headFlags, List.length_zipWith, n.leafRuns_sources.length_eq, Nat.min_self]

/-! ## Members in order -/

theorem runs_members (f : Flags) (n : Node) : (n.members f).flatMap Member.runs =
    (n.runs f).map fun r => if n.isLink then r.linked else r := by
  have hplaced := congrArg (List.map Prod.fst) (placed_members f n)
  simpa [List.map_flatMap, Member.fst_placed, Function.comp_def] using hplaced

theorem shapes_members (n : Node) :
    (n.members headFlags).map Member.shape = (n.members {}).map Member.shape := by
  have hlength := n.length_runs_headFlags
  cases n with
  | link url title cs =>
    simpa [members, linkRuns, runs, Member.shape] using hlength
  | _ =>
    simp only [members, List.map_map, Function.comp_def, Member.shape, List.map_const', hlength]

theorem headOf_members (n : Node) : Member.HeadOf [n] (n.members {}) (n.members headFlags) where
  shapes := n.shapes_members
  sources := by
    rw [runs_members, List.forall₂_map_right_iff]
    refine n.leafRuns_sources.imp fun leaf r hr => ?_
    obtain ⟨f, hf⟩ := hr
    refine ⟨f, r, hf, ?_⟩
    split
    · exact .inr rfl
    · exact .inl rfl
  runs := by
    rw [runs_members, runs_members, runs_headFlags, List.map_zipWith, List.zipWith_map_right]
    congr 1
    funext leaf r
    split
    · exact r.headed_linked leaf
    · rfl

theorem headOf_membersAll (ns : List Node) :
    Member.HeadOf ns (membersAll {} ns) (membersAll headFlags ns) := by
  induction ns with
  | nil => exact ⟨rfl, .nil, rfl⟩
  | cons n rest ih =>
    rw [membersAll_cons, membersAll_cons]
    have hn := n.headOf_members
    constructor
    · rw [List.map_append, List.map_append, hn.shapes, ih.shapes]
    · rw [sources_cons, List.flatMap_append]
      exact List.rel_append hn.sources ih.sources
    · rw [sources_cons, List.flatMap_append, List.flatMap_append, hn.runs, ih.runs,
        List.zipWith_append hn.sources.length_eq]

end Node

/-! ## Tables -/

namespace Word

/-- A cell in the row of some number is made of a node. -/
structure Cell.IsOf (i : Nat) (n : Node) (c : Cell) : Prop where
  shading : c.shading = if i = 0 then some shade else none
  head : i = 0 → ∃ ms, c.paragraphs = [{ members := ms }] ∧
    Member.HeadOf n.children (Node.membersAll {} n.children) ms
  plain : i ≠ 0 → c.paragraphs = [{ members := Node.membersAll {} n.children }]

/-- The row of some number is made of a node, cell by cell. -/
structure Row.IsOf (i : Nat) (n : Node) (r : Row) : Prop where
  header : r.header = true ↔ i = 0
  cells : List.Forall₂ (Cell.IsOf i) n.children r.cells

/-- A table is made of some nodes, row by row. -/
def Table.IsOf (ns : List Node) (t : Table) : Prop :=
  List.Forall₂ (fun p r => Row.IsOf p.2 p.1 r) ns.zipIdx t.rows

theorem isOf_cellOf (i : Nat) (n : Node) : Cell.IsOf i n (cellOf (decide (i = 0)) n) where
  shading := by simp [cellOf]
  head h := ⟨_, by simp [cellOf, h], Node.headOf_membersAll n.children⟩
  plain h := by simp [cellOf, h]

theorem isOf_rowOf (i : Nat) (n : Node) : Row.IsOf i n (rowOf (decide (i = 0)) n) where
  header := by simp [rowOf]
  cells := by
    rw [rowOf, List.forall₂_map_right_iff, List.forall₂_same]
    exact fun m _ => isOf_cellOf i m

theorem isOf_tableOf (ns : List Node) : Table.IsOf ns (tableOf ns) := by
  have hrest (ns : List Node) (i : Nat) :
      List.Forall₂ (fun p r => Row.IsOf p.2 p.1 r) (ns.zipIdx (i + 1)) (ns.map (rowOf false)) := by
    induction ns generalizing i with
    | nil => exact .nil
    | cons n ns ih => exact .cons (isOf_rowOf (i + 1) n) (ih (i + 1))
  cases ns with
  | nil => exact .nil
  | cons n ns => exact .cons (isOf_rowOf 0 n) (hrest ns 0)

theorem filterMap_table?_decorate (q : Bool) (bs : List Block) :
    (decorate q bs).filterMap Block.table? = bs.filterMap Block.table? := by
  have hquoted : Block.table? ∘ Block.quoted = Block.table? := by
    funext b
    cases b <;> rfl
  cases q with
  | false => rfl
  | true => rw [decorate, if_pos rfl, List.filterMap_map, hquoted]

end Word

namespace Node

/-- The rows of a table. -/
def tableRows? : Node → Option (List Node)
  | .table _ cs => some cs
  | _ => none

end Node

theorem Site.tables_plainBlocks (o : Overflow) (t : Site) :
    (t.plainBlocks o).filterMap Block.table? = (t.node.tableRows?.map tableOf).toList := by
  obtain ⟨s, n⟩ := t
  cases n with
  | paragraph cs =>
    cases hholder : s.holder <;> simp [plainBlocks, hholder, Node.tableRows?, Block.table?]
  | code v lang =>
    simp [plainBlocks, codeBlocks, List.filterMap_map, Function.comp_def, Node.tableRows?,
      Block.table?]
  | _ => rfl

theorem Site.tables_blocks (o : Overflow) (t : Site) :
    (t.blocks o).filterMap Block.table? = (t.node.tableRows?.map tableOf).toList := by
  rw [blocks, filterMap_table?_decorate, tables_plainBlocks]

/-- The tables of some nodes are made of the tables that are reached, in order. -/
theorem Node.tables_eq_map (o : Overflow) (depth : Int) (ns : List Node) :
    (blocksAll o depth ns).filterMap Block.table? =
      ((reached ns).filterMap tableRows?).map tableOf := by
  have hopen (n : Node) (hn : n.isOpen = true) : n.tableRows? = none := by
    cases n <;> first | rfl | cases hn
  calc (blocksAll o depth ns).filterMap Block.table?
    _ = (sitesOf { depth } ns).flatMap fun t => (t.node.tableRows?.map tableOf).toList := by
      simp only [blocksAll_eq_sites, List.filterMap_flatMap, Site.tables_blocks]
    _ = ((sitesOf { depth } ns).filterMap fun t => t.node.tableRows?).map tableOf := by
      rw [List.map_filterMap, List.filterMap_eq_flatMap_toList]
    _ = ((reached ns).filterMap tableRows?).map tableOf := by rw [filterMap_sitesOf hopen]

/-- Each table that is reached becomes a table with its rows and cells, in order. The first row
alone is a head, and it alone is shaded and bold. -/
theorem Node.tables_blocksAll (o : Overflow) (depth : Int) (ns : List Node) :
    List.Forall₂ Table.IsOf ((reached ns).filterMap tableRows?)
      ((blocksAll o depth ns).filterMap Block.table?) := by
  rw [tables_eq_map, List.forall₂_map_right_iff, List.forall₂_same]
  exact fun rows _ => isOf_tableOf rows

end MarkdownWord
