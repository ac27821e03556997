import MarkdownWord.Proofs.Packing
import MarkdownWord.Proofs.Rendered
import MarkdownWord.Proofs.RunLooks

/-!
# How blocks look to a reader

A reader of a document file finds paragraphs with their runs, in document order and with links
opened, and tables as full grids of cells. What is read from the elements of a block is what the
block says (`Block.Writable.seen_markup`), and so it is for a whole document made of nodes
(`Document.seen_render_ofNodes`).
-/

namespace MarkdownWord
namespace Word

/-! ## Elements by their tags -/

/-- What is read from those of some elements that have a tag. -/
def Xml.readAll {α : Type} (tag : String) (read : Xml → α) (xs : List Xml) : List α :=
  (xs.filter (·.tag == tag)).map read

section ReadAll

variable {α β : Type} {tag : String} {read : Xml → β}

@[simp] theorem Xml.readAll_append (xs ys : List Xml) :
    readAll tag read (xs ++ ys) = readAll tag read xs ++ readAll tag read ys := by
  simp [readAll]

theorem Xml.readAll_cons_of_ne {x : Xml} (xs : List Xml) (h : x.tag ≠ tag) :
    readAll tag read (x :: xs) = readAll tag read xs := by
  simp [readAll, h]

theorem Xml.readAll_replicate {x : Xml} (n : Nat) (h : x.tag = tag) :
    readAll tag read (List.replicate n x) = List.replicate n (read x) := by
  simp [readAll, h]

/-- Elements that were written one by one are read one by one. -/
theorem Xml.readAll_of_forall₂ {f : α → β} {as : List α} {xs : List Xml}
    (h : List.Forall₂ (fun a x => x.tag = tag ∧ read x = f a) as xs) :
    readAll tag read xs = as.map f := by
  induction h with
  | nil => rfl
  | cons hx _ ih => simpa [readAll, hx.1, hx.2] using ih

end ReadAll

/-! ## Paragraphs -/

theorem Xml.runElementsAll_append (xs ys : List Xml) :
    runElementsAll (xs ++ ys) = runElementsAll xs ++ runElementsAll ys := by
  induction xs with
  | nil => simp [runElementsAll]
  | cons x xs ih => simp [runElementsAll, ih]

theorem Xml.runElements_of_tag {x : Xml} (h : x.tag = "w:r") : x.runElements = [x] := by
  cases x with
  | element tag attributes children =>
    obtain rfl : tag = "w:r" := h
    simp [runElements]
  | text v => simp [Xml.tag] at h

/-- The runs of an element of a paragraph as a reader finds them. -/
def Xml.seenRuns (styles : List StyleEntry) (x : Xml) : List SeenRun :=
  (runElementsAll x.children).map (seenRun styles)

/-- What a reader should find of a paragraph. -/
def Paragraph.seen (p : Paragraph) : List SeenRun := p.runs.map Run.seen

private theorem seen_runs {rs : List Run} {xs : List Xml}
    (h : List.Forall₂ (fun r x => x.tag = "w:r" ∧ x.seenRun linkStyles = r.seen) rs xs) :
    (Xml.runElementsAll xs).map (Xml.seenRun linkStyles) = rs.map Run.seen := by
  induction h with
  | nil => simp [Xml.runElementsAll]
  | cons hx _ ih => simp [Xml.runElementsAll, Xml.runElements_of_tag hx.1, hx.2, ih]

/-- The runs of a link are read in their place, inside the element of the link. -/
theorem Member.seen_markup {m : Member} (h : ∀ r ∈ m.runs, r.Writable) (t : Targets) :
    Leaves (m.markup true) t fun xs _ =>
      (Xml.runElementsAll xs).map (Xml.seenRun linkStyles) = m.runs.map Run.seen := by
  cases m with
  | run r =>
    have hr := (h r (List.mem_singleton.mpr rfl)).seen_markup
    refine (Leaves.of_yields hr t).bind fun x _ hx => Leaves.pure ?_
    exact seen_runs (.cons hx .nil)
  | link url rs =>
    have hruns (t : Targets) := Leaves.mapM (fun r hr => Leaves.of_yields (h r hr).seen_markup) t
    rw [markup]
    split
    · exact (hruns t).mono fun xs _ hxs => seen_runs hxs
    · refine Leaves.bind_any fun id u => ?_
      refine (hruns u).bind fun xs _ hxs => Leaves.pure ?_
      simpa [Xml.runElementsAll, Xml.runElements] using seen_runs hxs

/-- The properties of a paragraph hold no runs. -/
theorem Paragraph.Writable.seen_markup {p : Paragraph} (h : p.Writable) (numbers : ListNumbers)
    (style : Option String) (t : Targets) :
    Leaves (p.markup ⟨numbers, true⟩ style) t fun x _ =>
      x.tag = "w:p" ∧ x.seenRuns linkStyles = p.seen := by
  have hmembers := Leaves.mapM fun m hm =>
    Member.seen_markup fun r hr => h.runs r (List.mem_flatMap.mpr ⟨m, hm, hr⟩)
  have hflatten {ms : List Member} {xss : List (List Xml)}
      (h : List.Forall₂ (fun m xs => (Xml.runElementsAll xs).map (Xml.seenRun linkStyles) =
        m.runs.map Run.seen) ms xss) :
      (Xml.runElementsAll xss.flatten).map (Xml.seenRun linkStyles) =
        (ms.flatMap Member.runs).map Run.seen := by
    induction h with
    | nil => simp [Xml.runElementsAll]
    | cons hm _ ih => simp [Xml.runElementsAll_append, hm, ih]
  refine Leaves.bind_any fun properties u => (hmembers u).bind fun xss _ hxss => ?_
  refine Leaves.pure ⟨rfl, ?_⟩
  have hruns := hflatten hxss
  split <;> simpa [Xml.seenRuns, Xml.group, Xml.children, Xml.runElementsAll, Xml.runElements,
    Paragraph.seen, Paragraph.runs] using hruns

/-! ## Tables -/

/-- What a reader should find of a cell, which has a paragraph at least. -/
def Cell.seen (c : Cell) : List (List SeenRun) :=
  if c.paragraphs.isEmpty then [[]] else c.paragraphs.map Paragraph.seen

/-- What a reader should find of a row, which is filled up with empty cells. -/
def Row.seen (columns : Nat) (r : Row) : List (List (List SeenRun)) :=
  r.cells.map Cell.seen ++ List.replicate (columns - r.cells.length) [[]]

def Xml.seenCell (styles : List StyleEntry) (x : Xml) : List (List SeenRun) :=
  readAll "w:p" (seenRuns styles) x.children

def Xml.seenRow (styles : List StyleEntry) (x : Xml) : List (List (List SeenRun)) :=
  readAll "w:tc" (seenCell styles) x.children

def Xml.seenRows (styles : List StyleEntry) (x : Xml) : List (List (List (List SeenRun))) :=
  readAll "w:tr" (seenRow styles) x.children

theorem Cell.Writable.seen_markup {c : Cell} (h : c.Writable) (numbers : ListNumbers)
    (width : String) (t : Targets) :
    Leaves (c.markup ⟨numbers, true⟩ width) t fun x _ =>
      x.tag = "w:tc" ∧ x.seenCell linkStyles = c.seen := by
  have hparagraphs := Leaves.mapM fun p hp =>
    (h.paragraphs p hp).seen_markup numbers none
  refine (hparagraphs t).bind fun xs _ hxs => Leaves.bind_any fun shade u => ?_
  refine Leaves.pure ⟨rfl, ?_⟩
  have hread := Xml.readAll_of_forall₂ hxs
  have hlength := hxs.length_eq
  cases xs with
  | nil =>
    -- A cell must not be empty, so an empty paragraph is written.
    have hnone : c.paragraphs = [] := List.length_eq_zero_iff.mp hlength
    rw [Cell.seen, hnone]
    simp [Xml.seenCell, cellMarkup, Xml.group, Xml.children, Xml.readAll, Xml.tag, Xml.seenRuns,
      Xml.runElementsAll]
  | cons x xs =>
    have hsome : c.paragraphs ≠ [] := fun hnone => by simp [hnone] at hlength
    rw [Cell.seen, if_neg (by simpa using hsome), ← hread]
    exact Xml.readAll_cons_of_ne _ (by simp [Xml.group, Xml.tag])

theorem seenCell_empty (styles : List StyleEntry) (width : String) :
    (cellMarkup width [] []).seenCell styles = [[]] := by
  simp [Xml.seenCell, cellMarkup, Xml.group, Xml.children, Xml.readAll, Xml.tag, Xml.seenRuns,
    Xml.runElementsAll]

theorem Row.seen_markup {r : Row} (h : ∀ c ∈ r.cells, c.Writable) (numbers : ListNumbers)
    (columns : Nat) (t : Targets) :
    Leaves (r.markup ⟨numbers, true⟩ columns) t fun x _ =>
      x.tag = "w:tr" ∧ x.seenRow linkStyles = r.seen columns := by
  have hcells := Leaves.mapM fun c hc =>
    (h c hc).seen_markup numbers (columnWidth columns)
  refine (hcells t).bind fun xs _ hxs => Leaves.pure ⟨rfl, ?_⟩
  have hread := Xml.readAll_of_forall₂ hxs
  have hempty : (cellMarkup (columnWidth columns) [] []).tag = "w:tc" := rfl
  rw [Xml.seenRow, Xml.group, Xml.children, Xml.readAll_append, hread,
    Xml.readAll_replicate _ hempty, seenCell_empty, Row.seen, hxs.length_eq]

/-! ## Blocks -/

/-- A block as a reader finds it: the runs of a paragraph, or the rows of a table. -/
inductive SeenBlock where
  | paragraph (runs : List SeenRun)
  | table (rows : List (List (List (List SeenRun))))
  deriving DecidableEq, Repr

/-- What a reader should find of a block: nothing of a table without rows or columns. -/
def Block.seen? : Block → Option SeenBlock
  | .paragraph p => some (.paragraph p.seen)
  | .table t =>
    if t.rows = [] ∨ t.columnCount = 0 then none
    else some (.table (t.rows.map (Row.seen t.columnCount)))
  | .foreign _ => none

/-- What a reader finds of an element of the body. Only paragraphs and tables stand there. -/
def Xml.seenBlock? (styles : List StyleEntry) (x : Xml) : Option SeenBlock :=
  if x.tag = "w:p" then some (.paragraph (x.seenRuns styles))
  else if x.tag = "w:tbl" then some (.table (x.seenRows styles))
  else none

theorem Table.seen_markup {t : Table} (h : ∀ r ∈ t.rows, ∀ c ∈ r.cells, c.Writable)
    (numbers : ListNumbers) (u : Targets) :
    Leaves (t.markup ⟨numbers, true⟩) u fun xs _ =>
      xs.map (Xml.seenBlock? linkStyles) = (Block.table t).seen?.toList.map some := by
  have hrows := Leaves.mapM fun r hr => Row.seen_markup (h r hr) numbers t.columnCount
  unfold Table.markup
  dsimp only
  by_cases hcount : t.columnCount = 0
  · rw [if_pos hcount]
    exact Leaves.pure (by simp [Block.seen?, hcount])
  · rw [if_neg hcount]
    refine (hrows u).bind fun xs _ hxs => Leaves.pure ?_
    have hread := Xml.readAll_of_forall₂ hxs
    have hsome : t.rows ≠ [] := fun hnone => hcount (by simp [Table.columnCount, hnone])
    rw [Block.seen?, if_neg (by simp [hsome, hcount]), ← hread]
    rfl

theorem Block.Writable.seen_markup {b : Block} (h : b.Writable) (numbers : ListNumbers)
    (t : Targets) :
    Leaves (b.markup ⟨numbers, true⟩) t fun xs _ =>
      xs.map (Xml.seenBlock? linkStyles) = b.seen?.toList.map some := by
  cases b with
  | paragraph p =>
    refine Leaves.bind_any fun style u => ?_
    refine (Paragraph.Writable.seen_markup h numbers style u).bind fun x _ hx => Leaves.pure ?_
    simp [Xml.seenBlock?, Block.seen?, hx.1, hx.2]
  | table t => exact Table.seen_markup h numbers _
  | foreign kind => exact Leaves.pure rfl

/-! ## Documents -/

private theorem seen_flatten {bs : List Block} {parts : List (List Xml)}
    (h : List.Forall₂ (fun b xs => xs.map (Xml.seenBlock? linkStyles) = b.seen?.toList.map some)
      bs parts) :
    parts.flatten.map (Xml.seenBlock? linkStyles) = (bs.filterMap Block.seen?).map some := by
  induction h with
  | nil => rfl
  | @cons b _ _ _ hb _ ih =>
    rw [List.flatten_cons, List.map_append, hb, ih]
    cases hseen : b.seen? <;> simp [hseen]

end Word
open Word

/-- The only blocks of a tree that leave nothing to see are tables without rows or columns. -/
theorem Node.eq_table_of_seen?_eq_none {o : Overflow} {depth : Int} {nodes : List Node} {b : Block}
    (hb : b ∈ blocksAll o depth nodes) (h : b.seen? = none) :
    ∃ t, b = .table t ∧ (t.rows = [] ∨ t.columnCount = 0) := by
  cases b with
  | paragraph p => cases h
  | table t =>
    refine ⟨t, rfl, ?_⟩
    by_contra hsome
    rw [Block.seen?, if_neg hsome] at h
    cases h
  | foreign kind => exact absurd rfl (ne_foreign_of_mem hb kind)

/-- What a reader finds in the body of a document made of nodes is what its blocks say. -/
theorem Word.Document.seen_render_ofNodes {nodes : List Node} {size : Option Number} {o : Overflow}
    {p : Package} {ws : List Warning} (h : (ofNodes nodes size o).render = .ok (p, ws)) :
    p.body.map (Xml.seenBlock? p.styles) =
      ((ofNodes nodes size o).blocks.filterMap Block.seen?).map some ∧
    ∀ b ∈ (ofNodes nodes size o).blocks, b.seen? = none →
      ∃ t, b = .table t ∧ (t.rows = [] ∨ t.columnCount = 0) := by
  have hmarkup : ∀ b ∈ (ofNodes nodes size o).blocks, ∀ t,
      Leaves (b.markup ⟨.standard, true⟩) t fun xs _ =>
        xs.map (Xml.seenBlock? linkStyles) = b.seen?.toList.map some :=
    fun b hb t => (Node.writable_blocksAll hb).seen_markup .standard t
  have hholds := (Document.rendered_of_markup rfl hmarkup _ h).1
  have hstyles : p.styles = linkStyles := by
    rw [Package.styles, hholds.withLinks]
    rfl
  obtain ⟨parts, hparts, hbody⟩ := hholds.body
  refine ⟨?_, fun b hb hseen => Node.eq_table_of_seen?_eq_none hb hseen⟩
  rw [hstyles, hbody, seen_flatten hparts]

theorem Word.Document.seen_render_ofNodes_mixed :
    let nodes : List Node := [
      .list true (some 3) [.item (some true) [.paragraph [.text "a\tb\r",
        .link "u" .null [.styled .superscript [.text " c"], .lineBreak ""], .inlineCode "d"]]],
      .table [] [], .table [] [.row [.cell [], .cell []], .row [.cell [.text "e"]]]]
    let linked : Look :=
      { underline := true, color := some "0563C1", charStyle := some "Hyperlink",
        position := some .superscript }
    ∃ p ws, (ofNodes nodes none .clamp).render = .ok (p, ws) ∧
      p.body.map (Xml.seenBlock? p.styles) = [
        some (.paragraph [⟨"☑ ", {}⟩, ⟨"a\tb\n", {}⟩, ⟨" c", linked⟩, ⟨"\n", {}⟩,
          ⟨"d", { font := some "Consolas" }⟩]),
        some (.paragraph []),
        some (.table [[[[]], [[]]], [[[⟨"e", {}⟩]], [[]]]]),
        some (.paragraph [])] := by
  intro nodes linked
  have hwritable : Node.Writable .clamp nodes := by decide
  obtain ⟨p, ws, hrender⟩ := Document.exists_render_ofNodes hwritable
  refine ⟨p, ws, hrender, ?_⟩
  rw [(Document.seen_render_ofNodes hrender).1]
  decide

end MarkdownWord
