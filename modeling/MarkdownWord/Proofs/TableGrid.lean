import MarkdownWord.Proofs.Hyperlinks

/-!
# The grid of a table

A table is written as a full grid. Its rows may have different lengths: each is filled up with empty
cells to the length of the longest one. A cell stands at its own place with all its paragraphs, and
each of them is what it would be if it were written once more into the finished file
(`Package.grid_of_addBlock`).
-/

namespace MarkdownWord.Word

/-- The children of an element that have some tag. -/
def Xml.parts (tag : String) (x : Xml) : List Xml := x.children.filter (·.tag == tag)

/-- An element shows a cell of a table, where `known` are the targets of the finished file. It holds
the paragraphs of the cell, each as it would be written into that file. -/
structure Cell.IsShown (s : Surroundings) (known : Targets) (c : Cell) (x : Xml) : Prop where
  tag : x.tag = "w:tc"
  children : x.children = x.parts "w:tcPr" ++ x.parts "w:p"
  paragraphs : c.paragraphs ≠ [] →
    List.Forall₂ (fun p => Settled (p.markup s none) known) c.paragraphs (x.parts "w:p")
  blank : c.paragraphs = [] → x.parts "w:p" = [.group "w:p" []]
  nonempty : x.parts "w:p" ≠ []
  /-- The fill is given once, and none is given for a cell without shading. -/
  fills : ∃ properties, x.parts "w:tcPr" = [properties] ∧
    (properties.parts "w:shd").map (Xml.attribute? "w:fill") = (given? c.shading).toList.map some

/-- The cells of a row with empty ones after them, so that it has one for each column. -/
def Row.filled (columns : Nat) (r : Row) : List Cell :=
  r.cells ++ List.replicate (columns - r.cells.length) ({} : Cell)

/-- An element shows a row of a table with some columns. -/
structure Row.IsShown (s : Surroundings) (known : Targets) (columns : Nat) (r : Row) (x : Xml) :
    Prop where
  tag : x.tag = "w:tr"
  children : x.children = x.parts "w:tc"
  count : (x.parts "w:tc").length = columns
  cells : List.Forall₂ (Cell.IsShown s known) (r.filled columns) (x.parts "w:tc")

/-- An element shows a table. -/
structure Table.IsShown (s : Surroundings) (known : Targets) (t : Table) (x : Xml) : Prop where
  tag : x.tag = "w:tbl"
  /-- There is no other table inside. -/
  alone : Xml.named "w:tbl" [x] = [x]
  columns : ∃ grid, x.parts "w:tblGrid" = [grid] ∧
    (grid.parts "w:gridCol").length = t.columnCount
  rows : List.Forall₂ (Row.IsShown s known t.columnCount) t.rows (x.parts "w:tr")

/-! ## Children -/

namespace Xml

variable {tag : String} {x : Xml} {xs : List Xml}

theorem parts_cons_of_eq (name : String) (h : x.tag = tag) :
    (group name (x :: xs)).parts tag = x :: (group name xs).parts tag :=
  List.filter_cons_of_pos (beq_iff_eq.mpr h)

theorem parts_cons_of_ne (name : String) (h : x.tag ≠ tag) :
    (group name (x :: xs)).parts tag = (group name xs).parts tag :=
  List.filter_cons_of_neg (by simpa using h)

theorem parts_of_eq (name : String) (h : ∀ x ∈ xs, x.tag = tag) : (group name xs).parts tag = xs :=
  List.filter_eq_self.mpr fun x hx => beq_iff_eq.mpr (h x hx)

theorem parts_of_ne (name : String) (h : ∀ x ∈ xs, x.tag ≠ tag) :
    (group name xs).parts tag = [] :=
  List.filter_eq_nil_iff.mpr fun x hx => by simpa using h x hx

end Xml

/-! ## Paragraphs -/

theorem Member.settles_markup (m : Member) (withLinks : Bool) :
    Settles (m.markup withLinks) m.target?.toList := by
  have hruns (rs : List Run) :
      Settles (rs.mapM fun r => (r.markup withLinks : Except RenderError Xml)) [] :=
    (Settles.mapM fun r _ => Settles.lift (r.markup withLinks)).congr
      (List.flatMap_eq_nil_iff.mpr fun _ _ => rfl)
  cases m with
  | run r => exact (Settles.lift (r.markup withLinks)).map
  | link url rs =>
    rw [markup]
    by_cases hurl : url = ""
    · subst hurl
      exact hruns rs
    · have htarget : (Member.link url rs).target? = some url := by simp [target?, hurl]
      rw [if_neg (by simpa using hurl), htarget]
      exact (relate_settles url).bind fun id => (hruns rs).map

theorem Paragraph.settles_markup (p : Paragraph) (s : Surroundings) (style : Option String) :
    Settles (p.markup s style) p.targets := by
  have hmembers := Settles.mapM fun m (_ : m ∈ p.members) => m.settles_markup s.withLinks
  unfold Paragraph.markup
  refine ((Settles.lift _).bind fun ps => hmembers.map).congr ?_
  rw [Paragraph.targets, List.filterMap_eq_flatMap_toList, List.nil_append]

/-- No table stands in a paragraph. -/
theorem Paragraph.named_table_markup (p : Paragraph) (s : Surroundings) (style : Option String)
    (t : Targets) :
    Leaves (p.markup s style) t fun x _ => x.tag = "w:p" ∧ Xml.named "w:tbl" [x] = [] := by
  have hmembers (t : Targets) :=
    Leaves.mapM (fun m (_ : m ∈ p.members) => m.within_markup s.withLinks) t
  refine (Leaves.of_yields (p.within_properties s.numbers style) t).bind fun ps u hps => ?_
  refine (hmembers u).bind fun parts _ hparts => Leaves.pure ⟨rfl, ?_⟩
  have hhead : Xml.named "w:tbl" ps = [] := hps.named_eq_nil (by decide)
  have hrest : Xml.named "w:tbl" parts.flatten = [] :=
    (Xml.within_flatten (forall_mem_of_forall₂ hparts)).named_eq_nil (by decide)
  split
  · simp [Xml.named_group, hrest]
  · rw [Xml.named_group, List.singleton_append, Xml.named_cons, Xml.named_group, hhead, hrest]
    simp

/-- A paragraph of a cell, as it stands in the finished file. -/
def Paragraph.IsShown (s : Surroundings) (known : Targets) (p : Paragraph) (x : Xml) : Prop :=
  Settled (p.markup s none) known x ∧ x.tag = "w:p" ∧ Xml.named "w:tbl" [x] = []

theorem Paragraph.shown_markup (p : Paragraph) (s : Surroundings) :
    Gathers (p.markup s none) p.targets fun u => p.IsShown s u := by
  intro t
  have hboth := (p.settles_markup s none t).and (p.named_table_markup s none t)
  apply hboth.mono
  rintro x t' ⟨⟨rfl, hsettled⟩, hx⟩
  exact ⟨rfl, fun u hu => ⟨hsettled u hu, hx⟩⟩

/-! ## Cells -/

/-- The shading of a cell. -/
def fillElement (fill : String) : Xml :=
  .leaf "w:shd" [("w:val", "clear"), ("w:color", "auto"), ("w:fill", fill)]

theorem property_fillMarkup (shading : Option String) :
    Yields (property (given? shading) fun fill => do return [← fillMarkup fill]) fun xs =>
      xs = (given? shading).toList.map fillElement := by
  cases given? shading with
  | none => exact Yields.pure rfl
  | some fill =>
    have hfill : Yields (fillMarkup fill) fun x => x = fillElement fill :=
      (legalText_same fill).bind fun text htext => Yields.pure (by rw [htext, fillElement])
    exact hfill.bind fun x hx => Yields.pure (by rw [hx]; rfl)

/-- The properties of a cell. -/
def cellProperties (width : String) (shading : Option String) : Xml :=
  .group "w:tcPr" (.leaf "w:tcW" [("w:type", "dxa"), ("w:w", width)] ::
    (given? shading).toList.map fillElement)

theorem fills_cellProperties (width : String) (shading : Option String) :
    ((cellProperties width shading).parts "w:shd").map (Xml.attribute? "w:fill") =
      (given? shading).toList.map some := by
  have hwidth : (Xml.leaf "w:tcW" [("w:type", "dxa"), ("w:w", width)]).tag ≠ "w:shd" := by
    simp [Xml.leaf, Xml.tag]
  rw [cellProperties, Xml.parts_cons_of_ne _ hwidth]
  cases given? shading <;> rfl

section Cells

variable {s : Surroundings} {known : Targets}

/-- An element with the properties of a cell and some paragraphs after them shows the cell, if these
are its own, or an empty one where it has none. -/
theorem Cell.isShown_group {c : Cell} {content : List Xml} (width : String)
    (htags : ∀ x ∈ content, x.tag = "w:p") (hnonempty : content ≠ [])
    (hparagraphs : c.paragraphs ≠ [] →
      List.Forall₂ (fun p => Settled (p.markup s none) known) c.paragraphs content)
    (hblank : c.paragraphs = [] → content = [.group "w:p" []]) :
    c.IsShown s known (.group "w:tc" (cellProperties width c.shading :: content)) := by
  let x := Xml.group "w:tc" (cellProperties width c.shading :: content)
  have hproperties : x.parts "w:tcPr" = [cellProperties width c.shading] := by
    have hrest : ∀ x ∈ content, x.tag ≠ "w:tcPr" := fun x hx => by simp [htags x hx]
    have htag : (cellProperties width c.shading).tag = "w:tcPr" := rfl
    rw [Xml.parts_cons_of_eq _ htag, Xml.parts_of_ne _ hrest]
  have hcontent : x.parts "w:p" = content := by
    have hhead : (cellProperties width c.shading).tag ≠ "w:p" := by
      simp [cellProperties, Xml.group, Xml.tag]
    rw [Xml.parts_cons_of_ne _ hhead, Xml.parts_of_eq _ htags]
  constructor
  · rfl
  · rw [hproperties, hcontent]
    rfl
  · rwa [hcontent]
  · rwa [hcontent]
  · rwa [hcontent]
  · exact ⟨_, hproperties, fills_cellProperties width c.shading⟩

theorem Cell.isShown_cellMarkup {c : Cell} {xs : List Xml}
    (h : List.Forall₂ (Paragraph.IsShown s known) c.paragraphs xs) (width : String) :
    c.IsShown s known (cellMarkup width ((given? c.shading).toList.map fillElement) xs) := by
  have hlength := h.length_eq
  cases xs with
  | nil =>
    have hnone : c.paragraphs = [] := List.length_eq_zero_iff.mp hlength
    apply isShown_group width
    · simp [Xml.group, Xml.tag]
    · simp
    · exact fun hsome => absurd hnone hsome
    · exact fun _ => rfl
  | cons x xs =>
    have hsome : c.paragraphs ≠ [] := fun hnone => by simp [hnone] at hlength
    apply isShown_group width
    · exact forall_mem_of_forall₂ (h.imp fun _ _ hx => hx.2.1)
    · simp
    · exact fun _ => h.imp fun _ _ hx => hx.1
    · exact fun hnone => absurd hnone hsome

/-- What none of some elements has is not found in them. -/
theorem Xml.named_eq_nil_of_forall₂ {α : Type} {tag : String} {as : List α} {xs : List Xml}
    (h : List.Forall₂ (fun _ x => named tag [x] = []) as xs) : named tag xs = [] := by
  rw [named_of_forall₂ h]
  simp

theorem Cell.shown_markup (c : Cell) (s : Surroundings) (width : String) :
    Gathers (c.markup s width) (c.paragraphs.flatMap Paragraph.targets) fun u x =>
      c.IsShown s u x ∧ Xml.named "w:tbl" [x] = [] := by
  have hparagraphs := Gathers.mapM fun p (_ : p ∈ c.paragraphs) => p.shown_markup s
  have hshading : Gathers (liftM (property (given? c.shading) fun fill => do
      return [← fillMarkup fill])) [] fun _ shade =>
        Xml.Within layoutTags shade ∧ shade = (given? c.shading).toList.map fillElement :=
    Gathers.lift fun shade h _ =>
      ⟨within_property layoutTags within_fillMarkup shade h, property_fillMarkup c.shading shade h⟩
  unfold Cell.markup
  refine (hparagraphs.bind fun xs => hshading.map fun u shade hshade hxs => ?_).congr
    (List.append_nil _)
  obtain ⟨hwithin, rfl⟩ := hshade
  constructor
  · exact isShown_cellMarkup hxs width
  · rw [named_cellMarkup hwithin (by decide)]
    exact Xml.named_eq_nil_of_forall₂ (hxs.imp fun _ _ hx => hx.2.2)

theorem Cell.isShown_empty (s : Surroundings) (known : Targets) (width : String) :
    Cell.IsShown s known {} (cellMarkup width [] []) := isShown_cellMarkup .nil width

end Cells

/-! ## Rows -/

theorem Row.isShown_group {s : Surroundings} {known : Targets} {columns : Nat} {r : Row}
    {xs : List Xml} (hlength : r.cells.length ≤ columns)
    (h : List.Forall₂ (Cell.IsShown s known) r.cells xs) (width : String) :
    r.IsShown s known columns
      (.group "w:tr" (xs ++ List.replicate (columns - xs.length) (cellMarkup width [] []))) := by
  have hempty (n : Nat) : List.Forall₂ (Cell.IsShown s known) (List.replicate n {})
      (List.replicate n (cellMarkup width [] [])) := by
    induction n with
    | zero => exact .nil
    | succ n ih => exact .cons (Cell.isShown_empty s known width) ih
  have hfilled : List.Forall₂ (Cell.IsShown s known) (r.filled columns)
      (xs ++ List.replicate (columns - xs.length) (cellMarkup width [] [])) := by
    rw [← h.length_eq]
    exact List.rel_append h (hempty _)
  generalize xs ++ List.replicate _ _ = cells at hfilled
  have hcells : (Xml.group "w:tr" cells).parts "w:tc" = cells :=
    Xml.parts_of_eq _ (forall_mem_of_forall₂ (hfilled.imp fun _ _ hx => hx.tag))
  constructor
  · rfl
  · rw [hcells]
    rfl
  · rw [hcells, ← hfilled.length_eq, filled, List.length_append, List.length_replicate]
    omega
  · rwa [hcells]

theorem Row.shown_markup {r : Row} {columns : Nat} (h : r.cells.length ≤ columns)
    (s : Surroundings) :
    Gathers (r.markup s columns) (r.cells.flatMap fun c => c.paragraphs.flatMap Paragraph.targets)
      fun u x => r.IsShown s u columns x ∧ Xml.named "w:tbl" [x] = [] := by
  have hcells := Gathers.mapM fun c (_ : c ∈ r.cells) => c.shown_markup s (columnWidth columns)
  unfold Row.markup
  refine hcells.map fun u xs hxs => ?_
  constructor
  · exact isShown_group h (hxs.imp fun _ _ hx => hx.1) _
  · have hempty : Xml.named "w:tbl" [cellMarkup (columnWidth columns) [] []] = [] := by
      rw [named_cellMarkup Xml.within_nil (by decide), Xml.named_nil]
    have hcells := Xml.named_eq_nil_of_forall₂ (hxs.imp fun _ _ hx => hx.2)
    simp [Xml.named_group, hcells, Xml.named_replicate _ hempty]

/-! ## Tables -/

/-- The columns of a table. -/
def tableGrid (columns : Nat) : Xml :=
  .group "w:tblGrid" (List.replicate columns (.leaf "w:gridCol" [("w:w", columnWidth columns)]))

theorem length_parts_tableGrid (columns : Nat) :
    ((tableGrid columns).parts "w:gridCol").length = columns := by
  rw [tableGrid, Xml.parts_of_eq, List.length_replicate]
  intro x hx
  rw [List.eq_of_mem_replicate hx]
  rfl

theorem Table.isShown_group {s : Surroundings} {known : Targets} {t : Table} {xs : List Xml}
    (h : List.Forall₂ (Row.IsShown s known t.columnCount) t.rows xs)
    (hnamed : Xml.named "w:tbl" xs = []) :
    t.IsShown s known (.group "w:tbl"
      (tableProperties t.widthPercent :: tableGrid t.columnCount :: xs)) := by
  have htags : ∀ x ∈ xs, x.tag = "w:tr" := forall_mem_of_forall₂ (h.imp fun _ _ hx => hx.tag)
  have hproperties : (tableProperties t.widthPercent).tag = "w:tblPr" := rfl
  have hgrid : (tableGrid t.columnCount).tag = "w:tblGrid" := rfl
  constructor
  · rfl
  · rw [Xml.named_group, tableGrid, named_tableRows (by decide), hnamed, if_pos rfl,
      List.append_nil]
  · refine ⟨_, ?_, length_parts_tableGrid t.columnCount⟩
    have hrest : ∀ x ∈ xs, x.tag ≠ "w:tblGrid" := fun x hx => by simp [htags x hx]
    rw [Xml.parts_cons_of_ne _ (by simp [hproperties]), Xml.parts_cons_of_eq _ hgrid,
      Xml.parts_of_ne _ hrest]
  · rwa [Xml.parts_cons_of_ne _ (by simp [hproperties]), Xml.parts_cons_of_ne _ (by simp [hgrid]),
      Xml.parts_of_eq _ htags]

theorem Table.shown_markup {t : Table} (h : t.columnCount ≠ 0) (s : Surroundings) :
    Gathers (t.markup s)
      (t.rows.flatMap fun r => r.cells.flatMap fun c => c.paragraphs.flatMap Paragraph.targets)
      fun u xs => ∃ x, xs = [x] ∧ t.IsShown s u x := by
  have hrows := Gathers.mapM fun r (hr : r ∈ t.rows) => Row.shown_markup (length_cells_le hr) s
  unfold Table.markup
  dsimp only
  rw [if_neg h]
  refine hrows.map fun u xs hxs => ⟨_, rfl, isShown_group (hxs.imp fun _ _ hx => hx.1) ?_⟩
  exact Xml.named_eq_nil_of_forall₂ (hxs.imp fun _ _ hx => hx.2)

theorem Table.columnCount_eq_zero_iff {t : Table} :
    t.columnCount = 0 ↔ ∀ r ∈ t.rows, r.cells = [] := by
  constructor
  · exact fun h r hr => cells_eq_nil h hr
  · intro h
    unfold columnCount
    generalize t.rows = rows at h
    induction rows with
    | nil => rfl
    | cons r rows ih =>
      rw [List.foldl_cons, h r List.mem_cons_self]
      exact ih fun q hq => h q (List.mem_cons_of_mem r hq)

/-- A table with a cell that is added to a document file as a block becomes one table, which has as
many columns as the longest row has cells. One without a cell is left out, with a warning, and the
file stays as it is. -/
theorem Package.grid_of_addBlock (numbers : ListNumbers) (t : Table) (file : Package) :
    ((∃ r ∈ t.rows, r.cells ≠ []) →
      ∀ after, (addBlock numbers (.table t)).run.run file = (.ok (), after) →
        ∃ x, after.body = file.body ++ [x] ∧
          t.IsShown ⟨numbers, file.withLinks⟩ after.targets x) ∧
    ((∀ r ∈ t.rows, r.cells = []) →
      (addBlock numbers (.table t)).run.run file = (.ok (), file) ∧
        Block.warnings numbers (.table t) = [.emptyTable]) := by
  constructor
  · rintro ⟨r, hr, hcells⟩ after hrun
    have hcount : t.columnCount ≠ 0 := fun hzero => hcells (cells_eq_nil hzero hr)
    have hadded : Leaves (addBlock numbers (.table t)) file fun _ after =>
        ∃ x, after.body = file.body ++ [x] ∧
          t.IsShown ⟨numbers, file.withLinks⟩ after.targets x := by
      apply addBlock_leaves
      apply (Table.shown_markup hcount ⟨numbers, file.withLinks⟩ file.targets).mono
      rintro xs u ⟨rfl, hxs⟩
      -- No target is met after the table, so those known now are those of the finished file.
      obtain ⟨x, rfl, hx⟩ := hxs _ List.prefix_rfl
      exact ⟨x, rfl, hx⟩
    have hafter := hadded () (by rw [hrun])
    rwa [hrun] at hafter
  · intro hcells
    have hcount := Table.columnCount_eq_zero_iff.mpr hcells
    have hmarkup : ((Block.table t).markup ⟨numbers, file.withLinks⟩).run.run file.targets =
        (.ok [], file.targets) := by
      rw [Block.markup, Table.markup]
      dsimp only
      rw [if_pos hcount]
      rfl
    constructor
    · rw [run_addBlock numbers _ file hmarkup]
      change (Except.ok (), { file with body := file.body ++ [] }) = _
      rw [List.append_nil]
    · rw [Block.warnings, if_pos hcount]

/-- Rows of different lengths in a file that has met a target already, and a table of empty rows. -/
theorem Package.grid_of_addBlock_ragged :
    let head : Cell :=
      { paragraphs := [{ members := [.link "b" [.text "x" {}], .link "a" []] }, {}],
        shading := some "F4F4F4" }
    let last : Cell :=
      { paragraphs := [{ members := [.link "b" [.text "y" {}]] }], shading := some "" }
    let t : Table := { rows := [{ cells := [head], header := true }, { cells := [{}, last] }, {}] }
    let file : Package := { targets := ["a"] }
    ∃ after x, (addBlock .standard (.table t)).run.run file = (.ok (), after) ∧
      after.targets = ["a", "b"] ∧ after.body = [x] ∧
      t.IsShown ⟨.standard, false⟩ after.targets x ∧
      (addBlock .standard (.table { rows := [{}, {}] })).run.run after = (.ok (), after) := by
  intro head last t file
  have hrun : ∃ after, (addBlock .standard (.table t)).run.run file = (.ok (), after) ∧
      after.targets = ["a", "b"] := ⟨_, rfl, rfl⟩
  obtain ⟨after, hafter, htargets⟩ := hrun
  have hcell : ∃ r ∈ t.rows, r.cells ≠ [] := ⟨_, List.mem_cons_self, by simp⟩
  obtain ⟨x, hbody, hx⟩ := (grid_of_addBlock .standard t file).1 hcell after hafter
  have hempty := (grid_of_addBlock .standard { rows := [{}, {}] } after).2 (by simp)
  exact ⟨after, x, hafter, htargets, hbody, hx, hempty.1⟩

end MarkdownWord.Word
