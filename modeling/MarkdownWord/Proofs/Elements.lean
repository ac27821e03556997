import MarkdownWord.Proofs.Layout
import MarkdownWord.Proofs.RunLooks

/-!
# The elements of blocks

Elements are found by their tags, however deep they are. Of all that is written for a block only the
memberships of its paragraphs in lists are of interest here. Nothing else has their tag, so they are
found again, one after another, where the block is written (`Block.memberships_markup`).
-/

namespace MarkdownWord.Word

namespace Xml

mutual
/-- An element and the elements below it, in document order. -/
def elements : Xml → List Xml
  | .element tag attributes children => .element tag attributes children :: elementsAll children
  | .text _ => []

def elementsAll : List Xml → List Xml
  | [] => []
  | x :: rest => x.elements ++ elementsAll rest
end

theorem elementsAll_append (xs ys : List Xml) :
    elementsAll (xs ++ ys) = elementsAll xs ++ elementsAll ys := by
  induction xs with
  | nil => simp [elementsAll]
  | cons x xs ih => simp [elementsAll, ih]

/-- The elements with a tag among some elements and those below them. -/
def named (tag : String) (xs : List Xml) : List Xml := (elementsAll xs).filter (·.tag == tag)

section Named

variable {tag : String}

@[simp] theorem named_nil : named tag [] = [] := by simp [named, elementsAll]

@[simp] theorem named_append (xs ys : List Xml) :
    named tag (xs ++ ys) = named tag xs ++ named tag ys := by
  simp [named, elementsAll_append]

theorem named_cons (x : Xml) (xs : List Xml) :
    named tag (x :: xs) = named tag [x] ++ named tag xs := by
  rw [← List.singleton_append, named_append]

theorem named_flatten (parts : List (List Xml)) :
    named tag parts.flatten = parts.flatMap (named tag) := by
  induction parts with
  | nil => simp
  | cons xs parts ih => simp [ih]

/-- What is found one by one is found in order. -/
theorem named_of_forall₂ {α : Type} {find : α → List Xml} {as : List α} {xs : List Xml}
    (h : List.Forall₂ (fun a x => named tag [x] = find a) as xs) :
    named tag xs = as.flatMap find := by
  induction h with
  | nil => simp
  | cons hx _ ih => rw [named_cons, hx, ih, List.flatMap_cons]

theorem named_replicate {x : Xml} (n : Nat) (h : named tag [x] = []) :
    named tag (List.replicate n x) = [] := by
  induction n with
  | zero => simp
  | succ n ih => rw [List.replicate_succ, named_cons, h, ih, List.nil_append]

theorem named_element (name : String) (attributes : List (String × String)) (xs : List Xml) :
    named tag [.element name attributes xs] =
      (if name = tag then [.element name attributes xs] else []) ++ named tag xs := by
  by_cases h : name = tag <;> simp [named, elementsAll, elements, Xml.tag, h]

theorem named_group (name : String) (xs : List Xml) : named tag [group name xs] =
    (if name = tag then [group name xs] else []) ++ named tag xs := named_element name [] xs

end Named

/-- Some elements and those below them have no other tags than the given ones. -/
def Within (tags : List String) (xs : List Xml) : Prop := ∀ x ∈ elementsAll xs, x.tag ∈ tags

section Within

variable {tags : List String} {tag : String} {xs : List Xml}

@[simp] theorem within_nil : Within tags [] := by simp [Within, elementsAll]

@[simp] theorem within_append (xs ys : List Xml) :
    Within tags (xs ++ ys) ↔ Within tags xs ∧ Within tags ys := by
  simp [Within, elementsAll_append, or_imp, forall_and]

@[simp] theorem within_element (name : String) (attributes : List (String × String))
    (cs xs : List Xml) :
    Within tags (.element name attributes cs :: xs) ↔
      name ∈ tags ∧ Within tags cs ∧ Within tags xs := by
  simp [Within, elementsAll, elements, Xml.tag, or_imp, forall_and]

@[simp] theorem within_text (s : String) (xs : List Xml) :
    Within tags (.text s :: xs) ↔ Within tags xs := by
  simp [Within, elementsAll, elements]

theorem within_of_forall (h : ∀ x ∈ xs, Within tags [x]) : Within tags xs := by
  induction xs with
  | nil => simp
  | cons x xs ih =>
    rw [← List.singleton_append, within_append]
    exact ⟨h x List.mem_cons_self, ih fun y hy => h y (List.mem_cons_of_mem x hy)⟩

theorem Within.mono {more : List String} (h : Within tags xs) (hsub : tags ⊆ more) :
    Within more xs := fun x hx => hsub (h x hx)

theorem within_flatten {parts : List (List Xml)} (h : ∀ xs ∈ parts, Within tags xs) :
    Within tags parts.flatten := by
  induction parts with
  | nil => simp
  | cons xs parts ih =>
    rw [List.flatten_cons, within_append]
    exact ⟨h xs List.mem_cons_self, ih fun ys hys => h ys (List.mem_cons_of_mem xs hys)⟩

theorem Within.named_eq_nil (h : Within tags xs) (htag : tag ∉ tags) : named tag xs = [] := by
  refine List.filter_eq_nil_iff.mpr fun x hx htagged => htag ?_
  rw [← beq_iff_eq.mp htagged]
  exact h x hx

theorem Within.child?_eq_none (h : Within tags xs) (htag : tag ∉ tags) (hne : tag ≠ "") :
    child? tag xs = none := by
  induction xs with
  | nil => rfl
  | cons x xs ih =>
    cases x with
    | text s =>
      rw [within_text] at h
      have hneq : (text s).tag ≠ tag := fun hempty => hne hempty.symm
      rw [child?_cons, if_neg hneq, ih h]
    | element name attributes cs =>
      obtain ⟨hname, -, hrest⟩ := (within_element name attributes cs xs).mp h
      have hneq : (element name attributes cs).tag ≠ tag := by
        rintro rfl
        exact htag hname
      rw [child?_cons, if_neg hneq, ih hrest]

end Within
end Xml

/-! ## Members -/

/-- The tags of a run and of what stands in it. -/
def runTags : List String :=
  ["w:r", "w:rPr", "w:t", "w:tab", "w:br", "w:rStyle", "w:rFonts", "w:b", "w:i", "w:strike",
    "w:color", "w:sz", "w:u", "w:vertAlign"]

/-- The tags of what stands in a paragraph. -/
def memberTags : List String := "w:hyperlink" :: runTags

theorem within_property {α : Type} (tags : List String) {x : Option α}
    {write : α → Except RenderError (List Xml)} (h : ∀ a, Yields (write a) (Xml.Within tags)) :
    Yields (property x write) (Xml.Within tags) := by
  cases x with
  | none => exact Yields.pure Xml.within_nil
  | some a => exact h a

theorem TextPiece.within_markup (piece : TextPiece) :
    Yields piece.markup fun x => Xml.Within runTags [x] := by
  cases piece with
  | tab => exact Yields.pure (by simp +decide [Xml.leaf])
  | lineBreak => exact Yields.pure (by simp +decide [Xml.leaf])
  | plain cs => exact Yields.bind_any fun s => Yields.pure (by simp +decide)

theorem Format.within_properties (f : Format) (withLinks : Bool) :
    Yields (f.properties withLinks) (Xml.Within runTags) := by
  unfold Format.properties
  refine (within_property runTags fun name => ?_).bind fun style hstyle => ?_
  · refine Yields.bind_any fun id => Yields.pure (Xml.within_of_forall fun x hx => ?_)
    obtain ⟨v, -, rfl⟩ := List.mem_map.mp hx
    simp +decide [Xml.valued, Xml.leaf]
  refine (within_property runTags fun name => ?_).bind fun font hfont => ?_
  · exact Yields.bind_any fun name => Yields.pure (by simp +decide [Xml.leaf])
  refine (within_property runTags fun n => ?_).bind fun size hsize => ?_
  · exact Yields.bind_any fun text => Yields.pure (by simp +decide [Xml.valued, Xml.leaf])
  refine (within_property runTags fun c => ?_).bind fun color hcolor => ?_
  · exact Yields.bind_any fun text => Yields.pure (by simp +decide [Xml.valued, Xml.leaf])
  have htoggle (tag : String) (on : Bool) (htag : tag ∈ runTags) :
      Xml.Within runTags (toggle tag on) := by
    cases on <;> simp [toggle, Xml.leaf, htag]
  have hunderline : Xml.Within runTags (if f.underline then [.valued "w:u" "single"] else []) := by
    split <;> simp +decide [Xml.valued, Xml.leaf]
  have hposition : Xml.Within runTags (verticalAlignment f.flags) := by
    unfold verticalAlignment
    split
    · simp +decide [Xml.valued, Xml.leaf]
    · split <;> simp +decide [Xml.valued, Xml.leaf]
  have hbold := htoggle "w:b" f.flags.bold (by decide)
  have hitalic := htoggle "w:i" f.flags.italic (by decide)
  have hstrike := htoggle "w:strike" f.flags.strike (by decide)
  refine Yields.pure ?_
  simp [hstyle, hfont, hbold, hitalic, hstrike, hsize, hcolor, hunderline, hposition]

theorem Run.within_markup (r : Run) (withLinks : Bool) :
    Yields (r.markup withLinks) fun x => Xml.Within runTags [x] := by
  cases r with
  | lineBreak => exact Yields.pure (by simp +decide [Xml.group, Xml.leaf])
  | text v f =>
    refine (Yields.mapM fun piece _ => piece.within_markup).bind fun content hcontent => ?_
    refine (f.within_properties withLinks).bind fun properties hproperties => Yields.pure ?_
    have hrest : Xml.Within runTags content := Xml.within_of_forall (forall_mem_of_forall₂ hcontent)
    split <;> simp +decide [Xml.group, hproperties, hrest]

theorem Member.within_markup (m : Member) (withLinks : Bool) (t : Targets) :
    Leaves (m.markup withLinks) t fun xs _ => Xml.Within memberTags xs := by
  have hlink : runTags ⊆ memberTags := List.subset_cons_self _ _
  have hruns (rs : List Run) (t : Targets) :
      Leaves (rs.mapM fun r => liftM (r.markup withLinks) : Render (List Xml)) t
        fun xs _ => Xml.Within memberTags xs := by
    have hall := Leaves.mapM (fun r (_ : r ∈ rs) => Leaves.of_yields (r.within_markup withLinks)) t
    exact hall.mono fun xs _ hxs =>
      (Xml.within_of_forall (forall_mem_of_forall₂ hxs)).mono hlink
  cases m with
  | run r =>
    refine (Leaves.of_yields (r.within_markup withLinks) t).bind fun x _ hx => Leaves.pure ?_
    exact hx.mono hlink
  | link url rs =>
    rw [markup]
    split
    · exact hruns rs t
    · refine Leaves.bind_any fun id u => (hruns rs u).bind fun xs _ hxs => Leaves.pure ?_
      simp +decide [hxs]

/-! ## Paragraphs -/

/-- The tags of the properties of a paragraph, apart from those of its style and list. -/
def layoutTags : List String :=
  ["w:pBdr", "w:left", "w:bottom", "w:shd", "w:tabs", "w:tab", "w:spacing", "w:ind"]

/-- The memberships of a paragraph in lists. -/
def Paragraph.memberships (numbers : ListNumbers) (p : Paragraph) : List Xml :=
  p.numbering.toList.flatMap (listMembership numbers)

theorem within_bordersMarkup (left bottom : Option Border) :
    Yields (bordersMarkup left bottom) (Xml.Within layoutTags) := by
  have hborder (tag : String) (htag : tag ∈ layoutTags) (b : Border) :
      Yields (do return [← b.markup tag]) (Xml.Within layoutTags) := by
    have hmarkup : Yields (b.markup tag) fun x => Xml.Within layoutTags [x] :=
      Yields.bind_any fun style => Yields.bind_any fun color => Yields.pure (by simp [Xml.leaf, htag])
    exact hmarkup.bind fun x hx => Yields.pure hx
  unfold bordersMarkup
  refine (within_property layoutTags (hborder _ (by simp +decide))).bind fun xs hxs => ?_
  refine (within_property layoutTags (hborder _ (by simp +decide))).bind fun ys hys => ?_
  refine Yields.pure ?_
  split <;> simp +decide [Xml.group, hxs, hys]

theorem within_tabsMarkup (ts : List TabStop) :
    Yields (tabsMarkup ts) (Xml.Within layoutTags) := by
  have htab (t : TabStop) : Yields t.markup fun x => Xml.Within layoutTags [x] :=
    Yields.bind_any fun position => Yields.pure (by simp +decide [Xml.leaf])
  unfold tabsMarkup
  refine (Yields.mapM fun t _ => htab t).bind fun xs hxs => Yields.pure ?_
  have hall : Xml.Within layoutTags xs := Xml.within_of_forall (forall_mem_of_forall₂ hxs)
  split <;> simp +decide [Xml.group, hall]

theorem within_fillMarkup (fill : String) :
    Yields (do return [← fillMarkup fill]) (Xml.Within layoutTags) := by
  have hmarkup : Yields (fillMarkup fill) fun x => Xml.Within layoutTags [x] :=
    Yields.bind_any fun fill => Yields.pure (by simp +decide [Xml.leaf])
  exact hmarkup.bind fun x hx => Yields.pure hx

/-- The membership in a list is the only property of a paragraph with its tag. -/
theorem Paragraph.properties_memberships (p : Paragraph) (numbers : ListNumbers)
    (style : Option String) :
    Yields (p.properties numbers style) fun ps => ∃ layout,
      ps = style.toList.map (Xml.valued "w:pStyle") ++ (p.memberships numbers ++ layout) ∧
      Xml.Within layoutTags layout := by
  have hspacing : Yields (spacingMarkup p.spacingBefore p.spacingAfter) (Xml.Within layoutTags) := by
    refine Yields.bind_any fun before => Yields.bind_any fun after => Yields.pure ?_
    split <;> simp +decide [Xml.leaf]
  have hindent : Yields (indentMarkup p.indentLeft) (Xml.Within layoutTags) := by
    refine Yields.bind_any fun left => Yields.pure ?_
    split <;> simp +decide [Xml.leaf]
  rw [Paragraph.properties_eq]
  refine hspacing.bind fun spacing hspacing => hindent.bind fun indent hindent => ?_
  refine (within_tabsMarkup p.tabStops).bind fun tabs htabs => ?_
  refine (within_bordersMarkup p.borderLeft p.borderBottom).bind fun borders hborders => ?_
  refine (within_property layoutTags within_fillMarkup).bind fun shading hshading => Yields.pure ?_
  refine ⟨borders ++ shading ++ tabs ++ spacing ++ indent, ?_, ?_⟩
  · simp [memberships]
  · simp [hborders, hshading, htabs, hspacing, hindent]

/-- The membership in a list that a paragraph has as a property. -/
def Xml.membership? (x : Xml) : Option Xml :=
  (child? "w:pPr" x.children).bind fun properties => child? "w:numPr" properties.children

/-- The element of a paragraph with some memberships in lists. -/
structure Xml.IsParagraph (memberships : List Xml) (x : Xml) : Prop where
  alone : named "w:p" [x] = [x]
  all : named "w:numPr" [x] = memberships
  own : x.membership? = memberships.head?

theorem Paragraph.memberships_cases (p : Paragraph) (numbers : ListNumbers) :
    p.memberships numbers = [] ∨ ∃ r n, p.numbering = some r ∧ numbers.find? r.reference = some n ∧
      p.memberships numbers = [.group "w:numPr"
        [.valued "w:ilvl" (toString r.level), .valued "w:numId" (toString n)]] := by
  cases hnumbering : p.numbering with
  | none => exact .inl (by simp [memberships, hnumbering])
  | some r =>
    cases hfind : numbers.find? r.reference with
    | none => exact .inl (by simp [memberships, hnumbering, listMembership, hfind])
    | some n => exact .inr ⟨r, n, rfl, hfind, by simp [memberships, hnumbering, listMembership, hfind]⟩

theorem Paragraph.named_memberships (p : Paragraph) (numbers : ListNumbers) :
    Xml.named "w:p" (p.memberships numbers) = [] ∧
      Xml.named "w:numPr" (p.memberships numbers) = p.memberships numbers ∧
      Xml.child? "w:numPr" (p.memberships numbers) = (p.memberships numbers).head? := by
  rcases p.memberships_cases numbers with hnone | ⟨r, n, -, -, hsome⟩
  · simp [hnone]
  · rw [hsome]
    refine ⟨?_, ?_, ?_⟩
    · simp [Xml.named, Xml.elementsAll, Xml.elements, Xml.group, Xml.valued, Xml.leaf, Xml.tag]
    · simp [Xml.named, Xml.elementsAll, Xml.elements, Xml.group, Xml.valued, Xml.leaf, Xml.tag]
    · simp [Xml.group, Xml.tag]

theorem Paragraph.memberships_markup (p : Paragraph) (numbers : ListNumbers) (withLinks : Bool)
    (style : Option String) (t : Targets) :
    Leaves (p.markup ⟨numbers, withLinks⟩ style) t fun x _ =>
      x.IsParagraph (p.memberships numbers) := by
  have hmembers (t : Targets) :=
    Leaves.mapM (fun m (_ : m ∈ p.members) => m.within_markup withLinks) t
  refine (Leaves.of_yields (p.properties_memberships numbers style) t).bind fun ps u hps => ?_
  refine (hmembers u).bind fun parts _ hparts => Leaves.pure ?_
  obtain ⟨layout, rfl, hlayout⟩ := hps
  obtain ⟨hnone, hall, hown⟩ := p.named_memberships numbers
  have hbody : Xml.Within memberTags parts.flatten :=
    Xml.within_flatten (forall_mem_of_forall₂ hparts)
  have hstyle : Xml.Within ["w:pStyle"] (style.toList.map (Xml.valued "w:pStyle")) := by
    cases style <;> simp [Xml.valued, Xml.leaf]
  let ps := style.toList.map (Xml.valued "w:pStyle") ++ (p.memberships numbers ++ layout)
  have hparagraphs : Xml.named "w:p" ps = [] := by
    simp +decide [ps, hstyle.named_eq_nil, hlayout.named_eq_nil, hnone]
  have hmemberships : Xml.named "w:numPr" ps = p.memberships numbers := by
    simp +decide [ps, hstyle.named_eq_nil, hlayout.named_eq_nil, hall]
  have hchild : Xml.child? "w:numPr" ps = (p.memberships numbers).head? := by
    simp +decide [ps, hstyle.child?_eq_none, hlayout.child?_eq_none, hown]
  -- The element of the properties is left out where there are none, which shows no difference.
  have hhead : Xml.child? "w:pPr" parts.flatten = none := hbody.child?_eq_none (by decide) (by decide)
  let head := if ps.isEmpty then [] else [Xml.group "w:pPr" ps]
  have hnamed (tag : String) (htag : "w:pPr" ≠ tag) : Xml.named tag head = Xml.named tag ps := by
    cases hps : ps with
    | nil => simp [head, hps]
    | cons x xs => simp [head, hps, Xml.named_group, htag]
  have hproperties : ((Xml.child? "w:pPr" head).bind fun x => Xml.child? "w:numPr" x.children) =
      Xml.child? "w:numPr" ps := by
    cases hps : ps with
    | nil => simp [head, hps]
    | cons x xs => simp [head, hps, Xml.group, Xml.tag, Xml.children]
  change Xml.IsParagraph _ (.group "w:p" (head ++ parts.flatten))
  refine ⟨?_, ?_, ?_⟩
  · simp +decide [Xml.named_group, hnamed, hparagraphs, hbody.named_eq_nil]
  · simp +decide [Xml.named_group, hnamed, hmemberships, hbody.named_eq_nil]
  · rw [← hchild, ← hproperties]
    simp [Xml.membership?, Xml.group, Xml.children, hhead]

/-! ## Blocks -/

/-- The memberships of the paragraphs of a block in lists. -/
def Block.memberships (numbers : ListNumbers) (b : Block) : List Xml :=
  b.paragraphs.flatMap (Paragraph.memberships numbers)

/-- The tags of the properties of a cell. -/
def cellTags : List String := "w:tcPr" :: "w:tcW" :: layoutTags

theorem within_cellProperties {shade : List Xml} (h : Xml.Within layoutTags shade)
    (width : String) : Xml.Within cellTags
      [.group "w:tcPr" (.leaf "w:tcW" [("w:type", "dxa"), ("w:w", width)] :: shade)] := by
  have hshade : Xml.Within cellTags shade :=
    h.mono fun x hx => List.mem_cons_of_mem _ (List.mem_cons_of_mem _ hx)
  simp +decide [Xml.group, Xml.leaf, hshade]

/-- What is looked for in a cell is found in its paragraphs. -/
theorem named_cellMarkup {tag : String} {shade : List Xml} (h : Xml.Within layoutTags shade)
    (htag : tag ∉ "w:tc" :: "w:p" :: cellTags) (width : String) (paragraphs : List Xml) :
    Xml.named tag [cellMarkup width shade paragraphs] = Xml.named tag paragraphs := by
  obtain ⟨hcell, hparagraph, hproperties⟩ : "w:tc" ≠ tag ∧ "w:p" ≠ tag ∧ tag ∉ cellTags := by
    simpa [eq_comm] using htag
  rw [cellMarkup, Xml.named_group, if_neg hcell, Xml.named_cons,
    (within_cellProperties h width).named_eq_nil hproperties]
  cases paragraphs <;> simp [Xml.named_group, hparagraph]

theorem Cell.memberships_markup (c : Cell) (numbers : ListNumbers) (withLinks : Bool)
    (width : String) (t : Targets) :
    Leaves (c.markup ⟨numbers, withLinks⟩ width) t fun x _ =>
      Xml.named "w:numPr" [x] = c.paragraphs.flatMap (Paragraph.memberships numbers) := by
  have hparagraphs := Leaves.mapM (fun p (_ : p ∈ c.paragraphs) =>
    p.memberships_markup numbers withLinks none) t
  have hfill : Yields (property (given? c.shading) fun fill => do return [← fillMarkup fill])
      (Xml.Within layoutTags) := within_property layoutTags within_fillMarkup
  refine hparagraphs.bind fun xs u hxs => (Leaves.of_yields hfill u).bind fun shade _ hshade => ?_
  refine Leaves.pure ?_
  rw [named_cellMarkup hshade (by decide)]
  exact Xml.named_of_forall₂ (hxs.imp fun p x hx => hx.all)

theorem Row.memberships_markup (r : Row) (numbers : ListNumbers) (withLinks : Bool)
    (columns : Nat) (t : Targets) :
    Leaves (r.markup ⟨numbers, withLinks⟩ columns) t fun x _ => Xml.named "w:numPr" [x] =
      r.cells.flatMap fun c => c.paragraphs.flatMap (Paragraph.memberships numbers) := by
  have hcells := Leaves.mapM (fun c (_ : c ∈ r.cells) =>
    c.memberships_markup numbers withLinks (columnWidth columns)) t
  refine hcells.bind fun xs _ hxs => Leaves.pure ?_
  have hempty : Xml.named "w:numPr" [cellMarkup (columnWidth columns) [] []] = [] := by
    rw [named_cellMarkup Xml.within_nil (by decide), Xml.named_nil]
  have hfilled := Xml.named_replicate (columns - xs.length) hempty
  simp [Xml.named_group, Xml.named_of_forall₂ hxs, hfilled]

/-- The tags of what stands in a table before its rows. -/
def tableTags : List String :=
  ["w:tblPr", "w:tblStyle", "w:tblW", "w:tblLook", "w:tblGrid", "w:gridCol"]

theorem within_tableHead (widthPercent : Int) (columns : Nat) (width : String) :
    Xml.Within tableTags [tableProperties widthPercent,
      .group "w:tblGrid" (List.replicate columns (.leaf "w:gridCol" [("w:w", width)]))] := by
  have hgrid : Xml.Within tableTags
      (List.replicate columns (.element "w:gridCol" [("w:w", width)] [])) :=
    Xml.within_of_forall fun x hx => by
      rw [List.eq_of_mem_replicate hx]
      simp +decide
  simp +decide [tableProperties, Xml.group, Xml.valued, Xml.leaf, hgrid]

/-- What is looked for in a table is found in its rows. -/
theorem named_tableRows {tag : String} (htag : tag ∉ tableTags) (widthPercent : Int)
    (columns : Nat) (width : String) (rows : List Xml) :
    Xml.named tag (tableProperties widthPercent ::
      .group "w:tblGrid" (List.replicate columns (.leaf "w:gridCol" [("w:w", width)])) :: rows) =
      Xml.named tag rows := by
  have hhead := (within_tableHead widthPercent columns width).named_eq_nil htag
  generalize tableProperties widthPercent = properties, Xml.group "w:tblGrid" _ = grid at hhead ⊢
  calc Xml.named tag (properties :: grid :: rows)
    _ = Xml.named tag [properties, grid] ++ Xml.named tag rows :=
      Xml.named_append [properties, grid] rows
    _ = Xml.named tag rows := by rw [hhead, List.nil_append]

theorem Table.memberships_markup (t : Table) (numbers : ListNumbers) (withLinks : Bool)
    (u : Targets) :
    Leaves (t.markup ⟨numbers, withLinks⟩) u fun xs _ =>
      Xml.named "w:numPr" xs = (Block.table t).memberships numbers := by
  have hrows := Leaves.mapM (fun r (_ : r ∈ t.rows) =>
    r.memberships_markup numbers withLinks t.columnCount) u
  unfold Table.markup
  dsimp only
  by_cases hcount : t.columnCount = 0
  · rw [if_pos hcount]
    have hnone : (Block.table t).paragraphs = [] :=
      List.flatMap_eq_nil_iff.mpr fun r hr => by rw [cells_eq_nil hcount hr]; rfl
    exact Leaves.pure (by simp [Block.memberships, hnone])
  · rw [if_neg hcount]
    refine hrows.bind fun xs _ hxs => Leaves.pure ?_
    rw [Xml.named_group, named_tableRows (by decide), Xml.named_of_forall₂ hxs]
    simp [Block.memberships, Block.paragraphs, List.flatMap_assoc]

/-- The memberships of the paragraphs of a block are found in its elements. A paragraph has one
element, which has its membership. -/
theorem Block.memberships_markup (b : Block) (numbers : ListNumbers) (withLinks : Bool)
    (t : Targets) :
    Leaves (b.markup ⟨numbers, withLinks⟩) t fun xs _ =>
      Xml.named "w:numPr" xs = b.memberships numbers ∧
      ∀ p, b = .paragraph p → ∃ x, xs = [x] ∧ x.IsParagraph (p.memberships numbers) := by
  cases b with
  | paragraph p =>
    refine Leaves.bind_any fun style u => ?_
    refine (p.memberships_markup numbers withLinks style u).bind fun x _ hx => Leaves.pure ?_
    refine ⟨by simpa [Block.memberships, Block.paragraphs] using hx.all, ?_⟩
    rintro q hq
    cases hq
    exact ⟨x, rfl, hx⟩
  | table u =>
    refine (u.memberships_markup numbers withLinks t).mono fun xs _ hxs => ⟨hxs, ?_⟩
    rintro p hp
    cases hp
  | foreign kind =>
    refine Leaves.pure ⟨by simp [Block.memberships, Block.paragraphs], ?_⟩
    rintro p hp
    cases hp

end MarkdownWord.Word
