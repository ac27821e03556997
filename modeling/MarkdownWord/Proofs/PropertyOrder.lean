import MarkdownWord.Proofs.Elements
import MarkdownWord.Proofs.Rendered

/-!
# The order of the properties of a paragraph

The schema wants the properties of a paragraph in one order, whichever of them there are. A block
that is added to a document file has those that its paragraph asks for and no others, in that order,
and its tab stops by their positions (`Package.hasProperties_of_addBlock`).
-/

namespace MarkdownWord.Word

/-! ## Tab stops -/

/-- Tab stops that are put in order: by position, and as they were given where positions are the
same. -/
structure TabStop.Sorts (given sorted : List TabStop) : Prop where
  inOrder : sorted.Pairwise (·.position ≤ ·.position)
  stable : ∀ n, sorted.filter (·.position == n) = given.filter (·.position == n)

theorem pairwise_insertTab (t : TabStop) {ts : List TabStop}
    (h : ts.Pairwise (·.position ≤ ·.position)) :
    (insertTab t ts).Pairwise (·.position ≤ ·.position) := by
  induction ts with
  | nil => exact List.pairwise_singleton _ _
  | cons u ts ih =>
    obtain ⟨hu, hts⟩ := List.pairwise_cons.mp h
    rw [insertTab]
    split
    · next hlt =>
      refine List.pairwise_cons.mpr ⟨List.forall_mem_cons.mpr ⟨hlt.le, fun v hv => ?_⟩, h⟩
      exact hlt.le.trans (hu v hv)
    · next hle =>
      refine List.pairwise_cons.mpr ⟨fun v hv => ?_, ih hts⟩
      rcases mem_insertTab hv with rfl | hv
      · exact not_lt.mp hle
      · exact hu v hv

theorem filter_insertTab (t : TabStop) {ts : List TabStop}
    (h : ts.Pairwise (·.position ≤ ·.position)) (n : Int) :
    (insertTab t ts).filter (·.position == n) =
      ts.filter (·.position == n) ++ [t].filter (·.position == n) := by
  induction ts with
  | nil => rfl
  | cons u ts ih =>
    obtain ⟨hu, hts⟩ := List.pairwise_cons.mp h
    rw [insertTab]
    split
    · next hlt =>
      by_cases ht : t.position = n
      · -- Whatever comes after the new one is further out.
        have hnone : (u :: ts).filter (·.position == n) = [] := by
          refine List.filter_eq_nil_iff.mpr fun v hv heq => ?_
          have hfar : t.position < v.position := by
            rcases List.mem_cons.mp hv with rfl | hv
            · exact hlt
            · exact hlt.trans_le (hu v hv)
          exact absurd (ht.trans (beq_iff_eq.mp heq).symm) hfar.ne
        rw [List.filter_cons, hnone, List.nil_append]
        simp [ht]
      · simp [List.filter_cons, ht]
    · cases hu : u.position == n <;> simp [hu, ih hts]

theorem sorts_sortTabs (ts : List TabStop) : TabStop.Sorts ts (sortTabs ts) := by
  have hfold (ts before sorted : List TabStop) (h : TabStop.Sorts before sorted) :
      TabStop.Sorts (before ++ ts) (ts.foldl (fun sorted t => insertTab t sorted) sorted) := by
    induction ts generalizing before sorted with
    | nil => simpa using h
    | cons t ts ih =>
      have hone : TabStop.Sorts (before ++ [t]) (insertTab t sorted) :=
        ⟨pairwise_insertTab t h.inOrder, fun n => by
          rw [filter_insertTab t h.inOrder, h.stable, List.filter_append]⟩
      simpa using ih _ _ hone
  exact hfold ts [] [] ⟨.nil, fun _ => rfl⟩

/-! ## The properties of a paragraph -/

/-- Some properties are those that a paragraph asks for, in the order of the schema, where `numbers`
are the numbers of the list schemes. -/
structure Paragraph.HasProperties (numbers : ListNumbers) (p : Paragraph) (ps : List Xml) :
    Prop where
  inOrder : (ps.map Xml.tag).Sublist
    ["w:pStyle", "w:numPr", "w:pBdr", "w:shd", "w:tabs", "w:spacing", "w:ind"]
  style : "w:pStyle" ∈ ps.map Xml.tag ↔ ∃ n ∈ p.headingLevel, n ≠ 0
  membership : "w:numPr" ∈ ps.map Xml.tag ↔ ∃ r ∈ p.numbering, (numbers.find? r.reference).isSome
  borders : "w:pBdr" ∈ ps.map Xml.tag ↔ p.borderLeft.isSome ∨ p.borderBottom.isSome
  /-- The left edge comes before the bottom edge. -/
  edges : ∀ x ∈ ps, x.tag = "w:pBdr" → x.children.map Xml.tag =
    (if p.borderLeft.isSome then ["w:left"] else []) ++
      if p.borderBottom.isSome then ["w:bottom"] else []
  shading : "w:shd" ∈ ps.map Xml.tag ↔ ∃ fill ∈ p.shading, fill ≠ ""
  tabs : "w:tabs" ∈ ps.map Xml.tag ↔ p.tabStops ≠ []
  stops : ∀ x ∈ ps, x.tag = "w:tabs" →
    ∃ sorted, TabStop.Sorts p.tabStops sorted ∧ x.children = sorted.map TabStop.element
  spacing : "w:spacing" ∈ ps.map Xml.tag ↔ p.spacingBefore.isSome ∨ p.spacingAfter.isSome
  indent : "w:ind" ∈ ps.map Xml.tag ↔ p.indentLeft.isSome

theorem Paragraph.isSome_style? (p : Paragraph) :
    Yields p.style? fun style => style.isSome = p.isHeading := by
  unfold style? isHeading
  cases p.headingLevel with
  | none => exact Yields.pure rfl
  | some n =>
    dsimp only
    split
    · next hn => exact Yields.pure (by simp [hn])
    · next hn =>
      have hid : Yields (headingStyle? n) fun _ => True := fun _ _ => trivial
      rw [map_eq_pure_bind]
      exact hid.bind fun id _ => Yields.pure (by simp [hn])

theorem Paragraph.hasProperties_properties {p : Paragraph} {style : Option String}
    (hstyle : style.isSome = p.isHeading) (numbers : ListNumbers) :
    Yields (p.properties numbers style) (p.HasProperties numbers) := by
  rw [properties_eq]
  refine (caused_spacingMarkup _ _).bind fun spacing hspacing => ?_
  refine (caused_indentMarkup _).bind fun indent hindent => ?_
  refine (tabsMarkup_yields _).bind fun tabs htabs => ?_
  refine (bordersMarkup_yields _ _).bind fun borders hborders => ?_
  refine (caused_shading _).bind fun shading hshading => Yields.pure ?_
  obtain ⟨htabs, hstops⟩ := htabs
  obtain ⟨hborders, hedges⟩ := hborders
  have hstart := caused_style style
  have hnumbering := caused_memberships numbers p.numbering
  generalize style.toList.map (Xml.valued "w:pStyle") = start at *
  generalize p.numbering.toList.flatMap (listMembership numbers) = membership at *
  have hall := sublist_inOrder hstart hspacing hindent htabs hnumbering hborders hshading
  have htags := mem_tags_inOrder hstart hspacing hindent htabs hnumbering hborders hshading
  have hfilter := filter_inOrder hstart hspacing hindent htabs hnumbering hborders hshading
  generalize start ++ membership ++ borders ++ shading ++ tabs ++ spacing ++ indent = ps at *
  have hmem {x : Xml} {name : String} (hx : x ∈ ps) (htag : x.tag = name) :
      x ∈ ps.filter (·.tag == name) := List.mem_filter.mpr ⟨hx, beq_iff_eq.mpr htag⟩
  refine ⟨hall, ?_, ?_, ?_, fun x hx htag => ?_, ?_, ?_, fun x hx htag => ?_, ?_, ?_⟩
  · simp [htags, hstyle, isHeading, Option.any_eq_true]
  · simp [htags, Option.any_eq_true]
  · simp [htags]
  · have hin := hmem hx htag
    rw [hfilter] at hin
    exact hedges x (by simpa using hin)
  · cases hfill : p.shading <;> simp [htags, given?, hfill, Option.filter]
  · simp [htags]
  · have hin := hmem hx htag
    rw [hfilter] at hin
    exact ⟨sortTabs p.tabStops, sorts_sortTabs _, hstops x (by simpa using hin)⟩
  · simp [htags]
  · simp [htags]

/-! ## Blocks of the body -/

theorem Xml.Within.tag_ne {tags : List String} {tag : String} {xs : List Xml} (h : Within tags xs)
    (htag : tag ∉ tags) (hne : tag ≠ "") : ∀ x ∈ xs, x.tag ≠ tag := by
  have hnone := List.find?_eq_none.mp (h.child?_eq_none htag hne)
  exact fun x hx heq => hnone x hx (beq_iff_eq.mpr heq)

/-- The element of a paragraph has one element for the properties that the paragraph asks for,
before all others, and none where the paragraph asks for none. -/
def Xml.IsLaidOut (numbers : ListNumbers) (p : Paragraph) (x : Xml) : Prop :=
  ∃ ps members, x = .group "w:p" ((if ps.isEmpty then [] else [.group "w:pPr" ps]) ++ members) ∧
    (∀ x ∈ members, x.tag ≠ "w:pPr") ∧ p.HasProperties numbers ps

theorem Paragraph.isLaidOut_markup {p : Paragraph} {style : Option String}
    (hstyle : style.isSome = p.isHeading) (numbers : ListNumbers) (withLinks : Bool)
    (t : Targets) :
    Leaves (p.markup ⟨numbers, withLinks⟩ style) t fun x _ => x.IsLaidOut numbers p := by
  have hproperties := hasProperties_properties hstyle numbers
  have hmembers (u : Targets) :=
    Leaves.mapM (fun m (_ : m ∈ p.members) => m.within_markup withLinks) u
  refine (Leaves.of_yields hproperties t).bind fun ps u hps => ?_
  refine (hmembers u).bind fun parts v hparts => Leaves.pure ⟨ps, parts.flatten, rfl, ?_, hps⟩
  exact (Xml.within_flatten (forall_mem_of_forall₂ hparts)).tag_ne (by decide) (by decide)

/-- A paragraph that is added to a document file as a block becomes one element with the properties
that the paragraph asks for, in the order of the schema. -/
theorem Package.hasProperties_of_addBlock {numbers : ListNumbers} {p : Paragraph}
    {file after : Package} (h : (addBlock numbers (.paragraph p)).run.run file = (.ok (), after)) :
    ∃ x, after.body = file.body ++ [x] ∧ x.IsLaidOut numbers p := by
  have hmarkup : Leaves ((Block.paragraph p).markup ⟨numbers, file.withLinks⟩) file.targets
      fun xs _ => ∃ x, xs = [x] ∧ x.IsLaidOut numbers p := by
    refine (Leaves.of_yields p.isSome_style? _).bind fun style t hstyle => ?_
    refine (Paragraph.isLaidOut_markup hstyle numbers _ t).bind fun x u hx => Leaves.pure ?_
    exact ⟨x, rfl, hx⟩
  have hadded : Leaves (addBlock numbers (.paragraph p)) file fun _ after =>
      ∃ x, after.body = file.body ++ [x] ∧ x.IsLaidOut numbers p := by
    refine addBlock_leaves (hmarkup.mono fun xs t hxs => ?_)
    obtain ⟨x, rfl, hx⟩ := hxs
    exact ⟨x, rfl, hx⟩
  have hrun := hadded () (by rw [h])
  rwa [h] at hrun

/-- Every kind of property at once, written out of order, with two tab stops at one position. -/
theorem Package.hasProperties_of_addBlock_full :
    let p : Paragraph :=
      { headingLevel := some 2, numbering := some ⟨"ordered-list", 3⟩, indentLeft := some 720,
        borderLeft := some {}, borderBottom := some {}, shading := some "F4F4F4",
        spacingBefore := some 0, spacingAfter := some 160,
        tabStops := [⟨900, .right⟩, ⟨300, .left⟩, ⟨900, .center⟩] }
    ∃ after x, (addBlock .standard (.paragraph p)).run.run {} = (.ok (), after) ∧
      after.body = [x] ∧ x.IsLaidOut .standard p := by
  intro p
  have hrun : ∃ after, (addBlock .standard (.paragraph p)).run.run {} = (.ok (), after) := ⟨_, rfl⟩
  obtain ⟨after, hafter⟩ := hrun
  obtain ⟨x, hbody, hx⟩ := hasProperties_of_addBlock hafter
  exact ⟨after, x, hafter, hbody, hx⟩

end MarkdownWord.Word
