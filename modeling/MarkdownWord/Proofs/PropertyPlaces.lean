import Mathlib.Data.List.Nodup
import MarkdownWord.Proofs.Results
import MarkdownWord.Word.Markup.Paragraph

/-!
# Places of properties

Properties are written in an order of their own, each before the first of those that come after it.
An element put among others that are in the order of the schema stands where the schema has it
(`Xml.putBeforeAny_append`), and so all properties of a paragraph come to stand in that order
(`Paragraph.properties_eq`).
-/

namespace MarkdownWord.Word

namespace Xml

variable {tags : List String} {xs ys : List Xml}

/-- An element is put before those that come after it, if they are in order among themselves. -/
theorem putBeforeAny_append (x : Xml) (hnodup : tags.Nodup) (hxs : ∀ y ∈ xs, y.tag ∉ tags)
    (hys : (ys.map Xml.tag).Sublist tags) : putBeforeAny tags x (xs ++ ys) = xs ++ x :: ys := by
  cases ys with
  | nil =>
    have hnone : tags.find? (fun tag => (xs ++ []).any (·.tag == tag)) = none := by
      refine List.find?_eq_none.mpr fun tag htag hany => ?_
      obtain ⟨y, hy, heq⟩ := List.any_eq_true.mp hany
      refine hxs y (by simpa using hy) ?_
      rwa [beq_iff_eq.mp heq]
    rw [putBeforeAny, hnone, List.append_nil]
  | cons y ys =>
    obtain ⟨upTo, beyond, rfl, hmem, hrest⟩ := List.cons_sublist_iff.mp hys
    obtain ⟨before, between, rfl⟩ := List.append_of_mem hmem
    have hfirst : (before ++ y.tag :: between ++ beyond).find?
        (fun tag => (xs ++ y :: ys).any (·.tag == tag)) = some y.tag := by
      -- No tag before that of `y` is there: not in front, and the tags behind come later.
      refine List.find?_eq_some_iff_append.mpr
        ⟨by simp, before, between ++ beyond, by simp, fun tag htag => ?_⟩
      have hfront : ∀ z ∈ xs, z.tag ≠ tag := by
        rintro z hz rfl
        exact hxs z hz (by simp [htag])
      have hbehind : ∀ z ∈ ys, z.tag ≠ tag := by
        rintro z hz rfl
        have hlater : z.tag ∈ beyond := hrest.subset (List.mem_map_of_mem hz)
        rw [List.append_assoc] at hnodup
        exact List.disjoint_of_nodup_append hnodup htag (by simp [hlater])
      have hhere : y.tag ≠ tag := by
        rintro rfl
        rw [List.append_assoc] at hnodup
        exact List.disjoint_of_nodup_append hnodup htag (by simp)
      simpa [hhere] using ⟨hfront, hbehind⟩
    have hpass : ∀ z ∈ xs, (z.tag != y.tag) = true := fun z hz =>
      bne_iff_ne.mpr fun heq => hxs z hz (by simp [heq])
    rw [putBeforeAny, hfirst]
    simp [List.takeWhile_append_of_pos hpass, List.dropWhile_append_of_pos hpass]

theorem putAllBefore_append {new : List Xml} (hnodup : tags.Nodup)
    (hnew : ∀ x ∈ new, x.tag ∉ tags) (hxs : ∀ y ∈ xs, y.tag ∉ tags)
    (hys : (ys.map Xml.tag).Sublist tags) :
    putAllBefore tags new (xs ++ ys) = xs ++ (new ++ ys) := by
  induction new generalizing xs with
  | nil => rfl
  | cons x new ih =>
    obtain ⟨hx, hnew⟩ := List.forall_mem_cons.mp hnew
    have hone : ∀ y ∈ xs ++ [x], y.tag ∉ tags :=
      List.forall_mem_append.mpr ⟨hxs, List.forall_mem_singleton.mpr hx⟩
    have hrest := ih hnew hone
    rw [putAllBefore, List.foldl_cons, putBeforeAny_append x hnodup hxs hys]
    simpa [putAllBefore] using hrest

/-- Elements after which nothing has to come are put at the end. -/
theorem putAllBefore_end {new : List Xml} (hnodup : tags.Nodup)
    (hnew : ∀ x ∈ new, x.tag ∉ tags) (hxs : ∀ y ∈ xs, y.tag ∉ tags) :
    putAllBefore tags new xs = xs ++ new := by
  have hnone : (([] : List Xml).map Xml.tag).Sublist tags := List.nil_sublist tags
  simpa using putAllBefore_append hnodup hnew hxs hnone

/-- There is one element, which has a tag, if there is a cause for it, and none otherwise. -/
def Caused (tag : String) (cause : Bool) (xs : List Xml) : Prop :=
  xs.map Xml.tag = if cause then [tag] else []

namespace Caused

variable {tag : String} {cause : Bool}

theorem mem_tags_iff (h : Caused tag cause xs) (name : String) :
    name ∈ xs.map Xml.tag ↔ name = tag ∧ cause = true := by
  rw [h]
  cases cause <;> simp

theorem tag_eq (h : Caused tag cause xs) : ∀ x ∈ xs, x.tag = tag := fun _ hx =>
  ((h.mem_tags_iff _).mp (List.mem_map_of_mem hx)).1

theorem tag_notMem (h : Caused tag cause xs) (htag : tag ∉ tags) : ∀ x ∈ xs, x.tag ∉ tags := by
  intro x hx
  rwa [h.tag_eq x hx]

theorem filter_tag (h : Caused tag cause xs) (name : String) :
    xs.filter (·.tag == name) = if tag = name then xs else [] := by
  split
  · next heq => exact List.filter_eq_self.mpr fun x hx => beq_iff_eq.mpr (heq ▸ h.tag_eq x hx)
  · next hne =>
    refine List.filter_eq_nil_iff.mpr fun x hx htag => hne ?_
    rw [← h.tag_eq x hx, beq_iff_eq.mp htag]

theorem sublist (h : Caused tag cause xs) : (xs.map Xml.tag).Sublist [tag] := by
  rw [h]
  cases cause with
  | false => exact List.nil_sublist _
  | true => exact List.Sublist.refl _

theorem append {after : List String} (h : Caused tag cause xs)
    (hys : (ys.map Xml.tag).Sublist after) :
    ((xs ++ ys).map Xml.tag).Sublist (tag :: after) := by
  rw [List.map_append]
  exact h.sublist.append hys

end Caused
end Xml

/-! ## The properties one by one -/

theorem caused_style (style : Option String) :
    Xml.Caused "w:pStyle" style.isSome (style.toList.map (Xml.valued "w:pStyle")) := by
  cases style <;> rfl

theorem isEmpty_lengthAttribute {name : String} {twips : Option Int}
    {write : Int → Except RenderError String} :
    Yields (lengthAttribute name twips write) fun as => as.isEmpty = twips.isNone := by
  cases twips with
  | none => exact Yields.pure rfl
  | some n => exact Yields.bind_any fun _ => Yields.pure rfl

theorem caused_spacingMarkup (before after : Option Int) :
    Yields (spacingMarkup before after)
      (Xml.Caused "w:spacing" (before.isSome || after.isSome)) := by
  refine isEmpty_lengthAttribute.bind fun first hfirst => ?_
  refine isEmpty_lengthAttribute.bind fun second hsecond => Yields.pure ?_
  have hboth : (first ++ second).isEmpty = (before.isNone && after.isNone) := by
    rw [← hfirst, ← hsecond]
    cases first <;> rfl
  rw [hboth]
  cases before <;> cases after <;> rfl

theorem caused_indentMarkup (left : Option Int) :
    Yields (indentMarkup left) (Xml.Caused "w:ind" left.isSome) := by
  refine isEmpty_lengthAttribute.bind fun as has => Yields.pure ?_
  rw [has]
  cases left <;> rfl

/-- The element of a tab stop. -/
def TabStop.element (t : TabStop) : Xml :=
  .leaf "w:tab" [("w:val", alignmentWord t.alignment), ("w:pos", toString t.position)]

theorem TabStop.markup_eq (t : TabStop) : Yields t.markup fun x => x = t.element := by
  have hposition : Yields (positionText t.position) fun text => text = toString t.position := by
    unfold positionText
    dsimp only
    split
    · exact Yields.pure rfl
    · exact Yields.error _
  refine hposition.bind fun text htext => Yields.pure ?_
  rw [htext]
  rfl

theorem isEmpty_sortTabs (ts : List TabStop) : (sortTabs ts).isEmpty = ts.isEmpty := by
  have hinsert (t : TabStop) (us : List TabStop) : (insertTab t us).isEmpty = false := by
    cases us with
    | nil => rfl
    | cons u us =>
      rw [insertTab]
      split <;> rfl
  have hfold (ts us : List TabStop) :
      (ts.foldl (fun sorted t => insertTab t sorted) us).isEmpty = (ts.isEmpty && us.isEmpty) := by
    induction ts generalizing us with
    | nil => rfl
    | cons t ts ih => simp [ih, hinsert]
  simpa [sortTabs] using hfold ts []

/-- The tab stops are written in the order of their positions. -/
theorem tabsMarkup_yields (ts : List TabStop) :
    Yields (tabsMarkup ts) fun xs => Xml.Caused "w:tabs" (!ts.isEmpty) xs ∧
      ∀ x ∈ xs, x.children = (sortTabs ts).map TabStop.element := by
  refine (Yields.mapM fun t _ => t.markup_eq).bind fun stops hstops => Yields.pure ?_
  have hall : stops = (sortTabs ts).map TabStop.element := by
    rw [← List.forall₂_eq_eq_eq, List.forall₂_map_right_iff]
    exact hstops.flip
  rw [← isEmpty_sortTabs, hall, List.isEmpty_map]
  cases (sortTabs ts).isEmpty with
  | true => exact ⟨rfl, List.forall_mem_nil _⟩
  | false => exact ⟨rfl, List.forall_mem_singleton.mpr rfl⟩

/-- A property that is written as one element with a tag. -/
theorem caused_property {α : Type} {tag : String} {x : Option α}
    {write : α → Except RenderError Xml} (h : ∀ a, Yields (write a) fun y => y.tag = tag) :
    Yields (property x fun a => do return [← write a]) (Xml.Caused tag x.isSome) := by
  cases x with
  | none => exact Yields.pure rfl
  | some a => exact (h a).bind fun y hy => Yields.pure (by simp [Xml.Caused, hy])

/-- The left edge of a border is written before its bottom edge. -/
theorem bordersMarkup_yields (left bottom : Option Border) :
    Yields (bordersMarkup left bottom) fun xs =>
      Xml.Caused "w:pBdr" (left.isSome || bottom.isSome) xs ∧
      ∀ x ∈ xs, x.children.map Xml.tag = (if left.isSome then ["w:left"] else []) ++
        if bottom.isSome then ["w:bottom"] else [] := by
  have hedge (tag : String) (b : Border) : Yields (b.markup tag) fun x => x.tag = tag :=
    Yields.bind_any fun _ => Yields.bind_any fun _ => Yields.pure rfl
  refine (caused_property (hedge "w:left")).bind fun first hfirst => ?_
  refine (caused_property (hedge "w:bottom")).bind fun second hsecond => Yields.pure ?_
  have htags : (first ++ second).map Xml.tag = (if left.isSome then ["w:left"] else []) ++
      if bottom.isSome then ["w:bottom"] else [] := by
    rw [List.map_append, hfirst, hsecond]
  have hempty : (first ++ second).isEmpty = !(left.isSome || bottom.isSome) := by
    rw [← List.isEmpty_map (f := Xml.tag), htags]
    cases left <;> cases bottom <;> rfl
  rw [hempty]
  cases left.isSome || bottom.isSome with
  | false => exact ⟨rfl, List.forall_mem_nil _⟩
  | true => exact ⟨rfl, List.forall_mem_singleton.mpr htags⟩

theorem caused_shading (fill : Option String) :
    Yields (property (given? fill) fun fill => do return [← fillMarkup fill])
      (Xml.Caused "w:shd" (given? fill).isSome) :=
  caused_property fun _ => Yields.bind_any fun _ => Yields.pure rfl

theorem caused_memberships (numbers : ListNumbers) (r : Option ListReference) :
    Xml.Caused "w:numPr" (r.any fun r => (numbers.find? r.reference).isSome)
      (r.toList.flatMap (listMembership numbers)) := by
  cases r with
  | none => rfl
  | some r =>
    rw [Option.toList_some, List.flatMap_singleton, listMembership]
    cases hfind : numbers.find? r.reference <;> simp [Xml.Caused, hfind, Xml.group, Xml.tag]

/-! ## All properties -/

section Order

variable {style spacing indent tabs numbering borders shading : List Xml}
  {a b c d e f g : Bool} (hstyle : Xml.Caused "w:pStyle" a style)
  (hspacing : Xml.Caused "w:spacing" b spacing) (hindent : Xml.Caused "w:ind" c indent)
  (htabs : Xml.Caused "w:tabs" d tabs) (hnumbering : Xml.Caused "w:numPr" e numbering)
  (hborders : Xml.Caused "w:pBdr" f borders) (hshading : Xml.Caused "w:shd" g shading)
include hstyle hspacing hindent htabs hnumbering hborders hshading

/-- Properties that are written one after another come to stand in the order of the schema. -/
theorem putAllBefore_inOrder :
    (style |> Xml.putAllBefore (afterTag "w:spacing") spacing
      |> Xml.putAllBefore (afterTag "w:ind") indent
      |> Xml.putAllBefore (afterTag "w:tabs") tabs
      |> Xml.putAllBefore afterMembership numbering
      |> Xml.putAllBefore afterBorders borders
      |> Xml.putAllBefore afterShading shading) =
    style ++ numbering ++ borders ++ shading ++ tabs ++ spacing ++ indent := by
  have hspaces : ((spacing ++ indent).map Xml.tag).Sublist ["w:spacing", "w:ind"] :=
    hspacing.append hindent.sublist
  have htail : ((tabs ++ (spacing ++ indent)).map Xml.tag).Sublist
      ["w:tabs", "w:spacing", "w:ind"] := htabs.append hspaces
  -- Each time what stands there is cut where the next property belongs.
  have hfirst : Xml.putAllBefore (afterTag "w:spacing") spacing style = style ++ spacing :=
    Xml.putAllBefore_end (by decide) (hspacing.tag_notMem (by decide))
      (hstyle.tag_notMem (by decide))
  have hsecond : Xml.putAllBefore (afterTag "w:ind") indent (style ++ spacing) =
      style ++ (spacing ++ indent) := by
    have hfront : ∀ x ∈ style ++ spacing, x.tag ∉ afterTag "w:ind" := List.forall_mem_append.mpr
      ⟨hstyle.tag_notMem (by decide), hspacing.tag_notMem (by decide)⟩
    rw [← List.append_assoc]
    exact Xml.putAllBefore_end (by decide) (hindent.tag_notMem (by decide)) hfront
  have hthird : Xml.putAllBefore (afterTag "w:tabs") tabs (style ++ (spacing ++ indent)) =
      style ++ (tabs ++ (spacing ++ indent)) :=
    Xml.putAllBefore_append (by decide) (htabs.tag_notMem (by decide))
      (hstyle.tag_notMem (by decide)) (hspaces.trans (by decide))
  have hfourth : Xml.putAllBefore afterMembership numbering
      (style ++ (tabs ++ (spacing ++ indent))) =
      style ++ numbering ++ (tabs ++ (spacing ++ indent)) := by
    rw [List.append_assoc style numbering]
    exact Xml.putAllBefore_append (by decide) (hnumbering.tag_notMem (by decide))
      (hstyle.tag_notMem (by decide)) (htail.trans (by decide))
  have hfifth : Xml.putAllBefore afterBorders borders
      (style ++ numbering ++ (tabs ++ (spacing ++ indent))) =
      style ++ numbering ++ borders ++ (tabs ++ (spacing ++ indent)) := by
    have hfront : ∀ x ∈ style ++ numbering, x.tag ∉ afterBorders := List.forall_mem_append.mpr
      ⟨hstyle.tag_notMem (by decide), hnumbering.tag_notMem (by decide)⟩
    rw [List.append_assoc (style ++ numbering) borders]
    exact Xml.putAllBefore_append (by decide) (hborders.tag_notMem (by decide)) hfront
      (htail.trans (by decide))
  have hsixth : Xml.putAllBefore afterShading shading
      (style ++ numbering ++ borders ++ (tabs ++ (spacing ++ indent))) =
      style ++ numbering ++ borders ++ (shading ++ (tabs ++ (spacing ++ indent))) := by
    have hfront : ∀ x ∈ style ++ numbering ++ borders, x.tag ∉ afterShading :=
      List.forall_mem_append.mpr ⟨List.forall_mem_append.mpr
        ⟨hstyle.tag_notMem (by decide), hnumbering.tag_notMem (by decide)⟩,
        hborders.tag_notMem (by decide)⟩
    exact Xml.putAllBefore_append (by decide) (hshading.tag_notMem (by decide)) hfront
      (htail.trans (by decide))
  rw [hfirst, hsecond, hthird, hfourth, hfifth, hsixth]
  simp only [List.append_assoc]

theorem sublist_inOrder :
    ((style ++ numbering ++ borders ++ shading ++ tabs ++ spacing ++ indent).map Xml.tag).Sublist
      ["w:pStyle", "w:numPr", "w:pBdr", "w:shd", "w:tabs", "w:spacing", "w:ind"] := by
  have htail := htabs.append (hspacing.append hindent.sublist)
  have hall := hstyle.append (hnumbering.append (hborders.append (hshading.append htail)))
  simpa using hall

theorem mem_tags_inOrder (name : String) :
    name ∈ (style ++ numbering ++ borders ++ shading ++ tabs ++ spacing ++ indent).map Xml.tag ↔
      name = "w:pStyle" ∧ a = true ∨ name = "w:numPr" ∧ e = true ∨ name = "w:pBdr" ∧ f = true ∨
      name = "w:shd" ∧ g = true ∨ name = "w:tabs" ∧ d = true ∨ name = "w:spacing" ∧ b = true ∨
      name = "w:ind" ∧ c = true := by
  simp only [List.map_append, List.mem_append, hstyle.mem_tags_iff, hnumbering.mem_tags_iff,
    hborders.mem_tags_iff, hshading.mem_tags_iff, htabs.mem_tags_iff, hspacing.mem_tags_iff,
    hindent.mem_tags_iff, or_assoc]

/-- All properties with one tag are of one kind. -/
theorem filter_inOrder (name : String) :
    (style ++ numbering ++ borders ++ shading ++ tabs ++ spacing ++ indent).filter
        (·.tag == name) =
      (if "w:pStyle" = name then style else []) ++ (if "w:numPr" = name then numbering else []) ++
      (if "w:pBdr" = name then borders else []) ++ (if "w:shd" = name then shading else []) ++
      (if "w:tabs" = name then tabs else []) ++ (if "w:spacing" = name then spacing else []) ++
      (if "w:ind" = name then indent else []) := by
  simp only [List.filter_append, hstyle.filter_tag, hnumbering.filter_tag, hborders.filter_tag,
    hshading.filter_tag, htabs.filter_tag, hspacing.filter_tag, hindent.filter_tag]

end Order

/-- Only what a first step can give matters for the rest. -/
theorem bind_congr_of_yields {ε α β : Type} {x : Except ε α} {post : α → Prop}
    {f g : α → Except ε β} (hx : Yields x post) (h : ∀ a, post a → f a = g a) :
    x >>= f = x >>= g := by
  cases hresult : x with
  | error e => rfl
  | ok a => exact h a (hx a hresult)

/-- The properties of a paragraph stand in the order of the schema, in whichever order they are
written. -/
theorem Paragraph.properties_eq (p : Paragraph) (numbers : ListNumbers) (style : Option String) :
    p.properties numbers style = do
      let spacing ← spacingMarkup p.spacingBefore p.spacingAfter
      let indent ← indentMarkup p.indentLeft
      let tabs ← tabsMarkup p.tabStops
      let borders ← bordersMarkup p.borderLeft p.borderBottom
      let shading ← property (given? p.shading) fun fill => do return [← fillMarkup fill]
      return style.toList.map (Xml.valued "w:pStyle") ++
        p.numbering.toList.flatMap (listMembership numbers) ++ borders ++ shading ++ tabs ++
        spacing ++ indent := by
  unfold properties
  refine bind_congr_of_yields (caused_spacingMarkup _ _) fun spacing hspacing => ?_
  refine bind_congr_of_yields (caused_indentMarkup _) fun indent hindent => ?_
  refine bind_congr_of_yields (tabsMarkup_yields _) fun tabs htabs => ?_
  refine bind_congr_of_yields (bordersMarkup_yields _ _) fun borders hborders => ?_
  refine bind_congr_of_yields (caused_shading _) fun shading hshading => ?_
  exact congrArg Except.ok (putAllBefore_inOrder (caused_style style) hspacing hindent htabs.1
    (caused_memberships numbers p.numbering) hborders.1 hshading)

end MarkdownWord.Word
