import MarkdownWord.Proofs.Formats
import MarkdownWord.Proofs.PropertyPlaces

/-!
# The layout of blocks

Writing a block can fail for many reasons, and it meets the targets of its links on the way. Two
reasons are left when the block looks as blocks of a tree do: the text of a run has a character that
XML cannot hold, or a heading has a level without a style (`Block.Writable.markup_collects`).
-/

namespace MarkdownWord.Word

/-! ## Targets -/

/-- The targets of one list are those of another and some more. -/
def Targets.Joined (t : Targets) (urls : List String) (t' : Targets) : Prop :=
  ∀ url, url ∈ t' ↔ url ∈ t ∨ url ∈ urls

/-- Writing succeeds exactly when a condition holds, and then has met some targets. -/
def Collects {α : Type} (m : Render α) (condition : Prop) (urls : List String) : Prop :=
  ∀ t : Targets, Ends m t condition (t.Joined urls)

namespace Collects

variable {α β : Type} {m : Render α} {p q : Prop} {us vs : List String}

theorem pure (a : α) : Collects (pure a) True [] := fun t => Ends.pure a fun url => by simp

theorem lift (x : Except RenderError α) : Collects (liftM x) (Succeeds x) [] :=
  fun t => Ends.lift x fun _ url => by simp

theorem bind {f : α → Render β} (hm : Collects m p us) (hf : ∀ a, Collects (f a) q vs) :
    Collects (m >>= f) (p ∧ q) (us ++ vs) := by
  intro t
  refine (hm t).bind fun a t' ht' => (hf a t').mono fun t'' ht'' url => ?_
  rw [ht'' url, ht' url, List.mem_append, or_assoc]

theorem congr (h : Collects m p us) (hp : p ↔ q) (hu : us = vs) : Collects m q vs :=
  fun t => hu ▸ (h t).congr hp

theorem map {f : α → β} (hm : Collects m p us) : Collects (do return f (← m)) p us :=
  (hm.bind fun a => pure (f a)).congr (by simp) (by simp)

theorem mapM {f : α → Render β} {as : List α} {condition : α → Prop} {urls : α → List String}
    (h : ∀ a ∈ as, Collects (f a) (condition a) (urls a)) :
    Collects (as.mapM f) (∀ a ∈ as, condition a) (as.flatMap urls) := by
  intro t
  have hstart : t.Joined ([].flatMap urls) t := fun url => by simp
  refine Ends.mapM (fun done => t.Joined (done.flatMap urls)) ?_ hstart
  intro a ha before t' ht'
  refine (h a ha t').mono fun t'' ht'' url => ?_
  rw [ht'' url, ht' url, List.flatMap_append, List.mem_append, or_assoc]
  simp

end Collects

private theorem run_get (t : Targets) : (get : Render Targets).run.run t = (.ok t, t) := rfl

theorem relate_of_new {t : Targets} {url : String} (h : t.idxOf? url = none) :
    (relate url).run.run t = (.ok (relationshipId t.length), t ++ [url]) := by
  rw [relate, Ends.run_bind, run_get]
  dsimp only
  rw [h]
  rfl

theorem relate_of_known {t : Targets} {url : String} {i : Nat} (h : t.idxOf? url = some i) :
    (relate url).run.run t = (.ok (relationshipId i), t) := by
  rw [relate, Ends.run_bind, run_get]
  dsimp only
  rw [h]
  rfl

theorem relate_collects (url : String) : Collects (relate url) True [url] := by
  intro t
  cases h : t.idxOf? url with
  | none =>
    refine ⟨?_, fun _ => ?_⟩
    · rw [relate_of_new h]
      simp
    · rw [relate_of_new h]
      intro v
      simp
  | some i =>
    have hmem : url ∈ t := by
      by_contra hnot
      simp [List.idxOf?_eq_none_iff.mpr hnot] at h
    refine ⟨?_, fun _ => ?_⟩
    · rw [relate_of_known h]
      simp
    · rw [relate_of_known h]
      intro v
      rw [List.mem_singleton]
      exact ⟨.inl, fun hv => hv.elim id fun hv => hv ▸ hmem⟩

theorem Member.markup_collects {m : Member} (h : ∀ r ∈ m.runs, r.Writable) :
    Collects (m.markup true) (∀ r ∈ m.runs, r.isLegal) m.target?.toList := by
  cases m with
  | run r =>
    have hr := (h r (List.mem_singleton.mpr rfl)).markup_succeeds
    exact (Collects.lift (r.markup true)).map.congr (by simpa [runs] using hr) rfl
  | link url rs =>
    have hruns : Collects (rs.mapM fun r => (r.markup true : Except RenderError Xml))
        (∀ r ∈ rs, r.isLegal) [] := by
      refine (Collects.mapM fun r hr => ?_).congr Iff.rfl (List.flatMap_eq_nil_iff.mpr fun _ _ => rfl)
      exact (Collects.lift (r.markup true)).congr (h r hr).markup_succeeds rfl
    rw [markup]
    cases hurl : url.isEmpty with
    | true =>
      rw [if_pos rfl]
      exact hruns.congr Iff.rfl (by simp [target?, hurl])
    | false =>
      rw [if_neg Bool.false_ne_true]
      refine ((relate_collects url).bind fun id => hruns.map).congr ?_ ?_
      · simp [runs]
      · simp [target?, hurl]

/-! ## Paragraphs -/

/-- A border whose texts XML can hold. -/
def Border.isLegal (b : Border) : Bool := isXmlText b.style && isXmlText b.color

/-- The lengths in the layout of a paragraph. -/
def Paragraph.lengths (p : Paragraph) : List Int :=
  p.spacingBefore.toList ++ p.spacingAfter.toList ++ p.indentLeft.toList ++
    p.tabStops.map (·.position)

/-- A paragraph whose lengths fit on a page, with a border and a fill that XML can hold. -/
def Paragraph.isLaidOut (p : Paragraph) : Bool :=
  p.lengths.all (fun n => 0 ≤ n && n ≤ 10000) && p.borderLeft.all Border.isLegal &&
    p.borderBottom.all Border.isLegal && p.shading.all isXmlText

/-- A paragraph that looks as paragraphs of a tree do. -/
structure Paragraph.Writable (p : Paragraph) : Prop where
  runs : ∀ r ∈ p.runs, r.Writable
  layout : p.isLaidOut = true

theorem spacingText_succeeds {n : Int} (h : 0 ≤ n ∧ n ≤ 10000) : Succeeds (spacingText n) := by
  have hlow : 0 ≤ n * (unitsPerTwip : Int) := by unfold unitsPerTwip; omega
  have hhigh : n * (unitsPerTwip : Int) < (unitLimit : Int) := by
    unfold unitsPerTwip unitLimit
    omega
  simp only [spacingText, hlow, hhigh, decide_true, Bool.and_true, if_true]
  exact Succeeds.pure _

theorem positionText_succeeds {n : Int} (h : 0 ≤ n ∧ n ≤ 10000) : Succeeds (positionText n) := by
  have hlow : -0x80000000 ≤ n * (unitsPerTwip : Int) := by unfold unitsPerTwip; omega
  have hhigh : n * (unitsPerTwip : Int) < 0x80000000 := by unfold unitsPerTwip; omega
  simp only [positionText, hlow, hhigh, decide_true, Bool.and_true, if_true]
  exact Succeeds.pure _

theorem lengthAttribute_succeeds {name : String} {x : Option Int}
    {write : Int → Except RenderError String} (h : ∀ n ∈ x, Succeeds (write n)) :
    Succeeds (lengthAttribute name x write) := by
  cases x with
  | none => exact Succeeds.pure []
  | some n => exact (h n rfl).bind fun _ => Succeeds.pure _

theorem mem_insertTab {t u : TabStop} {ts : List TabStop} (h : u ∈ insertTab t ts) :
    u = t ∨ u ∈ ts := by
  induction ts with
  | nil => exact .inl (List.mem_singleton.mp h)
  | cons v ts ih =>
    rw [insertTab] at h
    split at h
    · exact List.mem_cons.mp h
    · rcases List.mem_cons.mp h with rfl | h
      · exact .inr List.mem_cons_self
      · exact (ih h).imp_right (List.mem_cons_of_mem v)

theorem mem_of_mem_sortTabs {u : TabStop} {ts : List TabStop} (h : u ∈ sortTabs ts) : u ∈ ts := by
  have hfold (ts sorted : List TabStop)
      (h : u ∈ ts.foldl (fun sorted t => insertTab t sorted) sorted) : u ∈ sorted ∨ u ∈ ts := by
    induction ts generalizing sorted with
    | nil => exact .inl h
    | cons t ts ih =>
      rcases ih _ h with h | h
      · exact (mem_insertTab h).elim (fun h => .inr (h ▸ List.mem_cons_self)) .inl
      · exact .inr (List.mem_cons_of_mem t h)
  exact (hfold ts [] h).resolve_left List.not_mem_nil

theorem Border.markup_succeeds {b : Border} (h : b.isLegal = true) (tag : String) :
    Succeeds (b.markup tag) := by
  obtain ⟨hstyle, hcolor⟩ := (Bool.and_eq_true _ _).mp h
  refine (legalText_succeeds.mpr hstyle).bind fun _ => ?_
  exact (legalText_succeeds.mpr hcolor).bind fun _ => Succeeds.pure _

theorem bordersMarkup_succeeds {left bottom : Option Border}
    (hleft : ∀ b ∈ left, b.isLegal = true) (hbottom : ∀ b ∈ bottom, b.isLegal = true) :
    Succeeds (bordersMarkup left bottom) := by
  refine (property_succeeds fun b hb => ?_).bind fun _ => ?_
  · exact (Border.markup_succeeds (hleft b hb) _).bind fun _ => Succeeds.pure _
  refine (property_succeeds fun b hb => ?_).bind fun _ => Succeeds.pure _
  exact (Border.markup_succeeds (hbottom b hb) _).bind fun _ => Succeeds.pure _

theorem shading_succeeds {x : Option String} (h : ∀ fill ∈ x, isXmlText fill = true) :
    Succeeds (property (given? x) fun fill => do return [← fillMarkup fill]) := by
  refine property_succeeds fun fill hfill => ?_
  have hmem := (Option.mem_filter_iff.mp hfill).1
  have hlegal := legalText_succeeds.mpr (h fill hmem)
  exact (hlegal.bind fun _ => Succeeds.pure _).bind fun _ => Succeeds.pure _

theorem Paragraph.properties_succeeds {p : Paragraph} (h : p.isLaidOut = true)
    (numbers : ListNumbers) (style : Option String) : Succeeds (p.properties numbers style) := by
  simp only [isLaidOut, Bool.and_eq_true, List.all_eq_true, Option.all_eq_true,
    decide_eq_true_eq] at h
  obtain ⟨⟨⟨hlengths, hleft⟩, hbottom⟩, hshading⟩ := h
  have hspacing : Succeeds (spacingMarkup p.spacingBefore p.spacingAfter) := by
    refine (lengthAttribute_succeeds fun n hn => spacingText_succeeds (hlengths n ?_)).bind
      fun _ => ?_
    · simp [lengths, Option.mem_def.mp hn]
    refine (lengthAttribute_succeeds fun n hn => spacingText_succeeds (hlengths n ?_)).bind
      fun _ => Succeeds.pure _
    simp [lengths, Option.mem_def.mp hn]
  have hindent : Succeeds (indentMarkup p.indentLeft) := by
    refine (lengthAttribute_succeeds fun n hn => positionText_succeeds (hlengths n ?_)).bind
      fun _ => Succeeds.pure _
    simp [lengths, Option.mem_def.mp hn]
  have htabs : Succeeds (tabsMarkup p.tabStops) := by
    refine (Succeeds.mapM_iff.mpr fun t ht => ?_).bind fun _ => Succeeds.pure _
    refine (positionText_succeeds (hlengths _ ?_)).bind fun _ => Succeeds.pure _
    exact List.mem_append_right _ (List.mem_map_of_mem (mem_of_mem_sortTabs ht))
  rw [Paragraph.properties_eq]
  refine hspacing.bind fun _ => hindent.bind fun _ => htabs.bind fun _ => ?_
  refine (bordersMarkup_succeeds hleft hbottom).bind fun _ => ?_
  exact (shading_succeeds hshading).bind fun _ => Succeeds.pure _

theorem Paragraph.Writable.markup_collects {p : Paragraph} (h : p.Writable)
    (numbers : ListNumbers) (style : Option String) :
    Collects (p.markup ⟨numbers, true⟩ style) (∀ r ∈ p.runs, r.isLegal)
      p.targets := by
  have hmembers : Collects (p.members.mapM (Member.markup true)) (∀ r ∈ p.runs, r.isLegal)
      p.targets := by
    refine (Collects.mapM fun m hm => Member.markup_collects fun r hr => ?_).congr ?_ ?_
    · exact h.runs r (List.mem_flatMap.mpr ⟨m, hm, hr⟩)
    · simp only [Paragraph.runs, List.mem_flatMap, forall_exists_index, and_imp]
      exact ⟨fun h r m hm hr => h m hm r hr, fun h m hm r hr => h r m hm hr⟩
    · rw [Paragraph.targets, List.filterMap_eq_flatMap_toList]
  have hproperties := properties_succeeds h.layout numbers style
  unfold Paragraph.markup
  refine ((Collects.lift _).bind fun properties => hmembers.map).congr ?_ ?_
  · simp [hproperties]
  · simp

/-! ## Tables -/

/-- A cell whose paragraphs are writable, with a fill that XML can hold. -/
structure Cell.Writable (c : Cell) : Prop where
  paragraphs : ∀ p ∈ c.paragraphs, p.Writable
  shading : ∀ fill ∈ c.shading, isXmlText fill = true

/-- A block whose paragraphs, or cells, are writable. -/
def Block.Writable : Block → Prop
  | .paragraph p => p.Writable
  | .table t => ∀ r ∈ t.rows, ∀ c ∈ r.cells, c.Writable
  | .foreign _ => True

/-- The level of a heading. -/
def Block.level? : Block → Option Int
  | .paragraph p => p.headingLevel
  | _ => none

theorem Cell.Writable.markup_collects {c : Cell} (h : c.Writable) (numbers : ListNumbers)
    (width : String) :
    Collects (c.markup ⟨numbers, true⟩ width) (∀ p ∈ c.paragraphs, ∀ r ∈ p.runs, r.isLegal)
      (c.paragraphs.flatMap Paragraph.targets) := by
  have hparagraphs := Collects.mapM fun p hp => (h.paragraphs p hp).markup_collects numbers none
  unfold Cell.markup
  refine (hparagraphs.bind fun _ => (Collects.lift _).map).congr ?_ (List.append_nil _)
  exact ⟨fun hc => hc.1, fun hc => ⟨hc, shading_succeeds h.shading⟩⟩

theorem length_cells_le {t : Table} {r : Row} (hr : r ∈ t.rows) :
    r.cells.length ≤ t.columnCount := by
  have hfold (rows : List Row) (n : Nat) : n ≤ rows.foldl (fun n r => max n r.cells.length) n ∧
      ∀ r ∈ rows, r.cells.length ≤ rows.foldl (fun n r => max n r.cells.length) n := by
    induction rows generalizing n with
    | nil => simp
    | cons row rows ih =>
      obtain ⟨hstart, hrows⟩ := ih (max n row.cells.length)
      refine ⟨le_trans (le_max_left _ _) hstart, fun r hr => ?_⟩
      rcases List.mem_cons.mp hr with rfl | hr
      · exact le_trans (le_max_right _ _) hstart
      · exact hrows r hr
  exact (hfold t.rows 0).2 r hr

theorem cells_eq_nil {t : Table} (h : t.columnCount = 0) {r : Row} (hr : r ∈ t.rows) :
    r.cells = [] := by
  have hle := length_cells_le hr
  rw [h] at hle
  exact List.length_eq_zero_iff.mp (Nat.le_zero.mp hle)

theorem headingStyle?_succeeds {n : Int} : Succeeds (headingStyle? n) ↔ 1 ≤ n ∧ n ≤ 9 := by
  unfold headingStyle?
  split
  · next h => exact iff_of_true (Succeeds.pure _) (by simpa using h)
  · next h => exact iff_of_false (Succeeds.not_error _) (by simpa using h)

theorem style?_succeeds {p : Paragraph} :
    Succeeds p.style? ↔ ∀ n ∈ p.headingLevel, 0 ≤ n ∧ n ≤ 9 := by
  unfold Paragraph.style?
  cases hlevel : p.headingLevel with
  | none => simp
  | some n =>
    simp only [Option.mem_some_iff, forall_eq']
    by_cases hn : n = 0
    · simp [hn]
    · rw [if_neg hn, Succeeds.map_iff, headingStyle?_succeeds]
      omega

theorem Table.markup_collects {t : Table} (h : ∀ r ∈ t.rows, ∀ c ∈ r.cells, c.Writable)
    (numbers : ListNumbers) :
    Collects (t.markup ⟨numbers, true⟩) (∀ r ∈ (Block.table t).runs, r.isLegal)
      (Block.table t).targets := by
  have hcells (r : Row) (hr : r ∈ t.rows) (width : String) :=
    Collects.mapM fun c hc => (h r hr c hc).markup_collects numbers width
  have hrows : Collects (t.rows.mapM (Row.markup ⟨numbers, true⟩ t.columnCount))
      (∀ r ∈ (Block.table t).runs, r.isLegal) (Block.table t).targets := by
    refine (Collects.mapM fun r hr => (hcells r hr _).map).congr ?_ ?_
    · simp only [Block.runs, Block.paragraphs, List.mem_flatMap]
      constructor
      · rintro hlegal x ⟨p, ⟨r, hr, c, hc, hp⟩, hx⟩
        exact hlegal r hr c hc p hp x hx
      · intro hlegal r hr c hc p hp x hx
        exact hlegal x ⟨p, ⟨r, hr, c, hc, hp⟩, hx⟩
    · simp [Block.targets, Block.paragraphs, List.flatMap_assoc]
  unfold Table.markup
  dsimp only
  by_cases hcount : t.columnCount = 0
  · rw [if_pos hcount]
    have hnone : (Block.table t).paragraphs = [] :=
      List.flatMap_eq_nil_iff.mpr fun r hr => by rw [cells_eq_nil hcount hr]; rfl
    refine (Collects.pure _).congr ?_ ?_
    · simp [Block.runs, hnone]
    · simp [Block.targets, hnone]
  · rw [if_neg hcount]
    exact hrows.map

theorem Block.Writable.markup_collects {b : Block} (h : b.Writable) (numbers : ListNumbers) :
    Collects (b.markup ⟨numbers, true⟩)
      ((∀ n ∈ b.level?, 0 ≤ n ∧ n ≤ 9) ∧ ∀ r ∈ b.runs, r.isLegal) b.targets := by
  cases b with
  | paragraph p =>
    refine ((Collects.lift p.style?).bind fun style =>
      (Paragraph.Writable.markup_collects h numbers style).map).congr ?_ ?_
    · rw [style?_succeeds]
      simp [Block.level?, Block.runs, Block.paragraphs]
    · simp [Block.targets, Block.paragraphs]
  | table t =>
    exact (Table.markup_collects h numbers).congr (by simp [Block.level?]) rfl
  | foreign kind =>
    exact (Collects.pure []).congr (by simp [Block.level?, Block.runs, Block.paragraphs]) rfl

end MarkdownWord.Word
