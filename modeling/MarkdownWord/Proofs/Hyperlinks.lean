import MarkdownWord.Proofs.Elements
import MarkdownWord.Proofs.Relationships
import MarkdownWord.Proofs.Rendered

/-!
# Links in a document file

A paragraph is written member by member, and a link refers to the relationship to its target. The
links of a file are therefore those of the paragraphs of its document, in order, whatever tables the
paragraphs stand in and however the targets are repeated (`Document.linked_of_render`).
-/

namespace MarkdownWord.Word

/-! ## Paragraphs and their links -/

/-- The elements of a member of a paragraph in a file with some relationships. A link without an
address is written as its runs. -/
inductive Member.Written (withLinks : Bool) (rels : List (String × String)) :
    Member → List Xml → Prop
  | run {r : Run} {x : Xml} (hrun : r.markup withLinks = .ok x) : Written withLinks rels (.run r) [x]
  | bare {rs : List Run} {xs : List Xml}
      (hruns : List.Forall₂ (fun r x => r.markup withLinks = .ok x) rs xs) :
      Written withLinks rels (.link "" rs) xs
  | link {url id : String} {rs : List Run} {xs : List Xml} (hurl : url ≠ "")
      (hlink : (id, url) ∈ rels)
      (hruns : List.Forall₂ (fun r x => r.markup withLinks = .ok x) rs xs) :
      Written withLinks rels (.link url rs) [.element "w:hyperlink" [("r:id", id)] xs]

/-- The tags of the properties of a paragraph. -/
def propertyTags : List String := "w:pStyle" :: "w:numPr" :: "w:ilvl" :: "w:numId" :: layoutTags

/-- The element of a paragraph in a file with some relationships: its properties, and then the
elements of its members one after another. -/
inductive Paragraph.Written (withLinks : Bool) (rels : List (String × String)) (p : Paragraph) :
    Xml → Prop
  | bare {parts : List (List Xml)}
      (hparts : List.Forall₂ (Member.Written withLinks rels) p.members parts) :
      Written withLinks rels p (.group "w:p" parts.flatten)
  | headed {properties : List Xml} {parts : List (List Xml)}
      (hproperties : Xml.Within propertyTags properties)
      (hparts : List.Forall₂ (Member.Written withLinks rels) p.members parts) :
      Written withLinks rels p (.group "w:p" (.group "w:pPr" properties :: parts.flatten))

/-- An element refers to a relationship to some target. -/
def Xml.LeadsTo (rels : List (String × String)) (url : String) (x : Xml) : Prop :=
  ∃ id, x.attribute? "r:id" = some id ∧ (id, url) ∈ rels

section Written

variable {withLinks : Bool} {rels : List (String × String)}

theorem Xml.within_runs {rs : List Run} {xs : List Xml}
    (h : List.Forall₂ (fun r x => r.markup withLinks = .ok x) rs xs) : Within runTags xs :=
  within_of_forall (forall_mem_of_forall₂ (h.imp fun r x hx => r.within_markup withLinks x hx))

theorem Member.Written.hyperlinks {m : Member} {xs : List Xml} (h : m.Written withLinks rels xs) :
    List.Forall₂ (Xml.LeadsTo rels) m.target?.toList (Xml.named "w:hyperlink" xs) ∧
      Xml.named "w:p" xs = [] := by
  cases h with
  | @run r x hrun =>
    have hwithin := r.within_markup withLinks x hrun
    rw [hwithin.named_eq_nil (by decide), hwithin.named_eq_nil (by decide)]
    exact ⟨.nil, rfl⟩
  | bare hruns =>
    have hwithin := Xml.within_runs hruns
    rw [hwithin.named_eq_nil (by decide), hwithin.named_eq_nil (by decide)]
    exact ⟨.nil, rfl⟩
  | @link url id rs xs hurl hlink hruns =>
    have hwithin := Xml.within_runs hruns
    have hlinks : Xml.named "w:hyperlink" xs = [] := hwithin.named_eq_nil (by decide)
    have hparagraphs : Xml.named "w:p" xs = [] := hwithin.named_eq_nil (by decide)
    have htarget : (Member.link url rs).target? = some url := by simp [target?, hurl]
    rw [htarget, Xml.named_element, Xml.named_element, hlinks, hparagraphs]
    exact ⟨.cons ⟨id, rfl, hlink⟩ .nil, rfl⟩

theorem Member.links_of_written {ms : List Member} {parts : List (List Xml)}
    (h : List.Forall₂ (Written withLinks rels) ms parts) :
    List.Forall₂ (Xml.LeadsTo rels) (ms.filterMap target?)
        (Xml.named "w:hyperlink" parts.flatten) ∧
      Xml.named "w:p" parts.flatten = [] := by
  induction h with
  | nil => simp
  | @cons m xs ms parts hm _ ih =>
    obtain ⟨hlinks, hparagraphs⟩ := hm.hyperlinks
    rw [List.flatten_cons, Xml.named_append, Xml.named_append, hparagraphs, ih.2,
      List.filterMap_eq_flatMap_toList, List.flatMap_cons, ← List.filterMap_eq_flatMap_toList]
    exact ⟨List.rel_append hlinks ih.1, rfl⟩

theorem Paragraph.Written.alone {p : Paragraph} {x : Xml} (h : p.Written withLinks rels x) :
    Xml.named "w:p" [x] = [x] := by
  cases h with
  | bare hparts => rw [Xml.named_group, (Member.links_of_written hparts).2]; rfl
  | headed hproperties hparts =>
    have hhead := hproperties.named_eq_nil (by decide : "w:p" ∉ propertyTags)
    rw [Xml.named_group, Xml.named_cons, Xml.named_group, hhead,
      (Member.links_of_written hparts).2]
    rfl

/-- The links of a paragraph lead to their targets, one after another. -/
theorem Paragraph.Written.hyperlinks {p : Paragraph} {x : Xml} (h : p.Written withLinks rels x) :
    List.Forall₂ (Xml.LeadsTo rels) p.targets (Xml.named "w:hyperlink" [x]) := by
  cases h with
  | bare hparts =>
    rw [Xml.named_group]
    exact (Member.links_of_written hparts).1
  | headed hproperties hparts =>
    have hhead := hproperties.named_eq_nil (by decide : "w:hyperlink" ∉ propertyTags)
    rw [Xml.named_group, Xml.named_cons, Xml.named_group, hhead]
    exact (Member.links_of_written hparts).1

end Written

/-! ## Blocks and their paragraphs -/

/-- The paragraphs that are written for a cell: an empty one where it has none. -/
def Cell.shown (c : Cell) : List Paragraph := if c.paragraphs.isEmpty then [{}] else c.paragraphs

/-- The paragraphs that are written for a row of a table with some columns. Each cell that it lacks
has an empty one. -/
def Row.shown (columns : Nat) (r : Row) : List Paragraph :=
  r.cells.flatMap Cell.shown ++ List.replicate (columns - r.cells.length) ({} : Paragraph)

/-- The paragraphs that are written for a block. -/
def Block.shown : Block → List Paragraph
  | .paragraph p => [p]
  | .table t => t.rows.flatMap (Row.shown t.columnCount)
  | .foreign _ => []

theorem Cell.targets_shown (c : Cell) :
    c.shown.flatMap Paragraph.targets = c.paragraphs.flatMap Paragraph.targets := by
  unfold shown
  cases c.paragraphs <;> simp [Paragraph.targets]

theorem Row.targets_shown (columns : Nat) (r : Row) :
    (r.shown columns).flatMap Paragraph.targets =
      r.cells.flatMap fun c => c.paragraphs.flatMap Paragraph.targets := by
  have hfillers (n : Nat) :
      (List.replicate n ({} : Paragraph)).flatMap Paragraph.targets = [] := by
    refine List.flatMap_eq_nil_iff.mpr fun p hp => ?_
    rw [List.eq_of_mem_replicate hp]
    rfl
  rw [shown, List.flatMap_append, hfillers, List.append_nil, List.flatMap_assoc]
  simp only [Cell.targets_shown]

/-- The paragraphs that fill up a table have no links. -/
theorem Block.targets_shown (b : Block) : b.shown.flatMap Paragraph.targets = b.targets := by
  cases b with
  | paragraph p => rfl
  | table t => simp [shown, targets, paragraphs, List.flatMap_assoc, Row.targets_shown]
  | foreign kind => rfl

/-- Some paragraphs, with their links, are the paragraphs and the links of some elements. -/
structure Xml.Carry (withLinks : Bool) (rels : List (String × String)) (ps : List Paragraph)
    (xs : List Xml) : Prop where
  paragraphs : List.Forall₂ (Paragraph.Written withLinks rels) ps (named "w:p" xs)
  hyperlinks : List.Forall₂ (LeadsTo rels) (ps.flatMap Paragraph.targets) (named "w:hyperlink" xs)

namespace Xml

variable {withLinks : Bool} {rels : List (String × String)} {ps qs : List Paragraph}
  {xs ys : List Xml}

theorem carry_paragraph {p : Paragraph} {x : Xml} (h : p.Written withLinks rels x) :
    Carry withLinks rels [p] [x] :=
  ⟨by rw [h.alone]; exact .cons h .nil, by simpa using h.hyperlinks⟩

theorem Carry.append (hxs : Carry withLinks rels ps xs) (hys : Carry withLinks rels qs ys) :
    Carry withLinks rels (ps ++ qs) (xs ++ ys) where
  paragraphs := by
    rw [named_append]
    exact List.rel_append hxs.paragraphs hys.paragraphs
  hyperlinks := by
    rw [named_append, List.flatMap_append]
    exact List.rel_append hxs.hyperlinks hys.hyperlinks

theorem carry_nil : Carry withLinks rels [] [] := ⟨by simp, by simp⟩

/-- What is carried one by one is carried in order. -/
theorem carry_of_forall₂ {α : Type} {find : α → List Paragraph} {as : List α}
    (h : List.Forall₂ (fun a x => Carry withLinks rels (find a) [x]) as xs) :
    Carry withLinks rels (as.flatMap find) xs := by
  induction h with
  | nil => exact carry_nil
  | cons hx _ ih =>
    rw [List.flatMap_cons, ← List.singleton_append]
    exact hx.append ih

theorem carry_of_within {tags : List String} (h : Within tags xs) (hparagraph : "w:p" ∉ tags)
    (hlink : "w:hyperlink" ∉ tags) : Carry withLinks rels [] xs := by
  refine ⟨?_, ?_⟩
  · rw [h.named_eq_nil hparagraph]
    exact .nil
  · rw [h.named_eq_nil hlink]
    exact .nil

theorem Carry.group {tag : String} (h : Carry withLinks rels ps xs) (hparagraph : tag ≠ "w:p")
    (hlink : tag ≠ "w:hyperlink") : Carry withLinks rels ps [.group tag xs] := by
  refine ⟨?_, ?_⟩
  · rw [named_group, if_neg hparagraph]
    exact h.paragraphs
  · rw [named_group, if_neg hlink]
    exact h.hyperlinks

end Xml

/-! ## Writing -/

theorem Member.written_markup (m : Member) (withLinks : Bool) :
    Gathers (m.markup withLinks) m.target?.toList fun u => m.Written withLinks u.links := by
  have hruns (rs : List Run) :
      Gathers (rs.mapM fun r => (r.markup withLinks : Except RenderError Xml)) []
        fun _ => List.Forall₂ (fun r x => r.markup withLinks = .ok x) rs := by
    refine (Gathers.mapM fun r _ => ?_).congr (List.flatMap_eq_nil_iff.mpr fun _ _ => rfl)
    exact Gathers.lift fun x hx _ => hx
  cases m with
  | run r =>
    have hrun : Gathers (liftM (r.markup withLinks)) [] fun _ x => r.markup withLinks = .ok x :=
      Gathers.lift fun x hx _ => hx
    exact hrun.map fun u x hx => .run hx
  | link url rs =>
    rw [markup]
    by_cases hurl : url = ""
    · subst hurl
      exact (hruns rs).mono fun u xs hxs => .bare hxs
    · have htarget : (Member.link url rs).target? = some url := by simp [target?, hurl]
      rw [if_neg (by simpa using hurl), htarget]
      refine (relate_gathers url).bind fun id => (hruns rs).map fun u xs hxs hlink => ?_
      exact .link hurl hlink hxs

theorem Paragraph.within_properties (p : Paragraph) (numbers : ListNumbers)
    (style : Option String) : Yields (p.properties numbers style) (Xml.Within propertyTags) := by
  intro ps hps
  obtain ⟨layout, rfl, hlayout⟩ := p.properties_memberships numbers style ps hps
  have hstyle : Xml.Within propertyTags (style.toList.map (Xml.valued "w:pStyle")) := by
    cases style <;> simp +decide [Xml.valued, Xml.leaf]
  have hmemberships : Xml.Within propertyTags (p.memberships numbers) := by
    rcases p.memberships_cases numbers with hnone | ⟨r, n, -, -, hsome⟩
    · simp [hnone]
    · simp +decide [hsome, Xml.group, Xml.valued, Xml.leaf]
  simp [hstyle, hmemberships, hlayout.mono (by decide : layoutTags ⊆ propertyTags)]

theorem Paragraph.written_markup (p : Paragraph) (numbers : ListNumbers) (withLinks : Bool)
    (style : Option String) :
    Gathers (p.markup ⟨numbers, withLinks⟩ style) p.targets
      fun u => p.Written withLinks u.links := by
  have hproperties : Gathers (liftM (p.properties numbers style)) []
      fun _ => Xml.Within propertyTags :=
    Gathers.lift fun ps hps _ => p.within_properties numbers style ps hps
  have hmembers := Gathers.mapM fun m (_ : m ∈ p.members) => m.written_markup withLinks
  unfold Paragraph.markup
  refine (hproperties.bind fun ps => hmembers.map fun u parts hparts hps => ?_).congr ?_
  · split
    · exact .bare hparts
    · exact .headed hps hparts
  · rw [Paragraph.targets, List.filterMap_eq_flatMap_toList, List.nil_append]

variable (numbers : ListNumbers) (withLinks : Bool)

theorem Xml.carry_cellMarkup {rels : List (String × String)} {ps : List Paragraph}
    {shade xs : List Xml} (hshade : Within layoutTags shade)
    (hxs : List.Forall₂ (Paragraph.Written withLinks rels) ps xs) (width : String) :
    Carry withLinks rels (Cell.shown { paragraphs := ps }) [cellMarkup width shade xs] := by
  have hhead : Carry withLinks rels [] [_] :=
    carry_of_within (within_cellProperties hshade width) (by decide) (by decide)
  have hall : Carry withLinks rels (Cell.shown { paragraphs := ps })
      (if xs.isEmpty then [.group "w:p" []] else xs) := by
    cases hxs with
    | nil =>
      have hempty := @Paragraph.Written.bare withLinks rels {} [] .nil
      exact carry_paragraph hempty
    | @cons p x ps xs hx hxs =>
      have hone := (List.Forall₂.cons hx hxs).imp fun p x hx => carry_paragraph hx
      simpa [Cell.shown] using carry_of_forall₂ hone
  exact (hhead.append hall).group (by decide) (by decide)

theorem Cell.carry_markup (c : Cell) (width : String) :
    Gathers (c.markup ⟨numbers, withLinks⟩ width) (c.paragraphs.flatMap Paragraph.targets)
      fun u x => Xml.Carry withLinks u.links c.shown [x] := by
  have hparagraphs := Gathers.mapM fun p (_ : p ∈ c.paragraphs) =>
    p.written_markup numbers withLinks none
  have hfill : Gathers (liftM (property (given? c.shading) fun fill => do return [← fillMarkup fill]))
      [] fun _ => Xml.Within layoutTags :=
    Gathers.lift fun shade hshade _ => within_property layoutTags within_fillMarkup shade hshade
  unfold Cell.markup
  refine (hparagraphs.bind fun xs => hfill.map fun u shade hshade hxs => ?_).congr
    (List.append_nil _)
  exact Xml.carry_cellMarkup withLinks hshade hxs width

theorem Row.carry_markup (r : Row) (columns : Nat) :
    Gathers (r.markup ⟨numbers, withLinks⟩ columns)
      (r.cells.flatMap fun c => c.paragraphs.flatMap Paragraph.targets)
      fun u x => Xml.Carry withLinks u.links (r.shown columns) [x] := by
  have hcells := Gathers.mapM fun c (_ : c ∈ r.cells) =>
    c.carry_markup numbers withLinks (columnWidth columns)
  unfold Row.markup
  refine hcells.map fun u xs hxs => ?_
  have hfillers (n : Nat) : Xml.Carry withLinks u.links (List.replicate n {})
      (List.replicate n (cellMarkup (columnWidth columns) [] [])) := by
    induction n with
    | zero => exact Xml.carry_nil
    | succ n ih => exact (Xml.carry_cellMarkup withLinks Xml.within_nil .nil _).append ih
  rw [← hxs.length_eq]
  exact ((Xml.carry_of_forall₂ hxs).append (hfillers _)).group (by decide) (by decide)

theorem Table.carry_markup (t : Table) :
    Gathers (t.markup ⟨numbers, withLinks⟩) (Block.table t).targets
      fun u xs => Xml.Carry withLinks u.links (Block.table t).shown xs := by
  have hrows := Gathers.mapM fun r (_ : r ∈ t.rows) =>
    r.carry_markup numbers withLinks t.columnCount
  unfold Table.markup
  dsimp only
  by_cases hcount : t.columnCount = 0
  · have hnone : (Block.table t).shown = [] := List.flatMap_eq_nil_iff.mpr fun r hr => by
      rw [Row.shown, cells_eq_nil hcount hr, hcount]
      rfl
    rw [if_pos hcount, ← Block.targets_shown, hnone]
    exact Gathers.pure fun u => Xml.carry_nil
  · rw [if_neg hcount]
    refine (hrows.map fun u xs hxs => ?_).congr ?_
    · have hhead := within_tableHead t.widthPercent t.columnCount (columnWidth t.columnCount)
      have hall := (Xml.carry_of_within hhead (by decide) (by decide)).append
        (Xml.carry_of_forall₂ hxs)
      exact hall.group (by decide) (by decide)
    · simp [Block.targets, Block.paragraphs, List.flatMap_assoc]

theorem Block.carry_markup (b : Block) :
    Gathers (b.markup ⟨numbers, withLinks⟩) b.targets
      fun u xs => Xml.Carry withLinks u.links b.shown xs := by
  cases b with
  | paragraph p =>
    have hstyle : Gathers (liftM p.style?) [] fun _ _ => True :=
      Gathers.lift fun _ _ _ => trivial
    refine (hstyle.bind fun style =>
      (p.written_markup numbers withLinks style).map fun u x hx _ => ?_).congr ?_
    · exact Xml.carry_paragraph hx
    · simp [targets, paragraphs]
  | table t => exact t.carry_markup numbers withLinks
  | foreign kind => exact Gathers.pure fun u => Xml.carry_nil

/-! ## Documents -/

/-- The body of a document file holds the paragraphs and links of some blocks. -/
structure Package.Carries (bs : List Block) (p : Package) : Prop where
  withLinks : p.withLinks = true
  targets : p.targets = Targets.addAll [] (bs.flatMap Block.targets)
  body : ∀ u : Targets, p.targets <+: u → Xml.Carry true u.links (bs.flatMap Block.shown) p.body

theorem Document.carries_of_render (d : Document) :
    Yields d.render fun out => out.1.Carries d.blocks := by
  have hrendered := Document.rendered_of_step (d := d) (fun _ done p => p.Carries done)
    (fun numbers p hp => ⟨hp.withLinks, hp.targets, fun u _ => by
      rw [hp.body]
      exact Xml.carry_nil⟩) fun b _ numbers done p hp => ?_
  · exact fun out hout => (hrendered out hout).elim fun _ h => h.1
  · refine Package.addBlock_leaves ((b.carry_markup numbers p.withLinks p.targets).mono ?_)
    rintro xs t ⟨rfl, hxs⟩
    rw [hp.withLinks] at hxs
    refine ⟨hp.withLinks, ?_, fun u hu => ?_⟩
    · dsimp only
      rw [List.flatMap_append, Targets.addAll_append, ← hp.targets, List.flatMap_singleton]
    · rw [List.flatMap_append, List.flatMap_singleton]
      exact (hp.body u ((Targets.prefix_addAll _ _).trans hu)).append (hxs u hu)

/-- The links in the body of a document file and the relationships of the file belong together. -/
structure Package.Linked (d : Document) (p : Package) : Prop where
  /-- The links stand in the body one after another, each with a relationship to its target. -/
  hyperlinks : List.Forall₂ (Xml.LeadsTo p.links) (d.blocks.flatMap Block.targets)
    (Xml.named "w:hyperlink" p.body)
  /-- Two links refer to one relationship exactly when they have one target. -/
  same : ∀ l ∈ (d.blocks.flatMap Block.targets).zip (Xml.named "w:hyperlink" p.body),
    ∀ m ∈ (d.blocks.flatMap Block.targets).zip (Xml.named "w:hyperlink" p.body),
      l.2.attribute? "r:id" = m.2.attribute? "r:id" ↔ l.1 = m.1
  /-- Each relationship leads somewhere, and a link refers to it. -/
  used : ∀ id url, (id, url) ∈ p.links →
    url ≠ "" ∧ ∃ x ∈ Xml.named "w:hyperlink" p.body, x.attribute? "r:id" = some id
  /-- Each relationship has an identifier of its own. -/
  ids : (firstRelationshipIds ++ p.links.map Prod.fst).Nodup
  /-- Paragraphs are written member by member. A link without an address is its runs. -/
  paragraphs : List.Forall₂ (Paragraph.Written true p.links) (d.blocks.flatMap Block.shown)
    (Xml.named "w:p" p.body)

theorem Block.ne_empty_of_mem_targets {b : Block} {url : String} (h : url ∈ b.targets) :
    url ≠ "" := by
  obtain ⟨p, -, hp⟩ := List.mem_flatMap.mp h
  obtain ⟨m, -, hm⟩ := List.mem_filterMap.mp hp
  cases m with
  | run r => cases hm
  | link v rs =>
    rintro rfl
    by_cases hv : v = "" <;> simp_all [Member.target?]

/-- However the targets of links are repeated or left empty, and wherever in paragraphs and tables
the links stand, a rendered document has all of them, each with the relationship to its target. -/
theorem Document.linked_of_render {d : Document} {p : Package} {warnings : List Warning}
    (h : d.render = .ok (p, warnings)) : p.Linked d := by
  have hcarries := d.carries_of_render _ h
  have hbody := hcarries.body p.targets List.prefix_rfl
  let urls := d.blocks.flatMap Block.targets
  have hlinks : List.Forall₂ (Xml.LeadsTo p.links) urls (Xml.named "w:hyperlink" p.body) := by
    have hurls : (d.blocks.flatMap Block.shown).flatMap Paragraph.targets = urls := by
      simp [urls, List.flatMap_assoc, Block.targets_shown]
    rw [← hurls]
    exact hbody.hyperlinks
  obtain ⟨hlength, hpair⟩ := List.forall₂_iff_zip.mp hlinks
  have hnodup : p.targets.Nodup := by
    rw [hcarries.targets]
    exact Targets.nodup_addAll List.nodup_nil urls
  refine ⟨hlinks, ?_, ?_, p.targets.ids_nodup, hbody.paragraphs⟩
  · rintro ⟨url, x⟩ hx ⟨v, y⟩ hy
    obtain ⟨id, hid, hlink⟩ := hpair hx
    obtain ⟨jd, hjd, hlink'⟩ := hpair hy
    rw [hid, hjd, Option.some_inj]
    exact Targets.ids_eq_iff hnodup hlink hlink'
  · intro id url hlink
    obtain ⟨i, hi, -⟩ := Targets.mem_links.mp hlink
    have hmet : url ∈ urls := by
      have hmem := List.mem_of_getElem? hi
      rw [hcarries.targets, Targets.mem_addAll] at hmem
      exact hmem.resolve_left List.not_mem_nil
    obtain ⟨b, -, hb⟩ := List.mem_flatMap.mp hmet
    obtain ⟨x, hx⟩ : ∃ x, (url, x) ∈ urls.zip (Xml.named "w:hyperlink" p.body) := by
      rw [← List.map_fst_zip hlength.le] at hmet
      obtain ⟨⟨v, x⟩, hx, rfl⟩ := List.mem_map.mp hmet
      exact ⟨x, hx⟩
    obtain ⟨jd, hjd, hlink'⟩ := hpair hx
    obtain rfl := (Targets.ids_eq_iff hnodup hlink hlink').mpr rfl
    exact ⟨Block.ne_empty_of_mem_targets hb, x, (List.of_mem_zip hx).2, hjd⟩

theorem Document.linked_of_render_ragged :
    let d : Document := { blocks := [
      .paragraph { members := [.link "a" [.text "x" {}], .link "" [.text "y" {}]] },
      .table { rows := [
        { cells := [{ paragraphs := [{ members := [.link "b" [.text "z" {}]] },
          { members := [.link "a" []] }] }, {}] },
        { cells := [] }] }] }
    ∃ p warnings, d.render = .ok (p, warnings) ∧ p.links = [("rId9", "a"), ("rId10", "b")] ∧
      p.Linked d := by
  intro d
  have hrender : ∃ p warnings, d.render = .ok (p, warnings) ∧
      p.links = [("rId9", "a"), ("rId10", "b")] := ⟨_, _, rfl, rfl⟩
  obtain ⟨p, warnings, hrender, hlinks⟩ := hrender
  exact ⟨p, warnings, hrender, hlinks, linked_of_render hrender⟩

end MarkdownWord.Word
