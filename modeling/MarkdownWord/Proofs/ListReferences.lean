import MarkdownWord.Proofs.ComposedLayout
import MarkdownWord.Proofs.Elements
import MarkdownWord.Proofs.ListLevels
import MarkdownWord.Proofs.Packing
import MarkdownWord.Proofs.Rendered

/-!
# What memberships in lists refer to

A membership names an instance of the list part, the instance names an abstract list, and this one
has a level for the membership. Whatever a tree is like and however deep its lists are nested, each
membership in its document leads to one level in this way (`Document.resolves_render_ofNodes`).
-/

namespace MarkdownWord
namespace Word

/-! ## Levels of the list part -/

namespace Xml

/-- The only one of some elements with a tag whose attribute has a value. -/
def only? (tag name value : String) (xs : List Xml) : Option Xml :=
  match xs.filter fun x => x.tag == tag && x.attribute? name == some value with
  | [x] => some x
  | _ => none

/-- The level that a membership leads to, if there is exactly one at each stage. -/
def level? (part : List Xml) (membership : Xml) : Option Xml := do
  let number ← value? "w:numId" membership.children
  let listInstance ← only? "w:num" "w:numId" number part
  let id ← value? "w:abstractNumId" listInstance.children
  let abstractList ← only? "w:abstractNum" "w:abstractNumId" id part
  let level ← value? "w:ilvl" membership.children
  only? "w:lvl" "w:ilvl" level abstractList.children

/-- The membership in a standard list, numbered or not, at a level. -/
def standardMembership (ordered : Bool) (level : Int) : Xml :=
  .group "w:numPr" [.valued "w:ilvl" (toString level),
    .valued "w:numId" (toString (if ordered then 11 else 10))]

/-- Each level of each standard list is there, numbered or not as it should be. -/
theorem level?_standard : ∀ (ordered : Bool) (i : Fin 9),
    ((level? ListPart.standard.markup (standardMembership ordered i)).map fun x =>
      (value? "w:numFmt" x.children, value? "w:start" x.children)) =
    some (some (if ordered then (ListScheme.numberMark i).1 else "bullet"), some "1") := by
  decide +kernel

theorem exists_level_standard (ordered : Bool) {level : Int} (hlow : 0 ≤ level)
    (hhigh : level < ListScheme.levelCount) :
    ∃ x format, level? ListPart.standard.markup (standardMembership ordered level) = some x ∧
      value? "w:numFmt" x.children = some format ∧ (format = "bullet" ↔ ordered = false) ∧
      value? "w:start" x.children = some "1" := by
  obtain ⟨n, rfl⟩ := Int.eq_ofNat_of_zero_le hlow
  have hn : n < 9 := by
    unfold ListScheme.levelCount at hhigh
    omega
  obtain ⟨x, hx, hvalues⟩ := Option.map_eq_some_iff.mp (level?_standard ordered ⟨n, hn⟩)
  obtain ⟨hformat, hstart⟩ := Prod.mk.inj hvalues
  refine ⟨x, _, hx, hformat, ?_, hstart⟩
  have hnumbered : ∀ i : Fin 9, (ListScheme.numberMark i).1 ≠ "bullet" := by decide
  cases ordered with
  | false => simp
  | true => simpa using hnumbered ⟨n, hn⟩

end Xml

theorem find?_standard (ordered : Bool) :
    ListNumbers.standard.find? (ListScheme.referenceFor ordered) =
      some (if ordered then 11 else 10) := by
  cases ordered <;> decide

theorem memberships_of_numbering {p : Paragraph} {ordered : Bool} {level : Int}
    (h : p.numbering = some ⟨ListScheme.referenceFor ordered, level⟩) :
    p.memberships .standard = [Xml.standardMembership ordered level] := by
  simp [Paragraph.memberships, h, listMembership, find?_standard, Xml.standardMembership]

theorem memberships_of_unnumbered {p : Paragraph} (h : p.numbering = none) :
    p.memberships .standard = [] := by
  simp [Paragraph.memberships, h]

/-! ## Warnings -/

theorem warnings_of_numbering {p : Paragraph} {ordered : Bool} {level : Int}
    (h : p.numbering = some ⟨ListScheme.referenceFor ordered, level⟩) :
    p.warnings .standard = [] := by
  simp [Paragraph.warnings, h, find?_standard]

theorem Block.warnings_of_unnumbered {b : Block} (h : ∀ p ∈ b.paragraphs, p.numbering = none)
    (hkind : ∀ kind, b ≠ .foreign kind) {w : Warning} (hw : w ∈ b.warnings .standard) :
    w = .emptyTable := by
  have hparagraph (p : Paragraph) (hp : p ∈ b.paragraphs) : p.warnings .standard = [] := by
    simp [Paragraph.warnings, h p hp]
  cases b with
  | paragraph p =>
    rw [Block.warnings, hparagraph p (List.mem_singleton.mpr rfl)] at hw
    cases hw
  | table t =>
    rw [Block.warnings] at hw
    split at hw
    · exact List.mem_singleton.mp hw
    · obtain ⟨r, hr, hcells⟩ := List.mem_flatMap.mp hw
      obtain ⟨c, hc, hparagraphs⟩ := List.mem_flatMap.mp hcells
      obtain ⟨p, hp, hmem⟩ := List.mem_flatMap.mp hparagraphs
      have hin : p ∈ (Block.table t).paragraphs :=
        List.mem_flatMap.mpr ⟨r, hr, List.mem_flatMap.mpr ⟨c, hc, hp⟩⟩
      rw [hparagraph p hin] at hmem
      cases hmem
  | foreign kind => exact absurd rfl (hkind kind)

end Word
open Word

theorem Occurrence.Composes.warnings {o : Overflow} {start : Int} {t : Occurrence}
    {bs : List Block} (h : t.Composes o start bs) :
    ∀ b ∈ bs, ∀ w ∈ b.warnings .standard, w = .emptyTable := by
  intro b hb w hw
  cases hkind : t.listKind? with
  | none =>
    refine Block.warnings_of_unnumbered (h.unnumbered hkind b hb) (fun kind hforeign => ?_) hw
    obtain ⟨a, ha, rfl | rfl⟩ := h.made b hb
    · exact (ha.ne_foreign kind).1 hforeign
    · exact (ha.ne_foreign kind).2 hforeign
  | some ordered =>
    obtain ⟨p, rfl, hp⟩ := h.item hkind
    rw [List.mem_singleton.mp hb, Block.warnings, warnings_of_numbering hp] at hw
    cases hw

/-! ## Memberships -/

/-- The elements of a node hold one membership in a list if the node is a paragraph in an item of a
list, and none otherwise. The membership leads to a level, whose marks are bullets if the list is
not numbered, and only then. -/
structure Occurrence.Resolves (part : List Xml) (t : Occurrence) (xs : List Xml) : Prop where
  item : ∀ ordered, t.listKind? = some ordered → ∃ x m level format,
    xs = [x] ∧ x.membership? = some m ∧ Xml.named "w:numPr" xs = [m] ∧
    Xml.level? part m = some level ∧ Xml.value? "w:numFmt" level.children = some format ∧
    (format = "bullet" ↔ ordered = false)
  other : t.listKind? = none → Xml.named "w:numPr" xs = []

namespace Occurrence.Resolves

variable {part : List Xml} {t : Occurrence} {xs : List Xml}

theorem isSome_level? (h : t.Resolves part xs) :
    ∀ m ∈ Xml.named "w:numPr" xs, (Xml.level? part m).isSome := by
  intro m hm
  cases hkind : t.listKind? with
  | none =>
    rw [h.other hkind] at hm
    cases hm
  | some ordered =>
    obtain ⟨_, m', level, _, -, -, hnamed, hlevel, -⟩ := h.item ordered hkind
    rw [hnamed] at hm
    rw [List.mem_singleton.mp hm, hlevel]
    rfl

theorem length_named (h : t.Resolves part xs) :
    (Xml.named "w:numPr" xs).length = if t.listKind?.isSome then 1 else 0 := by
  cases hkind : t.listKind? with
  | none =>
    rw [h.other hkind]
    rfl
  | some ordered =>
    obtain ⟨_, m', level, _, -, -, hnamed, -⟩ := h.item ordered hkind
    rw [hnamed]
    rfl

theorem length_flatten {ts : List Occurrence} {parts : List (List Xml)}
    (h : List.Forall₂ (Occurrence.Resolves part) ts parts) :
    (Xml.named "w:numPr" parts.flatten).length = ts.countP (·.listKind?.isSome) := by
  induction h with
  | nil => simp
  | cons ht _ ih =>
    rw [List.flatten_cons, Xml.named_append, List.length_append, ih, ht.length_named,
      List.countP_cons, Nat.add_comm]

end Occurrence.Resolves

/-- What is known of the elements of a block that is composed. -/
def Word.Block.Placed (b : Block) (xs : List Xml) : Prop :=
  Xml.named "w:numPr" xs = b.memberships .standard ∧
    ∀ p, b = .paragraph p → ∃ x, xs = [x] ∧ x.IsParagraph (p.memberships .standard)

theorem Occurrence.Composes.resolves {o : Overflow} {start : Int} {t : Occurrence}
    {bs : List Block} (h : t.Composes o start bs) {parts : List (List Xml)}
    (hparts : List.Forall₂ Block.Placed bs parts) :
    t.Resolves ListPart.standard.markup parts.flatten where
  item ordered hkind := by
    obtain ⟨p, rfl, hp⟩ := h.item hkind
    obtain ⟨xs, _, hxs, hnil, rfl⟩ := List.forall₂_cons_left_iff.mp hparts
    obtain rfl := List.forall₂_nil_left_iff.mp hnil
    obtain ⟨x, rfl, hx⟩ := hxs.2 p rfl
    obtain ⟨level, format, hlevel, hformat, hbullet, -⟩ :=
      Xml.exists_level_standard ordered (o.level_nonneg _) (o.level_lt _)
    have hmembership := memberships_of_numbering hp
    refine ⟨x, _, level, format, by simp, ?_, ?_, hlevel, hformat, hbullet⟩
    · rw [hx.own, hmembership]
      rfl
    · simpa [hmembership] using hx.all
  other hkind := by
    have hnone := h.unnumbered hkind
    have hblock (b : Block) (hb : b ∈ bs) : b.memberships .standard = [] :=
      List.flatMap_eq_nil_iff.mpr fun p hp => memberships_of_unnumbered (hnone b hb p hp)
    have hparts := (List.forall₂_and_left bs parts).mpr ⟨hblock, hparts⟩
    have hempty : ∀ xs ∈ parts, Xml.named "w:numPr" xs = [] :=
      forall_mem_of_forall₂ (hparts.imp fun b xs hb => hb.2.1.trans hb.1)
    rw [Xml.named_flatten]
    exact List.flatMap_eq_nil_iff.mpr hempty

/-! ## Documents -/

theorem forall₂_comp {α β γ : Type} {r : α → β → Prop} {s : β → γ → Prop} {as : List α}
    {bs : List β} {cs : List γ} (hr : List.Forall₂ r as bs) (hs : List.Forall₂ s bs cs) :
    List.Forall₂ (fun a c => ∃ b, r a b ∧ s b c) as cs := by
  induction hr generalizing cs with
  | nil =>
    obtain rfl := List.forall₂_nil_left_iff.mp hs
    exact .nil
  | cons hab _ ih =>
    obtain ⟨c, cs, hbc, hrest, rfl⟩ := List.forall₂_cons_left_iff.mp hs
    exact .cons ⟨_, hab, hbc⟩ (ih hrest)

theorem exists_forall₂_flatten {α β : Type} {r : α → β → Prop} {groups : List (List α)}
    {bs : List β} (h : List.Forall₂ r groups.flatten bs) :
    ∃ parts, parts.flatten = bs ∧ List.Forall₂ (List.Forall₂ r) groups parts := by
  induction groups generalizing bs with
  | nil => exact ⟨[], (List.forall₂_nil_left_iff.mp h).symm, .nil⟩
  | cons as groups ih =>
    have hfirst := (List.forall₂_take_append _ _ _ h.flip).flip
    have hrest := (List.forall₂_drop_append _ _ _ h.flip).flip
    obtain ⟨parts, hparts, hgroups⟩ := ih hrest
    refine ⟨bs.take as.length :: parts, ?_, .cons hfirst hgroups⟩
    rw [List.flatten_cons, hparts, List.take_append_drop]

namespace Word

variable {nodes : List Node} {size : Option Number} {o : Overflow} {p : Package}
  {ws : List Warning}

theorem Document.holds_ofNodes (h : (ofNodes nodes size o).render = .ok (p, ws)) :
    p.Holds Block.Placed (Node.blocksAll o 0 nodes) ∧
      ws = (Node.blocksAll o 0 nodes).flatMap (Block.warnings .standard) := by
  have hmarkup : ∀ b ∈ (ofNodes nodes size o).blocks, ∀ t,
      Leaves (b.markup ⟨.standard, true⟩) t fun xs _ => b.Placed xs :=
    fun b _ t => b.memberships_markup .standard true t
  exact Document.rendered_of_markup rfl hmarkup _ h

/-- The body of a document made of nodes falls into parts, one for each node that is reached. Each
part holds the elements of the blocks that the node is composed to. -/
theorem Document.exists_parts_ofNodes (h : (ofNodes nodes size o).render = .ok (p, ws)) :
    ∃ parts : List (List (List Xml)), (parts.map List.flatten).flatten = p.body ∧
      List.Forall₂ (fun t xss => ∃ bs, Occurrence.Composes o 0 t bs ∧
        List.Forall₂ Block.Placed bs xss) (Node.occurrencesOf [] nodes) parts := by
  obtain ⟨elements, helements, hbody⟩ := (Document.holds_ofNodes h).1.body
  obtain ⟨groups, hgroups, hcomposes⟩ := Node.composes_occurrencesOf o 0 nodes
  rw [← hgroups] at helements
  obtain ⟨parts, hparts, hplaced⟩ := exists_forall₂_flatten helements
  refine ⟨parts, ?_, forall₂_comp hcomposes hplaced⟩
  rw [hbody, ← hparts, List.flatten_flatten]

theorem Document.warnings_ofNodes (h : (ofNodes nodes size o).render = .ok (p, ws)) :
    ∀ w ∈ ws, w = .emptyTable := by
  intro w hw
  obtain ⟨groups, hgroups, hcomposes⟩ := Node.composes_occurrencesOf o 0 nodes
  rw [(Document.holds_ofNodes h).2, ← hgroups] at hw
  obtain ⟨b, hb, hmem⟩ := List.mem_flatMap.mp hw
  obtain ⟨bs, hbs, hin⟩ := List.mem_flatten.mp hb
  have hall := forall_mem_of_forall₂ (hcomposes.imp fun t bs ht => ht.warnings)
  exact hall bs hbs b hin w hmem

/-- In a document made of nodes every membership in a list leads to exactly one level of the list
part, of the right kind. There is one for each paragraph that an item of a list holds. The only
warnings are about empty tables. -/
theorem Document.resolves_render_ofNodes {policy : String}
    (h : (ofNodes nodes size (.ofName policy)).render = .ok (p, ws)) :
    (∃ parts, parts.flatten = p.body ∧
      List.Forall₂ (Occurrence.Resolves p.lists.markup) (Node.occurrencesOf [] nodes) parts) ∧
    (∀ m ∈ Xml.named "w:numPr" p.body, (Xml.level? p.lists.markup m).isSome) ∧
    (Xml.named "w:numPr" p.body).length =
      (Node.occurrencesOf [] nodes).countP (·.listKind?.isSome) ∧
    ∀ w ∈ ws, w = .emptyTable := by
  obtain ⟨parts, hbody, hplaced⟩ := Document.exists_parts_ofNodes h
  have hresolves : List.Forall₂ (Occurrence.Resolves p.lists.markup) (Node.occurrencesOf [] nodes)
      (parts.map List.flatten) := by
    rw [(Document.holds_ofNodes h).1.lists, List.forall₂_map_right_iff]
    refine hplaced.imp fun t xss hboth => ?_
    obtain ⟨bs, hbs, hxss⟩ := hboth
    exact hbs.resolves hxss
  refine ⟨⟨_, hbody, hresolves⟩, ?_, ?_, Document.warnings_ofNodes h⟩
  · intro m hm
    rw [← hbody, Xml.named_flatten] at hm
    obtain ⟨xs, hxs, hmem⟩ := List.mem_flatMap.mp hm
    have hall := forall_mem_of_forall₂ (hresolves.imp fun t xs ht => ht.isSome_level?)
    exact hall xs hxs m hmem
  · rw [← hbody]
    exact Occurrence.Resolves.length_flatten hresolves

theorem Document.resolves_render_ofNodes_mixed :
    let nodes : List Node := [
      .parent "" [.list true (some 3) [.item none [.paragraph [.text "a"],
        .quote [.list false none [.item none [.paragraph [], .paragraph []]]]]]],
      .table [] [], .item none [.paragraph []]]
    ∃ p ws, (ofNodes nodes none (.ofName "other")).render = .ok (p, ws) ∧
      (Xml.named "w:numPr" p.body).length = 3 ∧
      (∀ m ∈ Xml.named "w:numPr" p.body, (Xml.level? p.lists.markup m).isSome) ∧
      ∀ w ∈ ws, w = .emptyTable := by
  intro nodes
  have hwritable : Node.Writable (.ofName "other") nodes := by decide
  obtain ⟨p, ws, hrender⟩ := Document.exists_render_ofNodes hwritable
  obtain ⟨-, hall, hlength, hwarnings⟩ := Document.resolves_render_ofNodes hrender
  exact ⟨p, ws, hrender, hlength.trans (by decide), hall, hwarnings⟩

end Word
end MarkdownWord
