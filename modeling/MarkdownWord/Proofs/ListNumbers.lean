import MarkdownWord.Proofs.Counters
import MarkdownWord.Proofs.Outlines

/-!
# The numbers of numbered lists

All numbered lists of a document are one list of its file, so they are numbered by one counter for
each level. The number of an item is told by the paragraphs before its list that have counted at
the level, and by the items of the list before it with all their paragraphs. The number that the
list itself begins with plays no part (`Document.numbersShown_outline`).
-/

namespace MarkdownWord
open Word

namespace Occurrence

/-- Whether a paragraph stands in an item of a numbered list. -/
def isNumbered (t : Occurrence) : Bool := t.listKind? == some true

/-- How many of some occurrences, the last one first, are paragraphs of numbered lists at some depth
after the last one of less depth. -/
def counted (depth : Nat) (history : List Occurrence) : Nat :=
  ((history.filter isNumbered).takeWhile (depth ≤ ·.ancestors.nesting)).countP
    (·.ancestors.nesting = depth)

end Occurrence

namespace ListSite

/-- How many paragraphs have counted at the depth of the list before it begins. -/
def continued (x : ListSite) : Nat := Occurrence.counted x.depth x.before.reverse

/-- How many further paragraphs the first items have. -/
def further (x : ListSite) (k : Nat) : Nat :=
  ((x.items.take k).map fun item => item.children.tail.countP Node.isParagraph).sum

end ListSite

/-! ## What is shown -/

/-- The place of a paragraph in the standard lists. -/
def Occurrence.listPlace? (t : Occurrence) : Option ListPlace :=
  t.listKind?.map fun ordered => .standard ordered t.ancestors.nesting

theorem Occurrence.Composes.listPlace? {o : Overflow} {t : Occurrence} {bs : List Block}
    (h : t.Composes o 0 bs) (hnode : ∃ cs, t.node = .paragraph cs)
    (hdeep : t.listKind?.isSome → t.ancestors.nesting < ListScheme.levelCount)
    {xss : List (List Xml)} (hxss : List.Forall₂ Block.Placed bs xss) :
    (Xml.named "w:p" xss.flatten).map (Xml.listPlace? ListPart.standard.markup) =
      [t.listPlace?] := by
  obtain ⟨cs, hnode⟩ := hnode
  obtain ⟨q, rfl, hnumbering⟩ := h.paragraph cs hnode
  obtain ⟨xs, _, hxs, hnil, rfl⟩ := List.forall₂_cons_left_iff.mp hxss
  obtain rfl := List.forall₂_nil_left_iff.mp hnil
  obtain ⟨x, rfl, hx⟩ := hxs.2 q rfl
  have hone : Xml.named "w:p" [[x]].flatten = [x] := hx.alone
  rw [hone, List.map_singleton]
  congr 1
  cases hkind : t.listKind? with
  | none =>
    have hnone : q.numbering = none := hnumbering.trans (reference?_eq_none.mpr hkind)
    rw [Occurrence.listPlace?, hkind, Xml.listPlace?_of_none]
    · rfl
    · rw [hx.own, memberships_of_unnumbered hnone]
      rfl
  | some ordered =>
    have hlt : t.ancestors.nesting < ListScheme.levelCount := hdeep (by rw [hkind]; rfl)
    have hlevel : o.level (t.ancestors.base 0 + t.ancestors.nesting) = t.ancestors.nesting := by
      unfold ListScheme.levelCount at hlt
      rw [Overflow.level_of_le] <;> simp [Ancestors.base]
      omega
    have hsome : q.numbering =
        some ⟨ListScheme.referenceFor ordered, (t.ancestors.nesting : Int)⟩ := by
      rw [hnumbering, reference?, hkind, Option.map_some, hlevel]
    rw [Occurrence.listPlace?, hkind, Option.map_some]
    refine Xml.listPlace?_standard hlt ?_
    rw [hx.own, memberships_of_numbering hsome]
    rfl

theorem map_named_flatten {α β : Type} {tag : String} {read : Xml → β} {f : α → β} {as : List α}
    {parts : List (List Xml)}
    (h : List.Forall₂ (fun a xs => (Xml.named tag xs).map read = [f a]) as parts) :
    (Xml.named tag parts.flatten).map read = as.map f := by
  induction h with
  | nil => simp
  | cons hxs _ ih =>
    rw [List.flatten_cons, Xml.named_append, List.map_append, hxs, ih]
    rfl

namespace Word

variable {nodes : List Node} {size : Option Number} {o : Overflow} {p : Package}
  {ws : List Warning}

/-- What is shown for an outline is counted over its paragraphs. -/
theorem Document.numbersShown_eq (hnodes : Node.outline false 9 nodes = true)
    (h : (ofNodes nodes size o).render = .ok (p, ws)) :
    p.numbersShown =
      Counters.initial.numbers ((Node.occurrencesOf [] nodes).map Occurrence.listPlace?) := by
  obtain ⟨parts, hbody, hparts⟩ := Document.exists_parts_ofNodes h
  have hroom : Ancestors.HasRoom [] false 9 := by
    unfold Ancestors.HasRoom
    decide
  have hparagraph : ∀ t ∈ Node.occurrencesOf [] nodes, (∃ cs, t.node = .paragraph cs) ∧
      (t.listKind?.isSome → t.ancestors.nesting < ListScheme.levelCount) := fun t ht =>
    ⟨(Node.lower_occurrencesOf nodes hnodes t ht).1,
      Node.upper_occurrencesOf nodes hnodes hroom t ht⟩
  have hread : List.Forall₂ (fun t xs =>
      (Xml.named "w:p" xs).map (Xml.listPlace? p.lists.markup) = [Occurrence.listPlace? t])
      (Node.occurrencesOf [] nodes) (parts.map List.flatten) := by
    rw [(Document.holds_ofNodes h).1.lists, List.forall₂_map_right_iff]
    refine ((List.forall₂_and_left _ _).mpr ⟨hparagraph, hparts⟩).imp fun t xss hboth => ?_
    obtain ⟨⟨hnode, hdeep⟩, bs, hbs, hxss⟩ := hboth
    exact hbs.listPlace? hnode hdeep hxss
  rw [Package.numbersShown, ← hbody, map_named_flatten hread]

end Word

/-! ## Counting -/

namespace Occurrence

/-- Whether a paragraph counts at some depth. -/
def countsAt (depth : Nat) (t : Occurrence) : Bool :=
  t.isNumbered && t.ancestors.nesting == depth

theorem counted_append {depth : Nat} {recent history : List Occurrence}
    (h : ∀ t ∈ recent, depth ≤ t.ancestors.nesting) :
    counted depth (recent ++ history) = recent.countP (countsAt depth) + counted depth history := by
  have hkept : ∀ t ∈ recent.filter isNumbered, decide (depth ≤ t.ancestors.nesting) = true :=
    fun t ht => decide_eq_true (h t (List.mem_filter.mp ht).1)
  rw [counted, List.filter_append, List.takeWhile_append_of_pos hkept, List.countP_append,
    List.countP_filter]
  congr 1
  refine List.countP_congr fun t _ => ?_
  simp [countsAt, and_comm]

/-- What counts among occurrences is what counts among their places in the numbered list. -/
theorem counted_listPlaces (depth : Nat) (history : List Occurrence) :
    Counters.counted (ListPlace.standard true depth).list depth (history.filterMap listPlace?) =
      counted depth history := by
  induction history with
  | nil => rfl
  | cons t history ih =>
    cases hkind : t.listKind? with
    | none =>
      have hskip : counted depth (t :: history) = counted depth history := by
        simp [counted, isNumbered, hkind]
      have hplace : t.listPlace? = none := by simp [Occurrence.listPlace?, hkind]
      rw [List.filterMap_cons_none hplace, hskip, ih]
    | some ordered =>
      have hplace : t.listPlace? = some (.standard ordered t.ancestors.nesting) := by
        simp [Occurrence.listPlace?, hkind]
      rw [List.filterMap_cons_some hplace]
      cases ordered with
      | false =>
        -- Bullets are another list of the file, so they neither count nor make a level begin afresh.
        have hskip : counted depth (t :: history) = counted depth history := by
          simp [counted, isNumbered, hkind]
        have hother : (ListPlace.standard false t.ancestors.nesting).list ≠
            (ListPlace.standard true depth).list := by
          change toString 10 ≠ toString 11
          decide
        rw [Counters.counted_cons_of_ne hother, hskip, ih]
      | true =>
        have hsame : (ListPlace.standard true t.ancestors.nesting).list =
            (ListPlace.standard true depth).list := rfl
        rcases Nat.lt_trichotomy t.ancestors.nesting depth with hlt | heq | hgt
        · rw [Counters.counted_cons_of_lt hsame hlt]
          simp [counted, isNumbered, hkind, hlt]
        · rw [Counters.counted_cons_self hsame heq, ih]
          simp [counted, isNumbered, hkind, heq]
        · rw [Counters.counted_cons_of_gt hsame hgt, ih]
          have hne : t.ancestors.nesting ≠ depth := Nat.ne_of_gt hgt
          simp [counted, isNumbered, hkind, hgt.le, hne]

end Occurrence

namespace Node

theorem countP_item {deep : Nat} {cs : List Node} (h : outline false deep cs = true)
    {as : Ancestors} (hkind : as.listKind? = some true) :
    (occurrencesOf as cs).countP (Occurrence.countsAt as.nesting) = cs.countP isParagraph := by
  induction cs with
  | nil => simp [occurrencesOf]
  | cons n rest ih =>
    rw [outline, Bool.and_eq_true] at h
    rw [occurrencesOf, List.countP_append, ih h.2, List.countP_cons]
    cases n with
    | paragraph ds =>
      simp [occurrences, isParagraph, Occurrence.countsAt, Occurrence.isNumbered,
        Occurrence.listKind?, hkind, Nat.add_comm]
    | list ordered start items =>
      -- A list in an item is deeper than the item, of whichever kind it is.
      have hdeeper : ∀ t ∈ occurrencesOf (.list ordered start items :: as) items,
          ¬ t.countsAt as.nesting = true := by
        intro t ht hcounts
        simp only [isOutline, Bool.and_eq_true] at h
        have hlower := (lower_occurrencesOf items h.1.2 t ht).2
        rw [Ancestors.nesting_list, hkind] at hlower
        simp only [Occurrence.countsAt, Bool.and_eq_true, beq_iff_eq] at hcounts
        simp at hlower
        omega
      simp [occurrences, isParagraph, List.countP_eq_zero.mpr hdeeper]
    | _ => simp [isOutline] at h

/-- Each item of a numbered list counts once, and once more for each further paragraph. -/
theorem countP_items {deep : Nat} {items : List Node} (h : outline true deep items = true)
    {as : Ancestors} (hlist : ∀ checked cs, Ancestors.listKind? (.item checked cs :: as) = some true) :
    (occurrencesOf as items).countP (Occurrence.countsAt as.nesting) =
      items.length + (items.map fun item => item.children.tail.countP isParagraph).sum := by
  induction items with
  | nil => simp [occurrencesOf]
  | cons n rest ih =>
    obtain ⟨checked, ds, others, rfl, hcs⟩ := exists_item_of_outline h List.mem_cons_self
    rw [outline, Bool.and_eq_true] at h
    have hitem := countP_item hcs (hlist checked (.paragraph ds :: others))
    rw [Ancestors.nesting_cons as rfl rfl] at hitem
    have hfirst : List.countP isParagraph (.paragraph ds :: others) =
        others.countP isParagraph + 1 := List.countP_cons_of_pos rfl
    have htail : (item checked (.paragraph ds :: others)).children.tail = others := rfl
    rw [occurrencesOf, List.countP_append, occurrences, hitem, ih h.2, hfirst, List.map_cons,
      List.sum_cons, htail, List.length_cons]
    omega

end Node

namespace ListSite

variable {x : ListSite} {deep k : Nat}

/-- The paragraph at the place of an item of a numbered list counts at the depth of the list. What
has counted before it makes up its number. -/
theorem counted_before (h : Node.outline true deep x.items = true) (hordered : x.ordered = true)
    (hk : k < x.items.length) :
    Occurrence.counted x.depth
        (x.before ++ Node.occurrencesOf x.around (x.items.take k)).reverse =
      x.continued + k + x.further k := by
  have htake : Node.outline true deep (x.items.take k) = true := Node.outline_take h k
  have hlower : ∀ t ∈ (Node.occurrencesOf x.around (x.items.take k)).reverse,
      x.depth ≤ t.ancestors.nesting :=
    fun t ht => (Node.lower_occurrencesOf _ htake t (List.mem_reverse.mp ht)).2
  have hlist : ∀ checked cs, Ancestors.listKind? (.item checked cs :: x.around) = some true :=
    fun _ _ => congrArg some hordered
  have hcount := Node.countP_items htake hlist
  rw [List.length_take_of_le hk.le] at hcount
  rw [List.reverse_append, Occurrence.counted_append hlower, List.countP_reverse]
  unfold depth
  rw [hcount, continued, further, depth]
  omega

theorem listPlace?_item (h : Node.outline true deep x.items = true) (hk : k < x.items.length)
    (cs : List Node) :
    Occurrence.listPlace? ⟨x.items[k] :: x.around, .paragraph cs⟩ =
      some (.standard x.ordered x.depth) := by
  obtain ⟨checked, ds, others, hitem, -⟩ := Node.exists_item_of_outline h (List.getElem_mem hk)
  have hnesting : Ancestors.nesting (x.items[k] :: x.around) = x.depth := by
    rw [hitem]
    exact Ancestors.nesting_cons x.around rfl rfl
  have hkind : Ancestors.listKind? (x.items[k] :: x.around) = some x.ordered := by
    rw [hitem]
    rfl
  simp [Occurrence.listPlace?, Occurrence.listKind?, hkind, hnesting]

end ListSite

namespace Word

variable {nodes : List Node} {size : Option Number} {p : Package} {ws : List Warning}

/-- In a document made of paragraphs and lists, where each item begins with a paragraph, an item of
a numbered list is shown with a number that counts on from the paragraphs before the list. Items
before it count with all their paragraphs. -/
theorem Document.numbersShown_outline {policy : String}
    (hnodes : Node.outline false 9 nodes = true)
    (h : (ofNodes nodes size (.ofName policy)).render = .ok (p, ws)) :
    p.numbersShown.length = (Node.occurrencesOf [] nodes).length ∧
    ∀ x ∈ Node.listSitesOf [] [] nodes, x.ordered = true → ∀ (k : Nat) (hk : k < x.items.length),
      (∃ cs, x.items[k].children.head? = some (.paragraph cs) ∧
        (Node.occurrencesOf [] nodes)[x.place k]? =
          some ⟨x.items[k] :: x.around, .paragraph cs⟩) ∧
      p.numbersShown[x.place k]? =
        some (some ((1 + x.continued + k + x.further k : Nat) : Int)) := by
  have hshown := Document.numbersShown_eq hnodes h
  refine ⟨by rw [hshown, Counters.length_numbers, List.length_map], ?_⟩
  intro x hx hordered k hk
  obtain ⟨deep, hitems⟩ := Node.outline_listSitesOf nodes hnodes x hx
  obtain ⟨⟨cs, hhead, hget⟩, htake⟩ := ListSite.getElem?_place hx hitems hk
  refine ⟨⟨cs, hhead, hget⟩, ?_⟩
  have hplace := ListSite.listPlace?_item hitems hk cs
  rw [hordered] at hplace
  have hstart : ∀ m, some m ∈ (Node.occurrencesOf [] nodes).map Occurrence.listPlace? →
      m.start = 1 := by
    intro m hm
    obtain ⟨u, -, hu⟩ := List.mem_map.mp hm
    obtain ⟨ordered, -, rfl⟩ := Option.map_eq_some_iff.mp hu
    rfl
  have hi : ((Node.occurrencesOf [] nodes).map Occurrence.listPlace?)[x.place k]? =
      some (some (.standard true x.depth)) := by
    rw [List.getElem?_map, hget, Option.map_some, hplace]
  have hhistory : ((((Node.occurrencesOf [] nodes).map Occurrence.listPlace?).take
      (x.place k)).filterMap id).reverse =
      (x.before ++ Node.occurrencesOf x.around (x.items.take k)).reverse.filterMap
        Occurrence.listPlace? := by
    rw [← List.map_take, htake, List.filterMap_map, List.filterMap_reverse]
    rfl
  rw [hshown, (Counters.Follows.initial 1).numbers_getElem? hstart hi, hhistory, List.append_nil]
  have hcounted := Occurrence.counted_listPlaces x.depth
    (x.before ++ Node.occurrencesOf x.around (x.items.take k)).reverse
  rw [ListSite.counted_before hitems hordered hk] at hcounted
  have hlevel : (ListPlace.standard true x.depth).level = x.depth := rfl
  rw [hlevel, hcounted]
  congr 2
  push_cast
  omega

theorem Document.numbersShown_outline_nested :
    let nodes : List Node := [
      .list true none [.item none [.paragraph [], .paragraph []]],
      .paragraph [],
      .list false none [.item none [.paragraph [],
        .list true (some 7) [.item none [.paragraph []]]]],
      .list true (some 1) [.item none [.paragraph [], .list true none [.item none [.paragraph []]]],
        .item none [.paragraph []]]]
    Node.outline false 9 nodes = true ∧
    ∃ p ws, (ofNodes nodes none (.ofName "cycle")).render = .ok (p, ws) ∧
      p.numbersShown.length = 8 ∧ p.numbersShown[7]? = some (some 4) := by
  intro nodes
  have hnodes : Node.outline false 9 nodes = true := by decide
  have hwritable : Node.Writable (.ofName "cycle") nodes := by decide
  obtain ⟨p, ws, hrender⟩ := Document.exists_render_ofNodes hwritable
  obtain ⟨hlength, hshown⟩ := Document.numbersShown_outline hnodes hrender
  refine ⟨hnodes, p, ws, hrender, hlength.trans (by decide), ?_⟩
  have hsite : ∃ x ∈ Node.listSitesOf [] [] nodes, x.ordered = true ∧ 1 < x.items.length ∧
      x.place 1 = 7 ∧ 1 + x.continued + 1 + x.further 1 = 4 := by
    decide
  obtain ⟨x, hx, hordered, hk, hplace, hnumber⟩ := hsite
  have hlast := (hshown x hx hordered 1 hk).2
  rw [hplace, hnumber] at hlast
  exact hlast

/-- The first numbers that lists state are not those that are shown. -/
theorem Document.numbersShown_not_stated :
    let nodes : List Node := [
      .list true (some 3) [
        .item none [.paragraph [.text "a"], .paragraph [.text "b"]],
        .item none [.paragraph [.text "c"]]],
      .list true (some 1) [.item none [.paragraph [.text "d"]]]]
    Node.outline false 9 nodes = true ∧
    ∃ p ws, (ofNodes nodes none (.ofName "clamp")).render = .ok (p, ws) ∧
      p.numbersShown = [some 1, some 2, some 3, some 4] ∧
      ¬ ∀ x ∈ Node.listSitesOf [] [] nodes, x.ordered = true → ∀ s, x.start = some s →
        ∀ k < x.items.length, p.numbersShown[x.place k]? = some (some (s + k)) := by
  intro nodes
  have hnodes : Node.outline false 9 nodes = true := by decide
  have hwritable : Node.Writable (.ofName "clamp") nodes := by decide
  obtain ⟨p, ws, hrender⟩ := Document.exists_render_ofNodes hwritable
  have hshown : p.numbersShown = [some 1, some 2, some 3, some 4] := by
    rw [Document.numbersShown_eq hnodes hrender]
    decide
  refine ⟨hnodes, p, ws, hrender, hshown, fun hstated => ?_⟩
  have hfirst := hstated _ List.mem_cons_self rfl 3 rfl 0 (by decide)
  rw [hshown] at hfirst
  cases hfirst

end Word
end MarkdownWord