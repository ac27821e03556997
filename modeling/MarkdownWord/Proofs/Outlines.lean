import MarkdownWord.Proofs.Occurrences

/-!
# Outlines

An outline is made of paragraphs and of lists of them, which are not nested too deep. All that is
reached in it are paragraphs. A list splits them into those before it, those in its items and those
after it, which gives the items their places (`ListSite.getElem?_place`).
-/

namespace MarkdownWord
open Word

namespace Node

def isParagraph : Node → Bool
  | .paragraph _ => true
  | _ => false

mutual
/-- Whether a node is a paragraph or a list or, in a list, an item that begins with a paragraph. -/
def isOutline (inList : Bool) (deep : Nat) : Node → Bool
  | .paragraph _ => !inList
  | .list _ _ items => !inList && 0 < deep && outline true (deep - 1) items
  | .item _ cs => inList && cs.head?.any isParagraph && outline false deep cs
  | _ => false

/-- Whether some nodes are made of paragraphs and lists, which are nested at most some number deep.
The nodes in a list are items, each of which begins with a paragraph. -/
def outline (inList : Bool) (deep : Nat) : List Node → Bool
  | [] => true
  | n :: rest => n.isOutline inList deep && outline inList deep rest
end

end Node

/-- A list of a tree, with the containers around it and what is reached before it. -/
structure ListSite where
  ancestors : Ancestors
  ordered : Bool
  start : Option Int
  items : List Node
  before : List Occurrence

mutual
/-- The lists of an outline, in reading order, with some containers around it and after some
occurrences. -/
def Node.listSites (as : Ancestors) (before : List Occurrence) : Node → List ListSite
  | .list ordered start items =>
    ⟨as, ordered, start, items, before⟩ :: listSitesOf (.list ordered start items :: as) before items
  | .item checked cs => listSitesOf (.item checked cs :: as) before cs
  | _ => []

def Node.listSitesOf (as : Ancestors) (before : List Occurrence) : List Node → List ListSite
  | [] => []
  | n :: rest => n.listSites as before ++ listSitesOf as (before ++ n.occurrences as) rest
end

namespace ListSite

/-- The containers around the items. -/
def around (x : ListSite) : Ancestors := .list x.ordered x.start x.items :: x.ancestors

/-- How many lists the list is nested in through their items. -/
def depth (x : ListSite) : Nat := x.around.nesting

/-- The place of an item of an outline among all paragraphs. -/
def place (x : ListSite) (k : Nat) : Nat :=
  x.before.length + (Node.occurrencesOf x.around (x.items.take k)).length

end ListSite

/-! ## Occurrences in outlines -/

namespace Node

mutual
private theorem lower_occurrences {inList : Bool} {deep : Nat} : ∀ (n : Node) {as : Ancestors},
    n.isOutline inList deep = true →
      ∀ t ∈ n.occurrences as, (∃ cs, t.node = .paragraph cs) ∧
        as.nesting ≤ t.ancestors.nesting
  | n, as, h, t, ht => by
    cases n with
    | paragraph cs =>
      simp only [occurrences, List.mem_singleton] at ht
      subst ht
      exact ⟨⟨cs, rfl⟩, le_rfl⟩
    | list ordered start items =>
      simp only [isOutline, Bool.and_eq_true] at h
      obtain ⟨hparagraph, hlower⟩ := lower_occurrencesOf items h.2 t ht
      rw [Ancestors.nesting_list] at hlower
      exact ⟨hparagraph, by omega⟩
    | item checked cs =>
      simp only [isOutline, Bool.and_eq_true] at h
      obtain ⟨hparagraph, hlower⟩ := lower_occurrencesOf cs h.2 t ht
      rw [Ancestors.nesting_cons as rfl rfl] at hlower
      exact ⟨hparagraph, hlower⟩
    | _ => simp [isOutline] at h

/-- All that is reached in an outline are paragraphs, none of them less deep. -/
theorem lower_occurrencesOf {inList : Bool} {deep : Nat} : ∀ (ns : List Node) {as : Ancestors},
    outline inList deep ns = true →
      ∀ t ∈ occurrencesOf as ns, (∃ cs, t.node = .paragraph cs) ∧
        as.nesting ≤ t.ancestors.nesting
  | [], _, _, t, ht => by
    rw [occurrencesOf] at ht
    cases ht
  | n :: rest, as, h, t, ht => by
    rw [outline, Bool.and_eq_true] at h
    rw [occurrencesOf] at ht
    rcases List.mem_append.mp ht with ht | ht
    · exact lower_occurrences n h.1 t ht
    · exact lower_occurrencesOf rest h.2 t ht
end

end Node

/-- Lists may be nested some number deep in some containers without being too deep all in all. -/
def Ancestors.HasRoom (as : Ancestors) (inList : Bool) (deep : Nat) : Prop :=
  (as.nesting + if inList || as.listKind?.isSome then 1 else 0) + deep ≤ ListScheme.levelCount

namespace Node

mutual
private theorem upper_occurrences : ∀ (n : Node) {inList : Bool} {deep : Nat} {as : Ancestors},
    n.isOutline inList deep = true → as.HasRoom inList deep →
      ∀ t ∈ n.occurrences as, t.listKind?.isSome →
        t.ancestors.nesting < ListScheme.levelCount
  | n, inList, deep, as, h, hdeep, t, ht, hkind => by
    unfold Ancestors.HasRoom at hdeep
    cases n with
    | paragraph cs =>
      simp only [occurrences, List.mem_singleton] at ht
      subst ht
      have hsome : as.listKind?.isSome = true := hkind
      rw [hsome, Bool.or_true, if_pos rfl] at hdeep
      change as.nesting < _
      omega
    | list ordered start items =>
      simp only [isOutline, Bool.and_eq_true, Bool.not_eq_true', decide_eq_true_eq] at h
      obtain ⟨⟨rfl, hpos⟩, hitems⟩ := h
      refine upper_occurrencesOf items hitems ?_ t ht hkind
      unfold Ancestors.HasRoom
      rw [Ancestors.nesting_list]
      simp only [Bool.false_or, Bool.true_or, if_true] at hdeep ⊢
      omega
    | item checked cs =>
      simp only [isOutline, Bool.and_eq_true] at h
      obtain ⟨⟨rfl, -⟩, hcs⟩ := h
      refine upper_occurrencesOf cs hcs ?_ t ht hkind
      unfold Ancestors.HasRoom
      rw [Ancestors.nesting_cons as rfl rfl]
      simp only [Bool.true_or, if_true] at hdeep
      split <;> omega
    | _ => simp [isOutline] at h

/-- No paragraph of a list is too deep in an outline. -/
theorem upper_occurrencesOf : ∀ (ns : List Node) {inList : Bool} {deep : Nat} {as : Ancestors},
    outline inList deep ns = true → as.HasRoom inList deep →
      ∀ t ∈ occurrencesOf as ns, t.listKind?.isSome →
        t.ancestors.nesting < ListScheme.levelCount
  | [], _, _, _, _, _, t, ht, _ => by
    rw [occurrencesOf] at ht
    cases ht
  | n :: rest, inList, deep, as, h, hdeep, t, ht, hkind => by
    rw [outline, Bool.and_eq_true] at h
    rw [occurrencesOf] at ht
    rcases List.mem_append.mp ht with ht | ht
    · exact upper_occurrences n h.1 hdeep t ht hkind
    · exact upper_occurrencesOf rest h.2 hdeep t ht hkind
end

end Node

/-! ## Lists of outlines -/

namespace Node

mutual
private theorem split_listSites : ∀ (n : Node) {as : Ancestors} {before : List Occurrence},
    ∀ x ∈ n.listSites as before, ∃ after,
      before ++ n.occurrences as = x.before ++ occurrencesOf x.around x.items ++ after
  | n, as, before, x, hx => by
    cases n with
    | list ordered start items =>
      rw [occurrences]
      rcases List.mem_cons.mp hx with rfl | hx
      · exact ⟨[], by simp [ListSite.around]⟩
      · exact split_listSitesOf items x hx
    | item checked cs =>
      rw [occurrences]
      exact split_listSitesOf cs x hx
    | _ => cases hx

/-- What is reached in an outline is what comes before one of its lists, what is reached in the
list, and what comes after it. -/
theorem split_listSitesOf : ∀ (ns : List Node) {as : Ancestors} {before : List Occurrence},
    ∀ x ∈ listSitesOf as before ns, ∃ after,
      before ++ occurrencesOf as ns = x.before ++ occurrencesOf x.around x.items ++ after
  | [], _, _, x, hx => by cases hx
  | n :: rest, as, before, x, hx => by
    rw [occurrencesOf]
    rcases List.mem_append.mp hx with hx | hx
    · obtain ⟨after, hafter⟩ := split_listSites n x hx
      refine ⟨after ++ occurrencesOf as rest, ?_⟩
      rw [← List.append_assoc, hafter, List.append_assoc]
    · rw [← List.append_assoc]
      exact split_listSitesOf rest x hx
end

mutual
private theorem outline_listSites : ∀ (n : Node) {inList : Bool} {deep : Nat} {as : Ancestors}
    {before : List Occurrence}, n.isOutline inList deep = true →
      ∀ x ∈ n.listSites as before, ∃ deep', outline true deep' x.items = true
  | n, inList, deep, as, before, h, x, hx => by
    cases n with
    | list ordered start items =>
      simp only [isOutline, Bool.and_eq_true] at h
      rcases List.mem_cons.mp hx with rfl | hx
      · exact ⟨deep - 1, h.2⟩
      · exact outline_listSitesOf items h.2 x hx
    | item checked cs =>
      simp only [isOutline, Bool.and_eq_true] at h
      exact outline_listSitesOf cs h.2 x hx
    | _ => cases hx

theorem outline_listSitesOf : ∀ (ns : List Node) {inList : Bool} {deep : Nat} {as : Ancestors}
    {before : List Occurrence}, outline inList deep ns = true →
      ∀ x ∈ listSitesOf as before ns, ∃ deep', outline true deep' x.items = true
  | [], _, _, _, _, _, x, hx => by cases hx
  | n :: rest, inList, deep, as, before, h, x, hx => by
    rw [outline, Bool.and_eq_true] at h
    rcases List.mem_append.mp hx with hx | hx
    · exact outline_listSites n h.1 x hx
    · exact outline_listSitesOf rest h.2 x hx
end

theorem outline_take {inList : Bool} {deep : Nat} {ns : List Node}
    (h : outline inList deep ns = true) (k : Nat) : outline inList deep (ns.take k) = true := by
  induction ns generalizing k with
  | nil => simpa using h
  | cons n ns ih =>
    rw [outline, Bool.and_eq_true] at h
    cases k with
    | zero => rw [List.take_zero, outline]
    | succ k =>
      rw [List.take_succ_cons, outline, Bool.and_eq_true]
      exact ⟨h.1, ih h.2 k⟩

/-- The items of a list in an outline begin with paragraphs. -/
theorem exists_item_of_outline {deep : Nat} {items : List Node} (h : outline true deep items = true)
    {n : Node} (hn : n ∈ items) :
    ∃ checked ds rest, n = .item checked (.paragraph ds :: rest) ∧
      outline false deep (.paragraph ds :: rest) = true := by
  induction items with
  | nil => cases hn
  | cons m items ih =>
    rw [outline, Bool.and_eq_true] at h
    rcases List.mem_cons.mp hn with rfl | hn
    · cases n with
      | item checked cs =>
        simp only [isOutline, Bool.true_and, Bool.and_eq_true] at h
        obtain ⟨⟨hbegin, hcs⟩, -⟩ := h
        cases cs with
        | nil => cases hbegin
        | cons first rest =>
          cases first with
          | paragraph ds => exact ⟨checked, ds, rest, rfl, hcs⟩
          | _ => cases hbegin
      | _ => simp [isOutline] at h
    · exact ih h.2 hn

end Node

namespace ListSite

variable {x : ListSite} {deep k : Nat}

/-- At the place of an item stands its first paragraph. -/
theorem getElem?_place {nodes : List Node} (hx : x ∈ Node.listSitesOf [] [] nodes)
    (h : Node.outline true deep x.items = true) (hk : k < x.items.length) :
    (∃ cs, x.items[k].children.head? = some (.paragraph cs) ∧
      (Node.occurrencesOf [] nodes)[x.place k]? =
        some ⟨x.items[k] :: x.around, .paragraph cs⟩) ∧
    (Node.occurrencesOf [] nodes).take (x.place k) =
      x.before ++ Node.occurrencesOf x.around (x.items.take k) := by
  obtain ⟨after, hsplit⟩ := Node.split_listSitesOf nodes x hx
  obtain ⟨checked, cs, others, hitem, -⟩ :=
    Node.exists_item_of_outline h (List.getElem_mem hk)
  let before := x.before ++ Node.occurrencesOf x.around (x.items.take k)
  have hplace : x.place k = before.length := by
    rw [place, List.length_append]
  -- What is reached in the list is cut before the item, which begins with its paragraph.
  have hitems : Node.occurrencesOf x.around x.items =
      Node.occurrencesOf x.around (x.items.take k) ++
        ⟨x.items[k] :: x.around, .paragraph cs⟩ ::
          (Node.occurrencesOf (x.items[k] :: x.around) others ++
            Node.occurrencesOf x.around (x.items.drop (k + 1))) := by
    have hparts : x.items = x.items.take k ++ x.items[k] :: x.items.drop (k + 1) := by
      rw [← List.drop_eq_getElem_cons hk, List.take_append_drop]
    have hsplice := congrArg (Node.occurrencesOf x.around) hparts
    rw [Node.occurrencesOf_append, hitem] at hsplice
    rw [hsplice, hitem]
    simp [Node.occurrencesOf, Node.occurrences]
  have hwhole : ∃ rest, Node.occurrencesOf [] nodes =
      before ++ ⟨x.items[k] :: x.around, .paragraph cs⟩ :: rest := by
    rw [List.nil_append, hitems] at hsplit
    exact ⟨_, by simpa [before] using hsplit⟩
  obtain ⟨rest, hwhole⟩ := hwhole
  refine ⟨⟨cs, by rw [hitem]; rfl, ?_⟩, ?_⟩
  · rw [hwhole, hplace, List.getElem?_append_right le_rfl, Nat.sub_self]
    rfl
  · rw [hwhole, hplace, List.take_left]

end ListSite
end MarkdownWord
