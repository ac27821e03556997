import MarkdownWord.Proofs.BlockLooks
import MarkdownWord.Proofs.ListReferences

/-!
# Entering list schemes

Schemes are entered into the list part of a document file call by call, and a call stops at a
scheme with a text that XML cannot hold. Whatever the calls are, the part stays in order and its
numbers stay apart, and a name stands for the last scheme that its call has entered for it
(`ListPart.afterCalls_initial`).
-/

namespace MarkdownWord.Word

/-! ## Two places in a list of elements -/

/-- Where no two members of a list have the same value, only one has the value of a member. -/
theorem filter_eq_singleton {α β : Type} [BEq β] [LawfulBEq β] {f : α → β} {as : List α} {a : α}
    (hnodup : (as.map f).Nodup) (ha : a ∈ as) : as.filter (f · == f a) = [a] := by
  induction as with
  | nil => cases ha
  | cons b as ih =>
    obtain ⟨hfresh, hnodup⟩ := List.nodup_cons.mp hnodup
    cases ha with
    | head =>
      rw [List.filter_cons_of_pos (by simp), List.filter_eq_nil_iff.mpr]
      intro c hc heq
      apply hfresh
      rw [← beq_iff_eq.mp heq]
      exact List.mem_map_of_mem hc
    | tail _ ha =>
      have hne : f b ≠ f a := fun heq => hfresh (heq ▸ List.mem_map_of_mem ha)
      rw [List.filter_cons_of_neg (by simpa using hne)]
      exact ih hnodup ha

namespace Xml

variable {x y : Xml} {xs : List Xml} {tag name v : String}

/-- Some elements with one more before the first of a tag, or at the end if there is none. -/
def putBefore (tag : String) (x : Xml) (xs : List Xml) : List Xml :=
  xs.takeWhile (·.tag != tag) ++ x :: xs.dropWhile (·.tag != tag)

/-- Some elements with one more after the last of a tag, or at the end if there is none. -/
def putAfter (tag : String) (x : Xml) (xs : List Xml) : List Xml :=
  if xs.any (·.tag == tag) then (putBefore tag x xs.reverse).reverse else xs ++ [x]

theorem sublist_putBefore (tag : String) (x : Xml) (xs : List Xml) :
    xs.Sublist (putBefore tag x xs) := by
  have hcut : xs.takeWhile (·.tag != tag) ++ xs.dropWhile (·.tag != tag) = xs :=
    List.takeWhile_append_dropWhile
  have hlonger := List.sublist_cons_self x (xs.dropWhile (·.tag != tag))
  have hput := hlonger.append_left (xs.takeWhile (·.tag != tag))
  rwa [hcut] at hput

theorem sublist_putAfter (tag : String) (x : Xml) (xs : List Xml) :
    xs.Sublist (putAfter tag x xs) := by
  unfold putAfter
  split
  · have hreverse := (sublist_putBefore tag x xs.reverse).reverse
    rwa [List.reverse_reverse] at hreverse
  · exact List.sublist_append_left xs [x]

section

variable {ys : List Xml} (hxs : ∀ y ∈ xs, y.tag ≠ tag) (hys : ∀ y ∈ ys, y.tag = tag)
include hxs hys

theorem putBefore_append : putBefore tag x (xs ++ ys) = xs ++ x :: ys := by
  have hpass : ∀ y ∈ xs, (y.tag != tag) = true := fun y hy => bne_iff_ne.mpr (hxs y hy)
  rw [putBefore, List.takeWhile_append_of_pos hpass, List.dropWhile_append_of_pos hpass]
  cases ys with
  | nil => simp
  | cons y ys => simp [hys y List.mem_cons_self]

theorem putAfter_append : putAfter tag x (xs ++ ys) = xs ++ ys ++ [x] := by
  unfold putAfter
  split
  · next hany =>
    obtain ⟨y, hy, hytag⟩ := List.any_eq_true.mp hany
    obtain hin | hin := List.mem_append.mp hy
    · exact absurd (beq_iff_eq.mp hytag) (hxs y hin)
    · obtain ⟨others, z, rfl⟩ := (List.eq_nil_or_concat ys).resolve_left (List.ne_nil_of_mem hin)
      have hz : z.tag = tag := hys z (by simp)
      simp [putBefore, hz]
  · rfl

end

/-- Among elements that differ in an attribute, each one is the only one with its value. -/
theorem only?_of_mem (hnodup : (readAll tag (attribute? name) xs).Nodup) (hx : x ∈ xs)
    (htag : x.tag = tag) (hv : x.attribute? name = some v) : only? tag name v xs = some x := by
  have hmem : x ∈ xs.filter (·.tag == tag) := List.mem_filter.mpr ⟨hx, beq_iff_eq.mpr htag⟩
  have hfilter := filter_eq_singleton hnodup hmem
  rw [List.filter_filter, hv] at hfilter
  simp only [only?, Bool.and_comm (_ == tag), hfilter]

/-! ## A list part in order -/

/-- The abstract list that a number stands for, if there is exactly one at each stage. -/
def abstractList? (part : List Xml) (number : String) : Option Xml := do
  let listInstance ← only? "w:num" "w:numId" number part
  let id ← value? "w:abstractNumId" listInstance.children
  only? "w:abstractNum" "w:abstractNumId" id part

/-- The elements of a list part are in order: the abstract lists come before the instances, no two
of them share a number, and every instance points to an abstract list. -/
structure InOrder (part : List Xml) : Prop where
  ordered : part.Pairwise fun x y => x.tag = "w:num" → y.tag ≠ "w:abstractNum"
  abstracts : (readAll "w:abstractNum" (attribute? "w:abstractNumId") part).Nodup
  instances : (readAll "w:num" (attribute? "w:numId") part).Nodup
  pointing : ∀ x ∈ part, x.tag = "w:num" → ∃ y ∈ part, ∃ id, y.tag = "w:abstractNum" ∧
    y.attribute? "w:abstractNumId" = some id ∧ value? "w:abstractNumId" x.children = some id

end Xml

/-! ## Numbers -/

namespace ListPart

theorem nextNumber_append_singleton (least : Nat) (numbers : List Nat) (k : Nat) :
    nextNumber least (numbers ++ [k]) = max (nextNumber least numbers) (k + 1) := by
  rw [nextNumber, List.foldl_append]
  rfl

theorem lt_nextNumber {least k : Nat} {numbers : List Nat} (h : k ∈ numbers) :
    k < nextNumber least numbers := by
  induction numbers using List.reverseRecOn with
  | nil => cases h
  | append_singleton numbers n ih =>
    rw [nextNumber_append_singleton]
    obtain hbefore | hlast := List.mem_append.mp h
    · have hlt := ih hbefore
      omega
    · have heq := List.mem_singleton.mp hlast
      omega

theorem nodup_append_nextNumber {least : Nat} {numbers : List Nat} (h : numbers.Nodup) :
    (numbers ++ [nextNumber least numbers]).Nodup := by
  apply h.append (List.nodup_singleton _)
  intro k hk hlast
  have hlt : k < nextNumber least numbers := lt_nextNumber hk
  exact hlt.ne (List.mem_singleton.mp hlast)

/-- Numbers that differ are written differently. -/
theorem nodup_written {numbers : List Nat} (h : numbers.Nodup) :
    (numbers.map fun n => some (toString n)).Nodup := by
  apply h.map
  intro m n heq
  exact Nat.repr_inj.mp (Option.some.inj heq)

variable {p start : ListPart} {levels : List ListLevel}

theorem id_lt_nextAbstract {a : AbstractList} (h : a ∈ p.abstracts) : a.id < p.nextAbstract :=
  lt_nextNumber (List.mem_map_of_mem h)

@[simp] theorem nextAbstract_add : (p.add levels).nextAbstract = p.nextAbstract + 1 := by
  rw [nextAbstract, add, List.map_append, List.map_singleton, nextNumber_append_singleton]
  exact Nat.max_eq_right (Nat.le_succ p.nextAbstract)

@[simp] theorem nextInstance_add : (p.add levels).nextInstance = p.nextInstance + 1 := by
  rw [nextInstance, add, List.map_append, List.map_singleton, nextNumber_append_singleton]
  exact Nat.max_eq_right (Nat.le_succ p.nextInstance)

/-! ## The elements of a part -/

@[simp] theorem tag_abstractMarkup (a : AbstractList) : a.markup.tag = "w:abstractNum" := rfl

@[simp] theorem tag_instanceMarkup (i : ListInstance) : i.markup.tag = "w:num" := rfl

@[simp] theorem attribute?_abstractMarkup (a : AbstractList) :
    a.markup.attribute? "w:abstractNumId" = some (toString a.id) := rfl

@[simp] theorem value?_instanceMarkup (i : ListInstance) :
    Xml.value? "w:abstractNumId" i.markup.children = some (toString i.abstractId) := rfl

theorem mem_markup {x : Xml} : x ∈ p.markup ↔
    x ∈ p.abstracts.map AbstractList.markup ∨ x ∈ p.instances.map ListInstance.markup :=
  List.mem_append

theorem tag_of_mem_abstracts {as : List AbstractList} {x : Xml}
    (h : x ∈ as.map AbstractList.markup) : x.tag = "w:abstractNum" := by
  obtain ⟨a, -, rfl⟩ := List.mem_map.mp h
  rfl

theorem tag_of_mem_instances {is : List ListInstance} {x : Xml}
    (h : x ∈ is.map ListInstance.markup) : x.tag = "w:num" := by
  obtain ⟨i, -, rfl⟩ := List.mem_map.mp h
  rfl

theorem filter_abstracts : p.markup.filter (·.tag == "w:abstractNum") =
    p.abstracts.map AbstractList.markup := by
  simp [markup, List.filter_append, List.filter_map, Function.comp_def]

theorem filter_instances : p.markup.filter (·.tag == "w:num") =
    p.instances.map ListInstance.markup := by
  simp [markup, List.filter_append, List.filter_map, Function.comp_def]

/-- A scheme is entered at two places: before the first instance and after the last one. -/
theorem markup_add : (p.add levels).markup =
    Xml.putAfter "w:num" (ListInstance.markup ⟨p.nextInstance, p.nextAbstract⟩)
      (Xml.putBefore "w:num" (AbstractList.markup ⟨p.nextAbstract, levels⟩) p.markup) := by
  have habstracts (as : List AbstractList) : ∀ x ∈ as.map AbstractList.markup, x.tag ≠ "w:num" :=
    fun x hx => by simp [tag_of_mem_abstracts hx]
  have hinstances : ∀ x ∈ p.instances.map ListInstance.markup, x.tag = "w:num" :=
    fun x hx => tag_of_mem_instances hx
  have hbefore : Xml.putBefore "w:num" (AbstractList.markup ⟨p.nextAbstract, levels⟩) p.markup =
      (p.add levels).abstracts.map AbstractList.markup ++
        p.instances.map ListInstance.markup := by
    rw [markup, Xml.putBefore_append (habstracts p.abstracts) hinstances]
    simp [add]
  rw [hbefore, Xml.putAfter_append (habstracts _) hinstances]
  simp [markup, add]

/-! ## Entering a scheme -/

/-- What holds of a list part that has come from another one by entering schemes: no two abstract
lists and no two instances share a number, instances point to abstract lists, what was there is
still there, and a new abstract list has one instance. -/
structure Grown (start p : ListPart) : Prop where
  abstracts : (p.abstracts.map (·.id)).Nodup
  instances : (p.instances.map (·.id)).Nodup
  pointing : ∀ i ∈ p.instances, ∃ a ∈ p.abstracts, a.id = i.abstractId
  kept : start.markup.Sublist p.markup
  single : ∀ a ∈ p.abstracts, a ∉ start.abstracts →
    p.instances.countP (·.abstractId == a.id) = 1

/-- The part that documents start with has its numbers apart. -/
theorem Grown.initial : Grown .initial .initial where
  abstracts := by decide
  instances := by decide
  pointing := by decide
  kept := List.Sublist.refl _
  single := fun _ ha hnew => absurd ha hnew

namespace Grown

variable (h : Grown start p)
include h

theorem refl : Grown p p where
  abstracts := h.abstracts
  instances := h.instances
  pointing := h.pointing
  kept := List.Sublist.refl _
  single := fun _ ha hnew => absurd ha hnew

theorem add (levels : List ListLevel) : Grown start (p.add levels) where
  abstracts := by
    rw [ListPart.add, List.map_append]
    exact nodup_append_nextNumber h.abstracts
  instances := by
    rw [ListPart.add, List.map_append]
    exact nodup_append_nextNumber h.instances
  pointing := by
    intro i hi
    obtain hi | hi := List.mem_append.mp hi
    · obtain ⟨a, ha, hid⟩ := h.pointing i hi
      exact ⟨a, List.mem_append_left _ ha, hid⟩
    · rw [List.mem_singleton.mp hi]
      exact ⟨⟨p.nextAbstract, levels⟩, List.mem_append_right _ List.mem_cons_self, rfl⟩
  kept := by
    have hbefore := Xml.sublist_putBefore "w:num"
      (AbstractList.markup ⟨p.nextAbstract, levels⟩) p.markup
    rw [markup_add]
    exact (h.kept.trans hbefore).trans (Xml.sublist_putAfter _ _ _)
  single := by
    intro a ha hnew
    rw [ListPart.add, List.countP_append, List.countP_singleton]
    obtain ha | ha := List.mem_append.mp ha
    · have hother : p.nextAbstract ≠ a.id := (id_lt_nextAbstract ha).ne'
      rw [h.single a ha hnew, if_neg (by simpa using hother)]
    · obtain rfl := List.mem_singleton.mp ha
      have hnone : p.instances.countP (·.abstractId == p.nextAbstract) = 0 := by
        rw [List.countP_eq_zero]
        intro i hi heq
        obtain ⟨b, hb, hid⟩ := h.pointing i hi
        have hlt := id_lt_nextAbstract hb
        rw [hid, beq_iff_eq.mp heq] at hlt
        exact Nat.lt_irrefl _ hlt
      rw [hnone, if_pos (by simp)]

theorem inOrder : Xml.InOrder p.markup where
  ordered := by
    refine List.pairwise_append.mpr ⟨?_, ?_, ?_⟩
    · refine List.pairwise_of_forall_mem_list fun x hx y _ htag => ?_
      simp [tag_of_mem_abstracts hx] at htag
    · refine List.pairwise_of_forall_mem_list fun x _ y hy _ => ?_
      simp [tag_of_mem_instances hy]
    · intro x hx y _ htag
      simp [tag_of_mem_abstracts hx] at htag
  abstracts := by
    have hnumbers := nodup_written h.abstracts
    rw [List.map_map] at hnumbers
    rw [Xml.readAll, filter_abstracts, List.map_map]
    exact hnumbers
  instances := by
    have hnumbers := nodup_written h.instances
    rw [List.map_map] at hnumbers
    rw [Xml.readAll, filter_instances, List.map_map]
    exact hnumbers
  pointing := by
    intro x hx htag
    obtain hx | hx := mem_markup.mp hx
    · simp [tag_of_mem_abstracts hx] at htag
    · obtain ⟨i, hi, rfl⟩ := List.mem_map.mp hx
      obtain ⟨a, ha, hid⟩ := h.pointing i hi
      refine ⟨a.markup, mem_markup.mpr (.inl (List.mem_map_of_mem ha)), toString a.id, rfl, rfl, ?_⟩
      rw [value?_instanceMarkup, hid]

/-- A number stands for the abstract list that its instance points to. -/
theorem abstractList? {a : AbstractList} {n : Nat} (ha : a.markup ∈ p.markup)
    (hn : ListInstance.markup ⟨n, a.id⟩ ∈ p.markup) :
    Xml.abstractList? p.markup (toString n) = some a.markup := by
  have hinstance := Xml.only?_of_mem h.inOrder.instances hn rfl rfl
  have habstract := Xml.only?_of_mem h.inOrder.abstracts ha rfl rfl
  rw [Xml.abstractList?, hinstance]
  exact habstract

theorem single_markup {x : Xml} (hx : x ∈ p.markup) (htag : x.tag = "w:abstractNum")
    (hnew : x ∉ start.markup) :
    p.markup.countP (fun y => y.tag == "w:num" &&
      Xml.value? "w:abstractNumId" y.children == x.attribute? "w:abstractNumId") = 1 := by
  obtain hx | hx := mem_markup.mp hx
  · obtain ⟨a, ha, rfl⟩ := List.mem_map.mp hx
    have hnew : a ∉ start.abstracts := fun hold =>
      hnew (mem_markup.mpr (.inl (List.mem_map_of_mem hold)))
    have hnumber (i : ListInstance) :
        (some (toString i.abstractId) == some (toString a.id)) = (i.abstractId == a.id) := by
      have hrepr : i.abstractId.repr = a.id.repr ↔ i.abstractId = a.id := Nat.repr_inj
      rw [Bool.eq_iff_iff, beq_iff_eq, beq_iff_eq, Option.some_inj]
      exact hrepr
    have hcount := List.countP_filter
      (p := fun y => Xml.value? "w:abstractNumId" y.children == some (toString a.id))
      (q := (·.tag == "w:num")) (l := p.markup)
    simp only [filter_instances, List.countP_map, Function.comp_def, value?_instanceMarkup,
      hnumber, h.single a ha hnew] at hcount
    simpa only [attribute?_abstractMarkup, Bool.and_comm] using hcount.symm
  · simp [tag_of_mem_instances hx] at htag

end Grown

/-! ## Calls -/

/-- A list part with some more schemes, one after another. -/
def addAll (p : ListPart) (schemes : List ListScheme) : ListPart :=
  schemes.foldl (fun p s => p.add s.levels) p

/-- A list part after some calls that enter schemes, whatever each of them gives. -/
def afterCalls (p : ListPart) (calls : List (List ListScheme)) : ListPart :=
  calls.foldl (fun p schemes => ((register schemes).run.run p).2) p

@[simp] theorem addAll_cons (s : ListScheme) (schemes : List ListScheme) :
    p.addAll (s :: schemes) = (p.add s.levels).addAll schemes := rfl

theorem addAll_append (first rest : List ListScheme) :
    p.addAll (first ++ rest) = (p.addAll first).addAll rest := List.foldl_append

theorem afterCalls_append (calls more : List (List ListScheme)) :
    p.afterCalls (calls ++ more) = (p.afterCalls calls).afterCalls more := List.foldl_append

theorem nextAbstract_addAll (schemes : List ListScheme) :
    (p.addAll schemes).nextAbstract = p.nextAbstract + schemes.length := by
  induction schemes generalizing p with
  | nil => rfl
  | cons s schemes ih =>
    rw [addAll_cons, ih, nextAbstract_add, List.length_cons]
    omega

theorem nextInstance_addAll (schemes : List ListScheme) :
    (p.addAll schemes).nextInstance = p.nextInstance + schemes.length := by
  induction schemes generalizing p with
  | nil => rfl
  | cons s schemes ih =>
    rw [addAll_cons, ih, nextInstance_add, List.length_cons]
    omega

theorem Grown.addAll (h : Grown start p) (schemes : List ListScheme) :
    Grown start (p.addAll schemes) := by
  induction schemes generalizing p with
  | nil => exact h
  | cons s schemes ih => exact ih (h.add s.levels)

end ListPart

namespace ListNumbers

variable {numbers : ListNumbers} {reference other : String} {n : Nat}

theorem find?_insert_self : (numbers.insert reference n).find? reference = some n := by
  simp [find?, insert]

theorem find?_insert_of_ne (h : other ≠ reference) :
    (numbers.insert reference n).find? other = numbers.find? other := by
  have hreverse : (numbers.insert reference n).reverse =
      (reference, n) :: numbers.reverse.filter (·.1 != reference) := by
    simp [insert, List.filter_reverse]
  rw [find?, hreverse, List.find?_cons_of_neg (by simpa using h.symm), List.find?_filter, find?]
  congr 2
  funext entry
  by_cases heq : entry.1 = other
  · simp [heq, h]
  · simp [heq]

/-- The numbers after those of some schemes have been added, from `n` on. -/
def insertAll (numbers : ListNumbers) (n : Nat) : List ListScheme → ListNumbers
  | [] => numbers
  | s :: schemes => (numbers.insert s.reference n).insertAll (n + 1) schemes

theorem insertAll_append (first rest : List ListScheme) :
    numbers.insertAll n (first ++ rest) =
      (numbers.insertAll n first).insertAll (n + first.length) rest := by
  induction first generalizing numbers n with
  | nil => rfl
  | cons s first ih =>
    rw [List.cons_append, insertAll, ih, insertAll, List.length_cons, Nat.add_right_comm,
      Nat.add_assoc]

theorem find?_insertAll_of_notMem {schemes : List ListScheme}
    (h : reference ∉ schemes.map (·.reference)) :
    (numbers.insertAll n schemes).find? reference = numbers.find? reference := by
  induction schemes generalizing numbers n with
  | nil => rfl
  | cons s schemes ih =>
    rw [List.map_cons, List.mem_cons, not_or] at h
    rw [insertAll, ih h.2, find?_insert_of_ne h.1]

/-- Of schemes with one name the last one counts. -/
theorem find?_insertAll {first others : List ListScheme} {s : ListScheme}
    (h : s.reference ∉ others.map (·.reference)) :
    (numbers.insertAll n (first ++ s :: others)).find? s.reference = some (n + first.length) := by
  rw [insertAll_append, insertAll, find?_insertAll_of_notMem h, find?_insert_self]

end ListNumbers

namespace ListPart

variable {p start : ListPart} {schemes : List ListScheme}

theorem run_registerFrom_illegal {s : ListScheme} (h : s.isLegal = false)
    (numbers : ListNumbers) :
    (registerFrom numbers (s :: schemes)).run.run p = (.error (.illegalText s.reference), p) := by
  rw [registerFrom, h]
  rfl

theorem run_registerFrom_append {first : List ListScheme} (h : ∀ s ∈ first, s.isLegal = true)
    (numbers : ListNumbers) (rest : List ListScheme) :
    (registerFrom numbers (first ++ rest)).run.run p =
      (registerFrom (numbers.insertAll p.nextInstance first) rest).run.run (p.addAll first) := by
  induction first generalizing numbers p with
  | nil => rfl
  | cons s first ih =>
    obtain ⟨hs, h⟩ := List.forall_mem_cons.mp h
    rw [List.cons_append, run_registerFrom_cons hs, ih h, ListNumbers.insertAll, addAll_cons,
      nextInstance_add]

theorem run_register (h : ∀ s ∈ schemes, s.isLegal = true) :
    (register schemes).run.run p =
      (.ok (ListNumbers.insertAll [] p.nextInstance schemes), p.addAll schemes) := by
  have hrun := run_registerFrom_append (p := p) h [] []
  rwa [List.append_nil] at hrun

/-- A call enters all its schemes, or those before the first illegal one. -/
theorem run_register_cases (p : ListPart) (schemes : List ListScheme) :
    (∀ s ∈ schemes, s.isLegal = true) ∨
    ∃ first s others, schemes = first ++ s :: others ∧ (∀ t ∈ first, t.isLegal = true) ∧
      s.isLegal = false ∧
      (register schemes).run.run p = (.error (.illegalText s.reference), p.addAll first) := by
  cases hfind : schemes.find? (!·.isLegal) with
  | none =>
    left
    intro s hs
    simpa using List.find?_eq_none.mp hfind s hs
  | some s =>
    obtain ⟨hs, first, others, hsplit, hfirst⟩ := List.find?_eq_some_iff_append.mp hfind
    have hlegal : ∀ t ∈ first, t.isLegal = true := by simpa using hfirst
    have hillegal : s.isLegal = false := by simpa using hs
    refine .inr ⟨first, s, others, hsplit, hlegal, hillegal, ?_⟩
    rw [hsplit, register, run_registerFrom_append hlegal, run_registerFrom_illegal hillegal]

theorem Grown.run_register (h : Grown start p) (schemes : List ListScheme) :
    Grown start ((register schemes).run.run p).2 := by
  obtain hlegal | ⟨first, s, others, -, -, -, hrun⟩ := run_register_cases p schemes
  · rw [ListPart.run_register hlegal]
    exact h.addAll schemes
  · rw [hrun]
    exact h.addAll first

theorem Grown.afterCalls (h : Grown start p) (calls : List (List ListScheme)) :
    Grown start (p.afterCalls calls) := by
  induction calls generalizing p with
  | nil => exact h
  | cons schemes calls ih => exact ih (h.run_register schemes)

/-- A scheme that has been entered has an abstract list and an instance, with the numbers that its
place among the schemes tells. -/
theorem Grown.mem_addAll (h : Grown start p) (first others : List ListScheme) (s : ListScheme) :
    AbstractList.markup ⟨p.nextAbstract + first.length, s.levels⟩ ∈
        (p.addAll (first ++ s :: others)).markup ∧
      ListInstance.markup ⟨p.nextInstance + first.length, p.nextAbstract + first.length⟩ ∈
        (p.addAll (first ++ s :: others)).markup := by
  have hkept := (((h.addAll first).add s.levels).refl.addAll others).kept
  rw [← nextAbstract_addAll, ← nextInstance_addAll, addAll_append]
  constructor
  · apply hkept.subset
    exact mem_markup.mpr (.inl (List.mem_map_of_mem (by simp [ListPart.add])))
  · apply hkept.subset
    exact mem_markup.mpr (.inr (List.mem_map_of_mem (by simp [ListPart.add])))

/-- What a call that enters schemes into a part gives and leaves. If it succeeds, each scheme has
got a number, which stands for it after any further calls, and each name has the number of the last
scheme of that name. If it fails, the schemes before an illegal one have been entered as if they
were all. -/
def Entered (p : ListPart) (schemes : List ListScheme) :
    Except RenderError ListNumbers × ListPart → Prop
  | (.ok numbers, entered) =>
    (∀ s ∈ schemes, s.isLegal = true) ∧
    (∀ reference, reference ∉ schemes.map (·.reference) → numbers.find? reference = none) ∧
    ∀ first s others, schemes = first ++ s :: others →
      (∀ calls, Xml.abstractList? (entered.afterCalls calls).markup
        (toString (p.nextInstance + first.length)) =
          some (AbstractList.markup ⟨p.nextAbstract + first.length, s.levels⟩)) ∧
      (s.reference ∉ others.map (·.reference) →
        numbers.find? s.reference = some (p.nextInstance + first.length))
  | (.error e, entered) =>
    ∃ first s others numbers, schemes = first ++ s :: others ∧ s.isLegal = false ∧
      e = .illegalText s.reference ∧ (register first).run.run p = (.ok numbers, entered)

theorem Grown.entered (h : Grown start p) (schemes : List ListScheme) :
    p.Entered schemes ((register schemes).run.run p) := by
  obtain hlegal | ⟨first, s, others, hsplit, hlegal, hillegal, hrun⟩ := run_register_cases p schemes
  · rw [ListPart.run_register hlegal]
    refine ⟨hlegal, ?_, ?_⟩
    · intro reference hnone
      exact ListNumbers.find?_insertAll_of_notMem hnone
    · intro first s others hsplit
      constructor
      · intro calls
        obtain ⟨habstract, hinstance⟩ := h.mem_addAll first others s
        rw [← hsplit] at habstract hinstance
        have hafter := (h.addAll schemes).refl.afterCalls calls
        exact hafter.abstractList? (hafter.kept.subset habstract) (hafter.kept.subset hinstance)
      · intro hlast
        rw [hsplit]
        exact ListNumbers.find?_insertAll hlast
  · rw [hrun]
    exact ⟨first, s, others, _, hsplit, hillegal, rfl, ListPart.run_register hlegal⟩

example : ((register [⟨"a", []⟩, ⟨"b", []⟩, ⟨"a", []⟩]).run.run initial).1 =
    .ok [("b", 11), ("a", 12)] := rfl

/-- Whatever schemes are entered by whatever calls into a part with its numbers apart, the part is in
order, new abstract lists have one instance, a further call keeps what is there, and its names stand
for its schemes. -/
theorem Grown.all_afterCalls (h : Grown p p) (calls : List (List ListScheme)) :
    Xml.InOrder (p.afterCalls calls).markup ∧
    (∀ x ∈ (p.afterCalls calls).markup, x.tag = "w:abstractNum" → x ∉ p.markup →
      (p.afterCalls calls).markup.countP (fun y => y.tag == "w:num" &&
        Xml.value? "w:abstractNumId" y.children == x.attribute? "w:abstractNumId") = 1) ∧
    ∀ schemes, (p.afterCalls calls).markup.Sublist (p.afterCalls (calls ++ [schemes])).markup ∧
      (p.afterCalls calls).Entered schemes ((register schemes).run.run (p.afterCalls calls)) := by
  have h := h.afterCalls calls
  refine ⟨h.inOrder, ?_, ?_⟩
  · intro x hx htag hnew
    exact h.single_markup hx htag hnew
  · intro schemes
    constructor
    · rw [afterCalls_append]
      exact (h.refl.afterCalls [schemes]).kept
    · exact h.entered schemes

/-- Whatever schemes are entered by whatever calls, the part is in order, new abstract lists have
one instance, a further call keeps what is there, and its names stand for its schemes. -/
theorem afterCalls_initial (calls : List (List ListScheme)) :
    Xml.InOrder (initial.afterCalls calls).markup ∧
    (∀ x ∈ (initial.afterCalls calls).markup, x.tag = "w:abstractNum" → x ∉ initial.markup →
      (initial.afterCalls calls).markup.countP (fun y => y.tag == "w:num" &&
        Xml.value? "w:abstractNumId" y.children == x.attribute? "w:abstractNumId") = 1) ∧
    ∀ schemes, (initial.afterCalls calls).markup.Sublist
        (initial.afterCalls (calls ++ [schemes])).markup ∧
      (initial.afterCalls calls).Entered schemes
        ((register schemes).run.run (initial.afterCalls calls)) :=
  Grown.initial.all_afterCalls calls

end ListPart
end MarkdownWord.Word
