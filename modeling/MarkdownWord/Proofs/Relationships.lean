import Mathlib
import MarkdownWord.Proofs.Layout
import MarkdownWord.Proofs.Results

/-!
# Relationships to the targets of links

A file has one relationship for each target of its links. The targets that are met while a document
is written only grow, so the relationship that a link has got is still there in the end
(`Gathers`).
-/

namespace MarkdownWord.Word

/-! ## Targets that grow -/

namespace Targets

/-- The targets met when a link has led to one. -/
def add (t : Targets) (url : String) : Targets := if url ∈ t then t else t ++ [url]

def addAll (t : Targets) (urls : List String) : Targets := urls.foldl add t

variable {t u : Targets} {url : String}

theorem prefix_add (t : Targets) (url : String) : t <+: t.add url := by
  unfold add
  split
  · exact List.prefix_rfl
  · exact List.prefix_append t [url]

theorem prefix_addAll (t : Targets) (urls : List String) : t <+: t.addAll urls := by
  induction urls generalizing t with
  | nil => exact List.prefix_rfl
  | cons url urls ih => exact (t.prefix_add url).trans (ih (t.add url))

theorem addAll_append (t : Targets) (us vs : List String) :
    t.addAll (us ++ vs) = (t.addAll us).addAll vs := List.foldl_append

theorem mem_add {v : String} : v ∈ t.add url ↔ v ∈ t ∨ v = url := by
  unfold add
  split
  · next h => exact ⟨.inl, fun hv => hv.elim id fun hv => hv ▸ h⟩
  · simp

theorem mem_addAll {urls : List String} : url ∈ t.addAll urls ↔ url ∈ t ∨ url ∈ urls := by
  induction urls generalizing t with
  | nil => simp [addAll]
  | cons v urls ih =>
    change url ∈ (t.add v).addAll urls ↔ _
    rw [ih, mem_add, List.mem_cons, or_assoc]

theorem nodup_add (h : t.Nodup) (url : String) : (t.add url).Nodup := by
  unfold add
  split
  · exact h
  · next hnew => exact List.Nodup.append h (List.nodup_singleton url) (by simpa using hnew)

theorem nodup_addAll (h : t.Nodup) (urls : List String) : (t.addAll urls).Nodup := by
  induction urls generalizing t with
  | nil => exact h
  | cons url urls ih => exact ih (nodup_add h url)

/-- The relationships to some targets. -/
def links (t : Targets) : List (String × String) :=
  t.zipIdx.map fun (url, i) => (relationshipId i, url)

theorem mem_links {id : String} :
    (id, url) ∈ t.links ↔ ∃ i, t[i]? = some url ∧ relationshipId i = id := by
  simp only [links, List.mem_map, Prod.exists, List.mem_zipIdx_iff_getElem?, Prod.mk.injEq]
  constructor
  · rintro ⟨v, i, hi, hid, rfl⟩
    exact ⟨i, hi, hid⟩
  · rintro ⟨i, hi, hid⟩
    exact ⟨url, i, hi, hid, rfl⟩

/-- A relationship stays when more targets are met. -/
theorem mem_links_of_prefix {id : String} (h : t <+: u) (hlink : (id, url) ∈ t.links) :
    (id, url) ∈ u.links := by
  obtain ⟨i, hi, hid⟩ := mem_links.mp hlink
  obtain ⟨rest, rfl⟩ := h
  have hlt : i < t.length := (List.getElem?_eq_some_iff.mp hi).1
  exact mem_links.mpr ⟨i, by rw [List.getElem?_append_left hlt, hi], hid⟩

theorem fst_links (t : Targets) : t.links.map Prod.fst = (List.range t.length).map relationshipId := by
  have hindices : t.zipIdx.map (fun p : String × Nat => relationshipId p.2) =
      (t.zipIdx.map Prod.snd).map relationshipId := by
    rw [List.map_map]
    rfl
  simp [links, List.map_map, Function.comp_def, hindices, List.range_eq_range']

end Targets

/-- The identifiers of the relationships that a file has before its first link. -/
def firstRelationshipIds : List String := (List.range firstRelationships).map fun i => s!"rId{i + 1}"

theorem relationshipText_injective : Function.Injective fun i : Nat => s!"rId{i + 1}" := by
  intro i j h
  have hdigits : (i + 1).repr = (j + 1).repr := by
    change "rId" ++ (i + 1).repr = "rId" ++ (j + 1).repr at h
    exact (String.append_right_inj "rId").mp h
  exact Nat.succ.inj (Nat.repr_inj.mp hdigits)

theorem relationshipId_injective : Function.Injective relationshipId := fun _ _ h =>
  Nat.add_left_cancel (relationshipText_injective h)

/-- Relationships are numbered one after another, so no two have the same identifier. -/
theorem Targets.ids_nodup (t : Targets) : (firstRelationshipIds ++ t.links.map Prod.fst).Nodup := by
  have hids : firstRelationshipIds ++ t.links.map Prod.fst =
      (List.range (firstRelationships + t.length)).map fun i => s!"rId{i + 1}" := by
    rw [List.range_add, List.map_append, t.fst_links, List.map_map]
    rfl
  rw [hids]
  exact List.nodup_range.map relationshipText_injective

/-- Among targets that are met once, a relationship stands for a target and the target for it. -/
theorem Targets.ids_eq_iff {t : Targets} (h : t.Nodup) {id jd url v : String}
    (hurl : (id, url) ∈ t.links) (hv : (jd, v) ∈ t.links) : id = jd ↔ url = v := by
  obtain ⟨i, hi, rfl⟩ := mem_links.mp hurl
  obtain ⟨j, hj, rfl⟩ := mem_links.mp hv
  rw [relationshipId_injective.eq_iff]
  constructor
  · rintro rfl
    exact Option.some.inj (hi.symm.trans hj)
  · rintro rfl
    have hlt : i < t.length := (List.getElem?_eq_some_iff.mp hi).1
    exact (List.getElem?_inj hlt h).mp (hi.trans hj.symm)

/-! ## Writing that meets targets -/

/-- Writing adds some targets to those met before it. What it gives is of some kind at all targets
that are met in the end. -/
def Gathers {α : Type} (m : Render α) (urls : List String) (post : Targets → α → Prop) : Prop :=
  ∀ t, Leaves m t fun a t' => t' = t.addAll urls ∧ ∀ u, t' <+: u → post u a

namespace Gathers

variable {α β : Type} {m : Render α} {us vs : List String} {middle : Targets → α → Prop}
  {post : Targets → β → Prop}

theorem pure {a : α} (h : ∀ u, middle u a) : Gathers (pure a) [] middle :=
  fun _ => Leaves.pure ⟨rfl, fun u _ => h u⟩

theorem lift {x : Except RenderError α} (h : Yields x fun a => ∀ u, middle u a) :
    Gathers (liftM x) [] middle :=
  fun _ => Leaves.lift fun a ha => ⟨rfl, fun u _ => h a ha u⟩

theorem bind {f : α → Render β} (hm : Gathers m us middle)
    (hf : ∀ a, Gathers (f a) vs fun u b => middle u a → post u b) :
    Gathers (m >>= f) (us ++ vs) post := by
  intro t
  refine (hm t).bind fun a t' ha => (hf a t').mono fun b t'' hb => ?_
  obtain ⟨rfl, ha⟩ := ha
  obtain ⟨rfl, hb⟩ := hb
  refine ⟨(t.addAll_append us vs).symm, fun u hu => hb u hu (ha u ?_)⟩
  exact (Targets.prefix_addAll _ vs).trans hu

theorem congr (hm : Gathers m us middle) (h : us = vs) : Gathers m vs middle := h ▸ hm

theorem mono {post : Targets → α → Prop} (hm : Gathers m us middle)
    (h : ∀ u a, middle u a → post u a) : Gathers m us post :=
  fun t => (hm t).mono fun a _ ha => ⟨ha.1, fun u hu => h u a (ha.2 u hu)⟩

theorem map {f : α → β} (hm : Gathers m us middle) (h : ∀ u a, middle u a → post u (f a)) :
    Gathers (do return f (← m)) us post :=
  (hm.bind fun a => pure fun u => h u a).congr (List.append_nil us)

theorem mapM {f : α → Render β} {as : List α} {urls : α → List String}
    {post : Targets → α → β → Prop} (h : ∀ a ∈ as, Gathers (f a) (urls a) fun u => post u a) :
    Gathers (as.mapM f) (as.flatMap urls) fun u => List.Forall₂ (post u) as := by
  induction as with
  | nil => exact pure fun _ => .nil
  | cons a as ih =>
    rw [List.mapM_cons, List.flatMap_cons]
    have hrest := ih fun b hb => h b (List.mem_cons_of_mem a hb)
    exact (h a List.mem_cons_self).bind fun b =>
      hrest.map fun u bs hbs hb => .cons hb hbs

end Gathers

/-- The identifier that a target gets says where it stands among those that have been met. -/
theorem run_relate (url : String) (t : Targets) : ∃ i,
    (relate url).run.run t = (.ok (relationshipId i), t.add url) ∧
      (t.add url).idxOf? url = some i := by
  cases h : t.idxOf? url with
  | none =>
    have hnew : url ∉ t := List.idxOf?_eq_none_iff.mp h
    have hadd : t.add url = t ++ [url] := if_neg hnew
    refine ⟨t.length, by rw [relate_of_new h, hadd], ?_⟩
    rw [hadd, List.idxOf?, List.findIdx?_append, ← List.idxOf?, h]
    simp
  | some i =>
    have hknown : t.add url = t := if_pos <| by
      obtain ⟨hlt, hi, -⟩ := List.idxOf?_eq_some_iff.mp h
      exact hi ▸ List.getElem_mem hlt
    exact ⟨i, by rw [relate_of_known h, hknown], by rw [hknown, h]⟩

/-- The identifier that a link gets is that of a relationship to its target. -/
theorem relate_gathers (url : String) :
    Gathers (relate url) [url] fun u id => (id, url) ∈ u.links := by
  intro t
  obtain ⟨i, hrun, hfound⟩ := run_relate url t
  obtain ⟨hlt, hi, -⟩ := List.idxOf?_eq_some_iff.mp hfound
  unfold Leaves
  rw [hrun]
  exact Yields.pure ⟨rfl, fun u hu => Targets.mem_links_of_prefix hu
    (Targets.mem_links.mpr ⟨i, List.getElem?_eq_some_iff.mpr ⟨hlt, hi⟩, rfl⟩)⟩

/-! ## Writing again -/

/-- Written where its targets are known already, something gives a value and meets no target. -/
def Settled {α : Type} (m : Render α) (u : Targets) (a : α) : Prop := m.run.run u = (.ok a, u)

/-- Writing again, at any time later, gives the same and meets no target. -/
def Settles {α : Type} (m : Render α) (urls : List String) : Prop := Gathers m urls (Settled m)

namespace Settles

variable {α β : Type} {m : Render α} {us vs : List String}

theorem pure (a : α) : Settles (pure a) [] := Gathers.pure fun _ => rfl

theorem lift (x : Except RenderError α) : Settles (liftM x) [] := by
  refine Gathers.lift fun a ha u => ?_
  rw [ha]
  rfl

theorem bind {f : α → Render β} (hm : Settles m us) (hf : ∀ a, Settles (f a) vs) :
    Settles (m >>= f) (us ++ vs) := by
  refine Gathers.bind hm fun a => (hf a).mono fun u b hb ha => ?_
  rw [Settled, Ends.run_bind, ha]
  exact hb

theorem congr (hm : Settles m us) (h : us = vs) : Settles m vs := h ▸ hm

theorem map {f : α → β} (hm : Settles m us) : Settles (do return f (← m)) us :=
  (hm.bind fun a => pure (f a)).congr (List.append_nil us)

theorem mapM {f : α → Render β} {as : List α} {urls : α → List String}
    (h : ∀ a ∈ as, Settles (f a) (urls a)) : Settles (as.mapM f) (as.flatMap urls) := by
  induction as with
  | nil => exact pure []
  | cons a as ih =>
    rw [List.mapM_cons, List.flatMap_cons]
    have hrest := ih fun b hb => h b (List.mem_cons_of_mem a hb)
    exact (h a List.mem_cons_self).bind fun b => hrest.map

end Settles

theorem relate_settles (url : String) : Settles (relate url) [url] := by
  intro t
  obtain ⟨i, hrun, hfound⟩ := run_relate url t
  unfold Leaves
  rw [hrun]
  refine Yields.pure ⟨rfl, fun u hu => ?_⟩
  obtain ⟨rest, rfl⟩ := hu
  refine relate_of_known ?_
  rw [List.idxOf?, List.findIdx?_append, ← List.idxOf?, hfound]
  rfl

end MarkdownWord.Word
