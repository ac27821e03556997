import Mathlib.Data.List.Forall2
import MarkdownWord.Proofs.Outcomes

/-!
# What a computation gives

A computation that succeeds is opened into its steps, each of which has succeeded. What the steps
give is carried along, so that the result of a whole loop is known from the results of its steps.
-/

namespace MarkdownWord

variable {ε σ α β : Type}

/-- Whatever value a computation gives, it is of some kind. -/
def Yields (x : Except ε α) (post : α → Prop) : Prop := ∀ a, x = .ok a → post a

namespace Yields

variable {x : Except ε α} {f : α → Except ε β} {middle : α → Prop} {post : β → Prop}

theorem pure {a : α} (h : middle a) : Yields (pure a : Except ε α) middle := by
  rintro b hb
  cases hb
  exact h

theorem error (e : ε) : Yields (.error e : Except ε α) middle := by
  rintro b hb
  cases hb

theorem bind (hx : Yields x middle) (hf : ∀ a, middle a → Yields (f a) post) :
    Yields (x >>= f) post := by
  intro b hb
  cases hfirst : x with
  | error e =>
    rw [hfirst] at hb
    cases hb
  | ok a =>
    rw [hfirst] at hb
    exact hf a (hx a hfirst) b hb

/-- What the first step gives is of no account where the rest gives the same whatever it is. -/
theorem bind_any (hf : ∀ a, Yields (f a) post) : Yields (x >>= f) post := by
  have hx : Yields x fun _ => True := fun _ _ => trivial
  exact hx.bind fun a _ => hf a

/-- A loop gives one value for each element. -/
theorem mapM {as : List α} {post : α → β → Prop} (h : ∀ a ∈ as, Yields (f a) (post a)) :
    Yields (as.mapM f) (List.Forall₂ post as) := by
  induction as with
  | nil => exact pure .nil
  | cons a as ih =>
    rw [List.mapM_cons]
    have hrest := ih fun b hb => h b (List.mem_cons_of_mem a hb)
    exact (h a List.mem_cons_self).bind fun b hb => hrest.bind fun bs hbs => pure (.cons hb hbs)

end Yields

theorem forall_mem_of_forall₂ {p : β → Prop} {as : List α} {bs : List β}
    (h : List.Forall₂ (fun _ b => p b) as bs) : ∀ b ∈ bs, p b := by
  induction h with
  | nil => simp
  | cons hb _ ih => exact List.forall_mem_cons.mpr ⟨hb, ih⟩

/-- Started in a state, a computation that gives a value gives one of some kind, and leaves a state
of some kind. -/
def Leaves (m : ExceptT ε (StateM σ) α) (s : σ) (post : α → σ → Prop) : Prop :=
  Yields (m.run.run s).1 fun a => post a (m.run.run s).2

namespace Leaves

variable {m : ExceptT ε (StateM σ) α} {f : α → ExceptT ε (StateM σ) β} {s : σ}
  {middle : α → σ → Prop} {post : β → σ → Prop}

theorem pure {a : α} (h : middle a s) : Leaves (pure a : ExceptT ε (StateM σ) α) s middle :=
  Yields.pure h

theorem lift {x : Except ε α} (h : Yields x fun a => middle a s) :
    Leaves (liftM x : ExceptT ε (StateM σ) α) s middle := by
  cases x with
  | error e => exact Yields.error e
  | ok a => exact h

theorem of_yields {x : Except ε α} {p : α → Prop} (h : Yields x p) (s : σ) :
    Leaves (liftM x : ExceptT ε (StateM σ) α) s fun a _ => p a := lift h

theorem throw (e : ε) : Leaves (throw e : ExceptT ε (StateM σ) α) s middle := Yields.error e

theorem modify {f : σ → σ} {post : PUnit → σ → Prop} (h : post ⟨⟩ (f s)) :
    Leaves (modify f : ExceptT ε (StateM σ) PUnit) s post := Yields.pure h

theorem mono {post : α → σ → Prop} (hm : Leaves m s middle) (h : ∀ a t, middle a t → post a t) :
    Leaves m s post := fun a ha => h a _ (hm a ha)

theorem and {post : α → σ → Prop} (hm : Leaves m s middle) (h : Leaves m s post) :
    Leaves m s fun a t => middle a t ∧ post a t := fun a ha => ⟨hm a ha, h a ha⟩

theorem bind (hm : Leaves m s middle) (hf : ∀ a t, middle a t → Leaves (f a) t post) :
    Leaves (m >>= f) s post := by
  have hrun := Ends.run_bind m f s
  intro b hb
  cases hfirst : (m.run.run s).1 with
  | error e =>
    rw [hrun, hfirst] at hb
    cases hb
  | ok a =>
    rw [hfirst] at hrun
    rw [hrun] at hb ⊢
    exact hf a _ (hm a hfirst) b hb

/-- What the first step does is of no account where the rest does the same whatever it gives. -/
theorem bind_any (hf : ∀ a t, Leaves (f a) t post) : Leaves (m >>= f) s post := by
  have hm : Leaves m s fun _ _ => True := fun _ _ => trivial
  exact hm.bind fun a t _ => hf a t

theorem mapM {as : List α} {post : α → β → Prop}
    (h : ∀ a ∈ as, ∀ s, Leaves (f a) s fun b _ => post a b) (s : σ) :
    Leaves (as.mapM f) s fun bs _ => List.Forall₂ post as bs := by
  induction as generalizing s with
  | nil => exact pure .nil
  | cons a as ih =>
    rw [List.mapM_cons]
    have hrest := ih fun b hb => h b (List.mem_cons_of_mem a hb)
    exact (h a List.mem_cons_self s).bind fun b t hb =>
      (hrest t).bind fun bs u hbs => pure (.cons hb hbs)

/-- A loop whose steps keep an invariant about the elements that are done keeps it to the end. -/
theorem forM (inv : List α → σ → Prop) {step : α → ExceptT ε (StateM σ) PUnit}
    {before as : List α}
    (h : ∀ a ∈ as, ∀ before s, inv before s → Leaves (step a) s fun _ => inv (before ++ [a]))
    (hs : inv before s) : Leaves (as.forM step) s fun _ => inv (before ++ as) := by
  induction as generalizing s before with
  | nil => exact pure (by simpa using hs)
  | cons a as ih =>
    change Leaves (step a >>= fun _ => as.forM step) s _
    refine (h a List.mem_cons_self before s hs).bind fun _ t ht => ?_
    have hrest := ih (fun b hb => h b (List.mem_cons_of_mem a hb)) ht
    simpa using hrest

end Leaves
end MarkdownWord
