/-!
# When a computation succeeds

Conditions for success follow the computation: a sequence succeeds when each of its steps does. For
a computation with a state, what its steps leave behind is carried along with the condition.
-/

namespace MarkdownWord

variable {ε σ α β : Type}

theorem ok_bind (a : α) (f : α → Except ε β) : (Except.ok a >>= f) = f a := rfl

theorem exists_of_bind_eq_ok {x : Except ε α} {f : α → Except ε β} {b : β}
    (h : (x >>= f) = .ok b) : ∃ a, x = .ok a ∧ f a = .ok b := by
  cases x with
  | error e => cases h
  | ok a => exact ⟨a, rfl, h⟩

theorem mapError_ok {ε' : Type} (f : ε → ε') (a : α) :
    (Except.ok a : Except ε α).mapError f = .ok a := rfl

theorem mapError_eq_ok_iff {ε' : Type} {f : ε → ε'} {x : Except ε α} {a : α} :
    x.mapError f = .ok a ↔ x = .ok a := by
  cases x with
  | error e => exact iff_of_false (by rintro ⟨⟩) (by rintro ⟨⟩)
  | ok b => rw [mapError_ok, Except.ok.injEq, Except.ok.injEq]

/-- A computation that gives a value. -/
def Succeeds (x : Except ε α) : Prop := ∃ a, x = .ok a

namespace Succeeds

@[simp] theorem ok (a : α) : Succeeds (.ok a : Except ε α) := ⟨a, rfl⟩

@[simp] theorem pure (a : α) : Succeeds (pure a : Except ε α) := ⟨a, rfl⟩

@[simp] theorem not_error (e : ε) : ¬ Succeeds (.error e : Except ε α) := by
  rintro ⟨a, h⟩
  cases h

/-- A sequence succeeds when its first step does and the rest succeeds on every value of it. -/
theorem bind_iff {x : Except ε α} {f : α → Except ε β} {p : Prop}
    (h : ∀ a, x = .ok a → (Succeeds (f a) ↔ p)) : Succeeds (x >>= f) ↔ Succeeds x ∧ p := by
  cases x with
  | error e =>
    have hbind : (Except.error e >>= f) = .error e := rfl
    rw [hbind]
    simp
  | ok a =>
    have hbind : (Except.ok a >>= f) = f a := rfl
    rw [hbind, h a rfl]
    simp

theorem map_iff {x : Except ε α} {f : α → β} : Succeeds (f <$> x) ↔ Succeeds x := by
  cases x with
  | error e => exact iff_of_false (not_error e) (not_error e)
  | ok a => exact iff_of_true ⟨f a, rfl⟩ (ok a)

theorem bind {x : Except ε α} {f : α → Except ε β} (hx : Succeeds x) (hf : ∀ a, Succeeds (f a)) :
    Succeeds (x >>= f) :=
  (bind_iff fun a _ => iff_of_true (hf a) trivial).mpr ⟨hx, trivial⟩

theorem mapM_iff {f : α → Except ε β} {as : List α} :
    Succeeds (as.mapM f) ↔ ∀ a ∈ as, Succeeds (f a) := by
  induction as with
  | nil => simp
  | cons a as ih =>
    rw [List.mapM_cons, bind_iff (p := ∀ a ∈ as, Succeeds (f a)), List.forall_mem_cons]
    intro b _
    rw [← ih, bind_iff (p := True) fun _ _ => iff_of_true (pure _) trivial]
    simp

end Succeeds

/-- Started in a state, a computation succeeds exactly when a condition holds, and then it leaves a
state of some kind. -/
structure Ends (m : ExceptT ε (StateM σ) α) (s : σ) (condition : Prop) (post : σ → Prop) :
    Prop where
  succeeds_iff : Succeeds (m.run.run s).1 ↔ condition
  state : condition → post (m.run.run s).2

namespace Ends

variable {m : ExceptT ε (StateM σ) α} {f : α → ExceptT ε (StateM σ) β} {s : σ} {p q : Prop}
  {post middle : σ → Prop}

theorem pure (a : α) (h : post s) : Ends (pure a : ExceptT ε (StateM σ) α) s True post where
  succeeds_iff := iff_of_true (.ok a) trivial
  state _ := h

theorem lift (x : Except ε α) (h : Succeeds x → post s) :
    Ends (liftM x : ExceptT ε (StateM σ) α) s (Succeeds x) post := by
  cases x with
  | error e => exact ⟨Iff.rfl, fun h => absurd h (Succeeds.not_error e)⟩
  | ok a => exact ⟨Iff.rfl, h⟩

theorem modify (f : σ → σ) (h : post (f s)) :
    Ends (modify f : ExceptT ε (StateM σ) PUnit) s True post where
  succeeds_iff := iff_of_true (.ok _) trivial
  state _ := h

theorem throw (e : ε) : Ends (throw e : ExceptT ε (StateM σ) α) s False post where
  succeeds_iff := iff_of_false (Succeeds.not_error e) not_false
  state := False.elim

theorem mono (hm : Ends m s p middle) (h : ∀ t, middle t → post t) : Ends m s p post :=
  ⟨hm.succeeds_iff, fun hp => h _ (hm.state hp)⟩

theorem congr (hm : Ends m s p post) (h : p ↔ q) : Ends m s q post :=
  ⟨hm.succeeds_iff.trans h, fun hq => hm.state (h.mpr hq)⟩

/-- Only what a computation does in its state counts. -/
theorem of_run_eq {m' : ExceptT ε (StateM σ) α} {s' : σ} (hm : Ends m' s' p post)
    (h : m.run.run s = m'.run.run s') : Ends m s p post :=
  ⟨by rw [h]; exact hm.succeeds_iff, by rw [h]; exact hm.state⟩

theorem run_bind (m : ExceptT ε (StateM σ) α) (f : α → ExceptT ε (StateM σ) β) (s : σ) :
    (m >>= f).run.run s = match (m.run.run s).1 with
      | .ok a => (f a).run.run (m.run.run s).2
      | .error e => (.error e, (m.run.run s).2) := by
  rw [ExceptT.run_bind, StateT.run_bind]
  obtain ⟨_ | a, t⟩ := m.run.run s <;> rfl

/-- The rest of a sequence is looked at only in states that its first step can leave. -/
theorem bind (hm : Ends m s p middle) (hf : ∀ a t, middle t → Ends (f a) t q post) :
    Ends (m >>= f) s (p ∧ q) post := by
  have hrun := run_bind m f s
  cases hfirst : (m.run.run s).1 with
  | error e =>
    have hp : ¬ p := by rw [← hm.succeeds_iff, hfirst]; exact Succeeds.not_error e
    rw [hfirst] at hrun
    exact ⟨by rw [hrun]; simp [hp], fun h => absurd h.1 hp⟩
  | ok a =>
    have hp : p := by rw [← hm.succeeds_iff, hfirst]; exact Succeeds.ok a
    have hrest := hf a _ (hm.state hp)
    rw [hfirst] at hrun
    exact ⟨by rw [hrun]; simpa [hp] using hrest.succeeds_iff,
      fun h => by rw [hrun]; exact hrest.state h.2⟩

/-- A first step that cannot fail leaves the condition to the rest. -/
theorem bind_of_true (hm : Ends m s True middle) (hf : ∀ a t, middle t → Ends (f a) t q post) :
    Ends (m >>= f) s q post := (hm.bind hf).congr (by simp)

/-- A last step that cannot fail leaves the condition to those before. -/
theorem bind_true (hm : Ends m s p middle) (hf : ∀ a t, middle t → Ends (f a) t True post) :
    Ends (m >>= f) s p post := (hm.bind hf).congr (by simp)

section Loops

variable {condition : α → Prop} (inv : List α → σ → Prop) {before : List α}

/-- A loop whose steps keep an invariant about the elements that are done succeeds when each of its
steps does. -/
theorem forM {step : α → ExceptT ε (StateM σ) PUnit} {as : List α}
    (h : ∀ a ∈ as, ∀ before t, inv before t →
      Ends (step a) t (condition a) (inv (before ++ [a]))) (hs : inv before s) :
    Ends (as.forM step) s (∀ a ∈ as, condition a) (inv (before ++ as)) := by
  induction as generalizing s before with
  | nil => exact (pure _ (by simpa using hs)).congr (by simp)
  | cons a as ih =>
    have hrest (t : σ) (ht : inv (before ++ [a]) t) :=
      ih (fun b hb => h b (List.mem_cons_of_mem a hb)) ht
    change Ends (step a >>= fun _ => as.forM step) s _ _
    have hboth := (h a List.mem_cons_self before s hs).bind fun _ t ht => hrest t ht
    simpa using hboth

theorem mapM {step : α → ExceptT ε (StateM σ) β} {as : List α}
    (h : ∀ a ∈ as, ∀ before t, inv before t →
      Ends (step a) t (condition a) (inv (before ++ [a]))) (hs : inv before s) :
    Ends (as.mapM step) s (∀ a ∈ as, condition a) (inv (before ++ as)) := by
  induction as generalizing s before with
  | nil => exact (pure _ (by simpa using hs)).congr (by simp)
  | cons a as ih =>
    have hrest (t : σ) (ht : inv (before ++ [a]) t) :=
      ih (fun b hb => h b (List.mem_cons_of_mem a hb)) ht
    rw [List.mapM_cons]
    have hboth := (h a List.mem_cons_self before s hs).bind fun b t ht =>
      (hrest t ht).bind fun bs u hu => pure (ε := ε) (b :: bs) hu
    simpa using hboth

end Loops
end Ends
end MarkdownWord
