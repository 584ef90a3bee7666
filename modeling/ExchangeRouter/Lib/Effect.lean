import Mathlib.Tactic.Basic

/-!
# Computations that change a state and may raise

`Effect` is the standard `ExceptT` over `StateM`: what was written before an exception stays
written. `Keeps` says which states a computation may end in, by a relation to the one it began
in, and `Returns` what it may return. A computation in several parts keeps a transitive relation
that its parts keep.
-/

/-- A computation over states `σ` that returns an `α` or raises an `ε`. -/
abbrev Effect (σ ε α : Type) : Type := ExceptT ε (StateM σ) α

namespace Effect

variable {σ ε α β : Type}

/-- The outcome and the state after it. -/
def exec (m : Effect σ ε α) (s : σ) : Except ε α × σ := StateT.run (ExceptT.run m) s

@[simp] lemma exec_pure (a : α) (s : σ) : exec (pure a : Effect σ ε α) s = (.ok a, s) := rfl

@[simp] lemma exec_throw (e : ε) (s : σ) : exec (throw e : Effect σ ε α) s = (.error e, s) := rfl

@[simp] lemma exec_get (s : σ) : exec (get : Effect σ ε σ) s = (.ok s, s) := rfl

@[simp] lemma exec_modify (f : σ → σ) (s : σ) :
    exec (modify f : Effect σ ε PUnit) s = (.ok ⟨⟩, f s) := rfl

/-- A sequence goes on from where its first part came to. -/
lemma exec_bind (m : Effect σ ε α) (f : α → Effect σ ε β) (s : σ) :
    exec (m >>= f) s =
      match exec m s with
      | (.ok a, s') => exec (f a) s'
      | (.error e, s') => (.error e, s') := by
  rcases hm : exec m s with ⟨e | a, s'⟩
  · unfold exec at hm ⊢
    rw [ExceptT.run_bind, StateT.run_bind, hm]
    rfl
  · unfold exec at hm ⊢
    rw [ExceptT.run_bind, StateT.run_bind, hm]
    rfl

lemma exec_bind_ok {m : Effect σ ε α} {s s' : σ} {a : α} (h : exec m s = (.ok a, s'))
    (f : α → Effect σ ε β) : exec (m >>= f) s = exec (f a) s' := by rw [exec_bind, h]

lemma exec_bind_error {m : Effect σ ε α} {s s' : σ} {e : ε} (h : exec m s = (.error e, s'))
    (f : α → Effect σ ε β) : exec (m >>= f) s = (.error e, s') := by rw [exec_bind, h]

/-- A handler takes over where the body raised. -/
lemma exec_tryCatch (m : Effect σ ε α) (handler : ε → Effect σ ε α) (s : σ) :
    exec (tryCatch m handler) s =
      match exec m s with
      | (.ok a, s') => (.ok a, s')
      | (.error e, s') => exec (handler e) s' := by
  rcases hm : exec m s with ⟨e | a, s'⟩
  · unfold exec at hm ⊢
    rw [ExceptT.run_tryCatch, StateT.run_bind, hm]
    rfl
  · unfold exec at hm ⊢
    rw [ExceptT.run_tryCatch, StateT.run_bind, hm]
    rfl

/-! ## What happens to the state -/

/-- Wherever the computation begins, it ends in a related state. -/
def Keeps (R : σ → σ → Prop) (m : Effect σ ε α) : Prop := ∀ s, R s (exec m s).2

section

variable {R : σ → σ → Prop}

lemma keeps_pure (hrefl : ∀ s, R s s) (a : α) : Keeps R (pure a : Effect σ ε α) := hrefl

lemma keeps_throw (hrefl : ∀ s, R s s) (e : ε) : Keeps R (throw e : Effect σ ε α) := hrefl

lemma keeps_get (hrefl : ∀ s, R s s) : Keeps R (get : Effect σ ε σ) := hrefl

lemma keeps_modify {f : σ → σ} (h : ∀ s, R s (f s)) : Keeps R (modify f : Effect σ ε PUnit) := h

lemma keeps_bind (htrans : ∀ s t u, R s t → R t u → R s u) {m : Effect σ ε α}
    {f : α → Effect σ ε β} (hm : Keeps R m) (hf : ∀ a, Keeps R (f a)) : Keeps R (m >>= f) := by
  intro s
  have hfirst := hm s
  rcases hexec : exec m s with ⟨e | a, t⟩
  · rw [exec_bind_error hexec]
    rwa [hexec] at hfirst
  · rw [exec_bind_ok hexec]
    rw [hexec] at hfirst
    exact htrans _ _ _ hfirst (hf a t)

lemma keeps_tryCatch (htrans : ∀ s t u, R s t → R t u → R s u) {m : Effect σ ε α}
    {handler : ε → Effect σ ε α} (hm : Keeps R m) (hh : ∀ e, Keeps R (handler e)) :
    Keeps R (tryCatch m handler) := by
  intro s
  have hfirst := hm s
  rw [exec_tryCatch]
  rcases hexec : exec m s with ⟨e | a, t⟩
  · rw [hexec] at hfirst
    exact htrans _ _ _ hfirst (hh e t)
  · rwa [hexec] at hfirst

end

/-! ## What is returned -/

/-- Whatever the computation returns has the property. -/
def Returns (Q : α → Prop) (m : Effect σ ε α) : Prop := ∀ s a s', exec m s = (.ok a, s') → Q a

section

variable {Q : α → Prop}

lemma returns_pure {a : α} (h : Q a) : Returns Q (pure a : Effect σ ε α) := by
  intro s a' s' hexec
  rw [exec_pure, Prod.mk.injEq, Except.ok.injEq] at hexec
  rwa [← hexec.1]

lemma returns_throw (e : ε) : Returns Q (throw e : Effect σ ε α) := by
  intro s a s' hexec
  rw [exec_throw, Prod.mk.injEq] at hexec
  exact absurd hexec.1 (by simp)

lemma returns_bind {m : Effect σ ε β} {f : β → Effect σ ε α} (hf : ∀ b, Returns Q (f b)) :
    Returns Q (m >>= f) := by
  intro s a s' hexec
  rcases hfirst : exec m s with ⟨e | b, t⟩
  · rw [exec_bind_error hfirst] at hexec
    exact absurd (congrArg Prod.fst hexec) (by simp)
  · rw [exec_bind_ok hfirst] at hexec
    exact hf b t a s' hexec

lemma returns_tryCatch {m : Effect σ ε α} {handler : ε → Effect σ ε α} (hm : Returns Q m)
    (hh : ∀ e, Returns Q (handler e)) : Returns Q (tryCatch m handler) := by
  intro s a s' hexec
  rw [exec_tryCatch] at hexec
  rcases hbody : exec m s with ⟨e | b, t⟩
  · rw [hbody] at hexec
    exact hh e t a s' hexec
  · rw [hbody] at hexec
    rw [Prod.mk.injEq, Except.ok.injEq] at hexec
    exact hexec.1 ▸ hm s b t hbody

end

end Effect
