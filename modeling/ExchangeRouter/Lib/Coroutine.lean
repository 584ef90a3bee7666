import Mathlib.Tactic.Basic

/-!
# Coroutines over a shared state

A coroutine reads and writes a shared state, and awaits the answer to a request. Between two
awaits nobody else runs: `stretch` is what it does until the next one. `wp` is its weakest
precondition against a `Contract` that a family of coroutines keeps with one another: what
holds whenever one of them awaits or has ended (`inv`), how the state may change meanwhile
(`rely`), when a request may be made (`asks`) and which answers it may get (`answers`).
-/

/-- A coroutine over states `σ` with requests `ρ`, answers `ι` and exceptions `ε`. -/
inductive Coroutine (σ ρ ι ε α : Type) where
  | returns (a : α)
  | raises (e : ε)
  | reads (k : σ → Coroutine σ ρ ι ε α)
  | writes (f : σ → σ) (k : Coroutine σ ρ ι ε α)
  | awaits (request : ρ) (k : ι → Coroutine σ ρ ι ε α)

namespace Coroutine

variable {σ ρ ι ε α β : Type}

/-- `f` goes on with what the coroutine returns. -/
def bind : Coroutine σ ρ ι ε α → (α → Coroutine σ ρ ι ε β) → Coroutine σ ρ ι ε β
  | returns a, f => f a
  | raises e, _ => raises e
  | reads k, f => reads fun s => (k s).bind f
  | writes g k, f => writes g (k.bind f)
  | awaits request k, f => awaits request fun i => (k i).bind f

instance : Monad (Coroutine σ ρ ι ε) where
  pure := returns
  bind := bind

/-- How a stretch comes to its end. -/
inductive Pause (σ ρ ι ε α : Type) where
  | ended (result : Except ε α)
  | waits (request : ρ) (next : ι → Coroutine σ ρ ι ε α)

/-- The coroutine up to its next await. -/
def stretch : Coroutine σ ρ ι ε α → σ → σ × Pause σ ρ ι ε α
  | returns a, s => (s, .ended (.ok a))
  | raises e, s => (s, .ended (.error e))
  | reads k, s => (k s).stretch s
  | writes f k, s => k.stretch (f s)
  | awaits request k, s => (s, .waits request k)

/-- A coroutine that raises before its first await goes no further. -/
lemma stretch_bind_of_raises {c : Coroutine σ ρ ι ε α} {s s' : σ} {e : ε}
    (h : c.stretch s = (s', .ended (.error e))) (f : α → Coroutine σ ρ ι ε β) :
    (c >>= f).stretch s = (s', .ended (.error e)) := by
  show (c.bind f).stretch s = _
  induction c generalizing s with
  | returns a => simp [stretch] at h
  | raises e' =>
    simp only [stretch, Prod.mk.injEq, Pause.ended.injEq, Except.error.injEq] at h
    simp only [bind, stretch, h.1, h.2]
  | reads k ih => exact ih s h
  | writes g k ih => exact ih h
  | awaits request k => simp [stretch] at h

/-! ## Contracts -/

/-- `arrives` is what the arrival of an answer does to the state, before the coroutine runs. -/
structure Contract (σ ρ ι : Type) where
  inv : σ → Prop
  rely : σ → σ → Prop
  asks : ρ → σ → Prop
  answers : ρ → ι → σ → Prop
  arrives : ρ → ι → σ → σ

variable (C : Contract σ ρ ι)

/-- The state `s` of a stretch that began in `s₀` may be left to the others. -/
def Contract.Ready (s₀ s : σ) : Prop := C.inv s ∧ C.rely s₀ s

/-- The weakest precondition in the state `s` of a stretch that began in `s₀`. The
postcondition is about the last stretch. -/
def wp : Coroutine σ ρ ι ε α → (Except ε α → σ → σ → Prop) → σ → σ → Prop
  | returns a, Q, s₀, s => Q (.ok a) s₀ s
  | raises e, Q, s₀, s => Q (.error e) s₀ s
  | reads k, Q, s₀, s => wp (k s) Q s₀ s
  | writes f k, Q, s₀, s => wp k Q s₀ (f s)
  | awaits request k, Q, s₀, s => C.Ready s₀ s ∧ C.asks request s ∧
    ∀ i s', C.Ready s s' → C.answers request i s' → wp (k i) Q s' (C.arrives request i s')

variable {C}

/-- The rule for a read of the state. -/
lemma wp_reads {k : σ → Coroutine σ ρ ι ε α} {Q : Except ε α → σ → σ → Prop} {s₀ s : σ}
    (h : (k s).wp C Q s₀ s) : (reads k).wp C Q s₀ s := h

/-- The rule for a branch. -/
lemma wp_ite {p : Prop} [Decidable p] {c d : Coroutine σ ρ ι ε α}
    {Q : Except ε α → σ → σ → Prop} {s₀ s : σ} (hpos : p → c.wp C Q s₀ s)
    (hneg : ¬ p → d.wp C Q s₀ s) : (if p then c else d).wp C Q s₀ s := by
  split
  · next hp => exact hpos hp
  · next hp => exact hneg hp

/-- The rule for a sequence. -/
lemma wp_bind {c : Coroutine σ ρ ι ε α} {f : α → Coroutine σ ρ ι ε β}
    {Q : Except ε α → σ → σ → Prop} {R : Except ε β → σ → σ → Prop} {s₀ s : σ}
    (h : c.wp C Q s₀ s) (hok : ∀ a s₀ s, Q (.ok a) s₀ s → (f a).wp C R s₀ s)
    (herror : ∀ e s₀ s, Q (.error e) s₀ s → R (.error e) s₀ s) :
    (c >>= f).wp C R s₀ s := by
  show (c.bind f).wp C R s₀ s
  induction c generalizing s₀ s with
  | returns a => exact hok a _ _ h
  | raises e => exact herror e _ _ h
  | reads k ih => exact ih s h
  | writes g k ih => exact ih h
  | awaits request k ih =>
    exact ⟨h.1, h.2.1, fun i s' hready hanswers => ih i (h.2.2 i s' hready hanswers)⟩

/-- What a coroutine that waits may be answered with, from the state `s` on. -/
def Suspended (C : Contract σ ρ ι) (request : ρ) (next : ι → Coroutine σ ρ ι ε α)
    (Q : Except ε α → σ → σ → Prop) (s : σ) : Prop :=
  ∀ i s', C.Ready s s' → C.answers request i s' →
    (next i).wp C Q s' (C.arrives request i s')

/-- While it waits the others may run. -/
lemma Suspended.later (htrans : ∀ {s t u}, C.rely s t → C.rely t u → C.rely s u)
    {request : ρ} {next : ι → Coroutine σ ρ ι ε α} {Q : Except ε α → σ → σ → Prop} {s t : σ}
    (h : Suspended C request next Q s) (hrely : C.rely s t) : Suspended C request next Q t := by
  intro i s' hready hanswers
  exact h i s' ⟨hready.1, htrans hrely hready.2⟩ hanswers

/-- A stretch of a coroutine whose precondition holds: it is left ready, and where it awaits,
its request may be made. -/
theorem ready_of_stretch {c : Coroutine σ ρ ι ε α} {s₀ s : σ}
    (h : c.wp C (fun _ => C.Ready) s₀ s) :
    C.Ready s₀ (c.stretch s).1 ∧ ∀ request next, (c.stretch s).2 = .waits request next →
      C.asks request (c.stretch s).1 ∧
        Suspended C request next (fun _ => C.Ready) (c.stretch s).1 := by
  induction c generalizing s with
  | returns a => exact ⟨h, fun _ _ heq => by simp [stretch] at heq⟩
  | raises e => exact ⟨h, fun _ _ heq => by simp [stretch] at heq⟩
  | reads k ih => exact ih s h
  | writes f k ih => exact ih h
  | awaits request k =>
    refine ⟨h.1, fun request' next heq => ?_⟩
    simp only [stretch, Pause.waits.injEq] at heq
    obtain ⟨rfl, rfl⟩ := heq
    exact h.2

end Coroutine
