import ExchangeRouter.Lib.Dict
import ExchangeRouter.Lib.Transition
import ExchangeRouter.Lib.Windows
import Mathlib.Algebra.Order.Field.Rat

/-!
# The rate bucket of OKX

Any number of `_RateBucket.acquire` calls on one bucket. Nothing is awaited while the lock is held,
so a round of `acquire` is one event, up to its return or its sleep. `grants` records which call
was granted when.
-/

namespace ExchangeRouter
namespace RateBucket

open Transition Windows

/-- A call: asleep until a time, returned, out of the loop with an `IndexError`, or cancelled in
its sleep. -/
inductive Caller where
  | asleep (wake : ℚ)
  | returned
  | raised
  | cancelled
deriving DecidableEq, Repr

/-- `max` and `window`. -/
structure Bucket where
  max : ℕ
  window : ℚ
deriving DecidableEq, Repr

/-- The bucket's times and its callers. No code reads `grants`. -/
structure State where
  now : ℚ
  timestamps : List ℚ := []
  callers : List Caller := []
  grants : List (ℕ × ℚ) := []
deriving DecidableEq, Repr

/-- The clock goes on, a call begins, wakes or is cancelled. A `jitter` is what
`random.uniform(0, 0.05)` returns. -/
inductive Event where
  | tick (t : ℚ)
  | acquire (jitter : ℚ)
  | wake (i : ℕ) (jitter : ℚ)
  | cancel (i : ℕ)
deriving DecidableEq, Repr

section

variable (b : Bucket)

/-- The eviction of the times that are over a window old. -/
def State.kept (s : State) : List ℚ :=
  s.timestamps.dropWhile fun t => decide (t < s.now - b.window)

/-- A round of `acquire` by call `i`. -/
def State.round (s : State) (i : ℕ) (jitter : ℚ) : State :=
  if (s.kept b).length < b.max then
    { s with
      timestamps := s.kept b ++ [s.now]
      callers := s.callers.set i .returned
      grants := s.grants ++ [(i, s.now)] }
  else
    match s.kept b with
    | [] => { s with timestamps := [], callers := s.callers.set i .raised }
    | oldest :: rest =>
      { s with
        timestamps := oldest :: rest
        callers := s.callers.set i
          (.asleep (s.now + (Max.max (oldest + b.window - s.now) (1 / 100) + jitter))) }

/-- `random.uniform(0, 0.05)`. -/
def isJitter (jitter : ℚ) : Bool := decide (0 ≤ jitter ∧ jitter ≤ 1 / 20)

/-- A step of the bucket, `none` where the event cannot happen. -/
def step (s : State) : Event → Option State
  | .tick t => if s.now ≤ t then some { s with now := t } else none
  | .acquire jitter =>
    if isJitter jitter then
      some (State.round b { s with callers := s.callers ++ [.cancelled] } s.callers.length jitter)
    else none
  | .wake i jitter =>
    match s.callers[i]? with
    | some (.asleep wake) =>
      if wake ≤ s.now ∧ isJitter jitter then some (s.round b i jitter) else none
    | _ => none
  | .cancel i =>
    match s.callers[i]? with
    | some (.asleep _) => some { s with callers := s.callers.set i .cancelled }
    | _ => none

end

/-- The times of the grants, oldest first. -/
def State.times (s : State) : List ℚ := s.grants.map Prod.snd

/-- The calls that were granted. -/
def State.granted (s : State) : List ℕ := s.grants.map Prod.fst

/-! ## What holds in every run -/

/-- The deque holds the recent grants, and the calls that have returned are the granted ones. -/
structure Sound (b : Bucket) (s : State) : Prop where
  recent : Recent b.window s.now s.times s.timestamps
  bounded : Bounded b.max b.window s.times
  nodup : s.granted.Nodup
  returned : ∀ i : ℕ, s.callers[i]? = some .returned ↔ i ∈ s.granted

variable {b : Bucket}

lemma Sound.start (b : Bucket) (now : ℚ) : Sound b { now := now } where
  recent := Recent.nil b.window now
  bounded := bounded_nil b.max b.window
  nodup := List.nodup_nil
  returned := fun i => by
    show (([] : List Caller)[i]? = _) ↔ i ∈ ([] : List ℕ)
    simp

/-- A call that sleeps, raises or is cancelled is as little granted as before. -/
lemma Sound.returned_set {s : State} (h : Sound b s) {i : ℕ} (hlt : i < s.callers.length)
    (hnot : i ∉ s.granted) {c : Caller} (hc : c ≠ .returned) (j : ℕ) :
    (s.callers.set i c)[j]? = some .returned ↔ j ∈ s.granted := by
  rw [Dict.get_set (List.getElem?_eq_getElem hlt)]
  split
  · next hij =>
    rw [hij]
    exact ⟨fun heq => absurd (Option.some.inj heq) hc, fun hin => absurd hin hnot⟩
  · exact h.returned j

/-- A round keeps the grants of the others; the call itself must not have been granted yet. -/
lemma Sound.round {s : State} (h : Sound b s) {i : ℕ} (hlt : i < s.callers.length)
    (hnot : i ∉ s.granted) (jitter : ℚ) : Sound b (s.round b i jitter) := by
  have hkept : Recent b.window s.now s.times (s.kept b) := h.recent.evict
  unfold State.round
  split
  · next hroom =>
    have htimes : (s.grants ++ [(i, s.now)]).map Prod.snd = s.times ++ [s.now] := by
      rw [List.map_append]
      rfl
    have hgranted : (s.grants ++ [(i, s.now)]).map Prod.fst = s.granted ++ [i] := by
      rw [List.map_append]
      rfl
    refine ⟨?_, ?_, ?_, fun j => ?_⟩
    · show Recent _ _ (List.map _ _) _
      rw [htimes]
      exact hkept.snoc s.now
    · show Bounded _ _ (List.map _ _)
      rw [htimes]
      exact h.bounded.snoc hkept hroom
    · show (List.map _ _).Nodup
      rw [hgranted]
      exact h.nodup.append (List.nodup_singleton i) (List.disjoint_singleton.mpr hnot)
    · show (s.callers.set i .returned)[j]? = _ ↔ j ∈ List.map _ _
      rw [hgranted, Dict.get_set (List.getElem?_eq_getElem hlt), List.mem_append,
        List.mem_singleton]
      split
      · next hij => exact ⟨fun _ => Or.inr hij, fun _ => rfl⟩
      · next hij => exact ⟨fun heq => Or.inl ((h.returned j).mp heq),
          fun hin => (h.returned j).mpr (hin.resolve_right hij)⟩
  · split
    · next hnil =>
      -- a bucket of none: `_timestamps[0]` raises
      rw [hnil] at hkept
      exact ⟨hkept, h.bounded, h.nodup, h.returned_set hlt hnot (by simp)⟩
    · next oldest rest hcons =>
      rw [hcons] at hkept
      exact ⟨hkept, h.bounded, h.nodup, h.returned_set hlt hnot (by simp)⟩

/-- A new call has a number that no grant has. -/
lemma Sound.entered {s : State} (h : Sound b s) :
    s.callers.length ∉ s.granted ∧ Sound b { s with callers := s.callers ++ [.cancelled] } := by
  have hnew : s.callers.length ∉ s.granted := by
    intro hin
    have hget := (h.returned _).mpr hin
    rw [List.getElem?_eq_none le_rfl] at hget
    exact absurd hget (by simp)
  refine ⟨hnew, h.recent, h.bounded, h.nodup, fun j => ?_⟩
  show (s.callers ++ [.cancelled])[j]? = _ ↔ j ∈ s.granted
  rw [Dict.get_append]
  split
  · next hj =>
    rw [hj]
    exact ⟨fun heq => absurd heq (by simp), fun hin => absurd hin hnew⟩
  · exact h.returned j

/-- A call that sleeps has not been granted. -/
lemma Sound.not_granted {s : State} (h : Sound b s) {i : ℕ} {wake : ℚ}
    (hasleep : s.callers[i]? = some (.asleep wake)) : i ∉ s.granted := by
  intro hin
  rw [(h.returned i).mpr hin] at hasleep
  exact absurd hasleep (by simp)

lemma Sound.cancelled {s : State} (h : Sound b s) {i : ℕ} {wake : ℚ}
    (hasleep : s.callers[i]? = some (.asleep wake)) :
    Sound b { s with callers := s.callers.set i .cancelled } := by
  have hlt : i < s.callers.length := (List.getElem?_eq_some_iff.mp hasleep).1
  exact ⟨h.recent, h.bounded, h.nodup, h.returned_set hlt (h.not_granted hasleep) (by simp)⟩

/-- All that an event can do. -/
lemma step_cases {s s' : State} {e : Event} (hstep : step b s e = some s') :
    (∃ t, s.now ≤ t ∧ s' = { s with now := t }) ∨
      (∃ jitter, s' = State.round b { s with callers := s.callers ++ [.cancelled] }
        s.callers.length jitter) ∨
      (∃ i wake jitter, s.callers[i]? = some (.asleep wake) ∧ s' = s.round b i jitter) ∨
      ∃ i wake, s.callers[i]? = some (.asleep wake) ∧
        s' = { s with callers := s.callers.set i .cancelled } := by
  cases e with
  | tick t =>
    simp only [step] at hstep
    split at hstep
    · next hle => exact Or.inl ⟨t, hle, (Option.some.inj hstep).symm⟩
    · exact absurd hstep (by simp)
  | acquire jitter =>
    simp only [step] at hstep
    split at hstep
    · exact Or.inr (Or.inl ⟨jitter, (Option.some.inj hstep).symm⟩)
    · exact absurd hstep (by simp)
  | wake i jitter =>
    simp only [step] at hstep
    split at hstep
    · next hasleep =>
      split at hstep
      · exact Or.inr (Or.inr (Or.inl ⟨i, _, jitter, hasleep, (Option.some.inj hstep).symm⟩))
      · exact absurd hstep (by simp)
    · exact absurd hstep (by simp)
  | cancel i =>
    simp only [step] at hstep
    split at hstep
    · next hasleep =>
      exact Or.inr (Or.inr (Or.inr ⟨i, _, hasleep, (Option.some.inj hstep).symm⟩))
    · exact absurd hstep (by simp)

lemma Sound.step {s s' : State} {e : Event} (h : Sound b s)
    (hstep : RateBucket.step b s e = some s') : Sound b s' := by
  rcases step_cases hstep with ⟨t, hle, rfl⟩ | ⟨jitter, rfl⟩ | ⟨i, wake, jitter, hasleep, rfl⟩ |
    ⟨i, wake, hasleep, rfl⟩
  · exact ⟨h.recent.later hle, h.bounded, h.nodup, h.returned⟩
  · obtain ⟨hnew, hgrown⟩ := h.entered
    exact hgrown.round (by simp) hnew jitter
  · have hlt : i < s.callers.length := (List.getElem?_eq_some_iff.mp hasleep).1
    exact h.round hlt (h.not_granted hasleep) jitter
  · exact h.cancelled hasleep

lemma grants_prefix_round (s : State) (i : ℕ) (jitter : ℚ) :
    s.grants <+: (s.round b i jitter).grants := by
  unfold State.round
  split
  · exact List.prefix_append _ _
  · split
    · exact List.prefix_refl _
    · exact List.prefix_refl _

/-- A grant stays. -/
lemma grants_prefix_step {s s' : State} {e : Event} (hstep : step b s e = some s') :
    s.grants <+: s'.grants := by
  rcases step_cases hstep with ⟨t, -, rfl⟩ | ⟨jitter, rfl⟩ | ⟨i, wake, jitter, -, rfl⟩ |
    ⟨i, wake, -, rfl⟩
  · exact List.prefix_refl _
  · exact grants_prefix_round { s with callers := s.callers ++ [.cancelled] } _ jitter
  · exact grants_prefix_round s i jitter
  · exact List.prefix_refl _

lemma grants_prefix_of_run {s s' : State} {events : List Event}
    (hrun : run (step b) s events = some s') :
    s.grants <+: s'.grants := by
  have hpres : ∀ t e t', s.grants <+: t.grants → step b t e = some t' → s.grants <+: t'.grants :=
    fun t e t' hbefore hstep => hbefore.trans (grants_prefix_step hstep)
  exact invariant_of_run hpres (List.prefix_refl _) hrun

/-- In every closed interval of the window's length at most `max` grants; no call is granted twice,
the calls that returned are the granted ones, and a grant is never taken back. -/
theorem acquire_bounded (b : Bucket) (now : ℚ) (events : List Event) (s : State)
    (hrun : run (step b) { now := now } events = some s) :
    (∀ t, (s.times.countP fun a => decide (t ≤ a ∧ a ≤ t + b.window)) ≤ b.max) ∧
      s.granted.Nodup ∧ (∀ i : ℕ, s.callers[i]? = some .returned ↔ i ∈ s.granted) ∧
      ∀ later s', run (step b) s later = some s' → s.grants <+: s'.grants := by
  have h : Sound b s :=
    invariant_of_run (fun _ _ _ hs hstep => hs.step hstep) (Sound.start b now) hrun
  exact ⟨h.bounded, h.nodup, h.returned, fun later s' hlater => grants_prefix_of_run hlater⟩

/-- Two calls on a bucket of one. A grant that is a window old to the second still counts. -/
theorem acquire_bounded_two_calls :
    ∃ s, run (step ⟨1, 2⟩) { now := 5 }
        [.acquire 0, .acquire 0, .tick 7, .wake 1 0, .tick 8, .wake 1 0] = some s ∧
      s.grants = [(0, 5), (1, 8)] ∧
      ∀ t, (s.times.countP fun a => decide (t ≤ a ∧ a ≤ t + 2)) ≤ 1 := by
  have hrun : run (step ⟨1, 2⟩) { now := 5 }
      [.acquire 0, .acquire 0, .tick 7, .wake 1 0, .tick 8, .wake 1 0] =
        some ⟨8, [8], [.returned, .returned], [(0, 5), (1, 8)]⟩ := by
    decide +kernel
  exact ⟨_, hrun, rfl, (acquire_bounded ⟨1, 2⟩ 5 _ _ hrun).1⟩

end RateBucket
end ExchangeRouter
