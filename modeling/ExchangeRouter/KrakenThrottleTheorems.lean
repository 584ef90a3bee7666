import ExchangeRouter.KrakenThrottle
import Mathlib.Data.List.Chain
import Mathlib.Tactic.Linarith
import Mathlib.Tactic.NormNum

/-!
# How the throttle of Kraken spaces requests

A delay is only listed when it is positive, so a round that need not wait finds every interval
passed. `step_cases` says what an event can do; `Sound` is kept by each of them.
-/

namespace ExchangeRouter
namespace KrakenThrottle

open Transition MakeRequest

/-! ## What a round without a wait says -/

lemma remaining_pos {deadline : WithTop ℚ} {now : ℚ} (h : (now : WithTop ℚ) < deadline) :
    0 < remaining deadline now := by
  induction deadline with
  | top => exact WithTop.coe_lt_top 0
  | coe d =>
    have hlt : now < d := WithTop.coe_lt_coe.mp h
    exact WithTop.coe_lt_coe.mpr (sub_pos.mpr hlt)

lemma missing_pos (s : State) (last interval : ℚ) : ∀ d ∈ s.missing last interval, 0 < d := by
  intro d hd
  unfold State.missing at hd
  split at hd
  · next h =>
    rw [List.mem_singleton.mp hd]
    exact WithTop.coe_lt_coe.mpr (sub_pos.mpr h.2)
  · exact absurd hd List.not_mem_nil

/-- A delay is only listed when it is positive. -/
lemma delays_pos (s : State) (r : Request) : ∀ d ∈ s.delays r, 0 < d := by
  intro d hd
  unfold State.delays at hd
  rcases List.mem_append.mp hd with hd | hd
  · rcases List.mem_append.mp hd with hd | hd
    · split at hd
      · next h =>
        rw [List.mem_singleton.mp hd]
        exact remaining_pos h
      · exact absurd hd List.not_mem_nil
    · exact missing_pos s _ _ d hd
  · split at hd
    · exact absurd hd List.not_mem_nil
    · exact missing_pos s _ _ d hd

/-- Where nothing is to be waited for, nothing delays. -/
lemma delays_of_wait {s : State} {r : Request} (h : s.wait r ≤ 0) : s.delays r = [] := by
  by_contra hne
  obtain ⟨m, hm⟩ := Option.isSome_iff_exists.mp (List.isSome_max?_iff.mpr hne)
  have hmem : m ∈ s.delays r := (List.max?_eq_some_iff.mp hm).1
  unfold State.wait at h
  rw [hm] at h
  exact absurd (delays_pos s r m hmem) (not_lt.mpr h)

/-- Where nothing is missing to the interval after `last`, it has passed. -/
lemma of_missing_nil {s : State} {last interval : ℚ} (h : s.missing last interval = [])
    (hpos : 0 < last) : last + interval ≤ s.now := by
  unfold State.missing at h
  split at h
  · exact absurd h (by simp)
  · next hnot =>
    have hle : interval ≤ s.now - last := not_lt.mp fun hlt => hnot ⟨hpos, hlt⟩
    linarith

/-- What a call that need not wait finds. -/
structure Clear (s : State) (r : Request) : Prop where
  backoff : s.backoffUntil ≤ (s.now : WithTop ℚ)
  request : 0 < s.lastRequestAt → s.lastRequestAt + s.globalIntervalMs / 1000 ≤ s.now
  pair : ∀ key last, pairKey r = some key → s.lastPairCallAt.lookup key = some last → 0 < last →
    last + pairIntervalMs / 1000 ≤ s.now

/-- A round that does not wait is clear of every interval. -/
lemma clear_of_wait {s : State} {r : Request} (h : s.wait r ≤ 0) : Clear s r := by
  have hnil := delays_of_wait h
  unfold State.delays at hnil
  obtain ⟨hfirst, hpair⟩ := List.append_eq_nil_iff.mp hnil
  obtain ⟨hbackoff, hrequest⟩ := List.append_eq_nil_iff.mp hfirst
  refine ⟨?_, of_missing_nil hrequest, ?_⟩
  · split at hbackoff
    · exact absurd hbackoff (by simp)
    · next hnot => exact not_lt.mp hnot
  · intro key last hkey hlast hpos
    rw [hkey] at hpair
    simp only [hlast, Option.getD_some] at hpair
    exact of_missing_nil hpair hpos

/-! ## What holds in every run -/

/-- All that an event can do. -/
lemma step_cases {s s' : State} {e : Event} (hstep : step s e = some s') :
    (∃ t, s.now ≤ t ∧ s' = { s with now := t }) ∨
      (∃ i r callers, Clear { s with callers := callers } r ∧
          s' = State.grant { s with callers := callers } i r) ∨
      (∃ callers, s' = { s with callers := callers }) ∨
      ∃ attempt retryUntil strong random, s' = s.setBackoff attempt retryUntil strong random := by
  have hround : ∀ (callers : List Caller) (i : ℕ) (r : Request) (jitter : ℚ),
      State.round { s with callers := callers } i r jitter = s' →
      (∃ i r callers, Clear { s with callers := callers } r ∧
          s' = State.grant { s with callers := callers } i r) ∨
        ∃ callers, s' = { s with callers := callers } := by
    intro callers i r jitter hs'
    unfold State.round at hs'
    split at hs'
    · next hwait => exact Or.inl ⟨i, r, callers, clear_of_wait hwait, hs'.symm⟩
    · exact Or.inr ⟨_, hs'.symm⟩
  cases e with
  | tick t =>
    simp only [step] at hstep
    split at hstep
    · next hle => exact Or.inl ⟨t, hle, (Option.some.inj hstep).symm⟩
    · exact absurd hstep (by simp)
  | awaitThrottle r jitter =>
    simp only [step] at hstep
    split at hstep
    · rcases hround _ _ _ _ (Option.some.inj hstep) with h | h
      · exact Or.inr (Or.inl h)
      · exact Or.inr (Or.inr (Or.inl h))
    · exact absurd hstep (by simp)
  | wake i jitter =>
    simp only [step] at hstep
    split at hstep
    · split at hstep
      · rcases hround s.callers _ _ _ (Option.some.inj hstep) with h | h
        · exact Or.inr (Or.inl h)
        · exact Or.inr (Or.inr (Or.inl h))
      · exact absurd hstep (by simp)
    · exact absurd hstep (by simp)
  | setBackoff attempt retryUntil strong random =>
    simp only [step] at hstep
    split at hstep
    · exact Or.inr (Or.inr (Or.inr ⟨_, _, _, _, (Option.some.inj hstep).symm⟩))
    · exact absurd hstep (by simp)
  | cancel i =>
    simp only [step] at hstep
    split at hstep
    · exact Or.inr (Or.inr (Or.inl ⟨_, (Option.some.inj hstep).symm⟩))
    · exact absurd hstep (by simp)

/-- What `_set_backoff` touches. -/
lemma setBackoff_eq (s : State) (attempt : ℕ) (retryUntil : Option PyFloat) (strong : Bool)
    (random : ℚ) :
    ∃ backoffUntil slowdownUntil extraIntervalMs,
      s.setBackoff attempt retryUntil strong random =
          { s with
            backoffUntil := backoffUntil
            slowdownUntil := slowdownUntil
            extraIntervalMs := extraIntervalMs } ∧
        s.backoffUntil ≤ backoffUntil ∧ s.slowdownUntil ≤ slowdownUntil ∧
        s.extraIntervalMs ≤ extraIntervalMs ∧
        (slowdownUntil = s.slowdownUntil ∨ 1000 ≤ extraIntervalMs) := by
  cases strong with
  | false => exact ⟨_, _, _, rfl, le_max_left _ _, le_rfl, le_rfl, Or.inl rfl⟩
  | true =>
    exact ⟨_, _, _, rfl, le_max_left _ _, le_max_left _ _, le_max_left _ _,
      Or.inr (le_max_right _ _)⟩

/-- The later of two consecutive grants is an interval after the earlier one. -/
def Spaced (g g' : Grant) : Prop :=
  g.time + 1 / 5 ≤ g'.time ∧ (g'.time < g'.slowdownUntil → g.time + 6 / 5 ≤ g'.time)

/-- Two grants for one endpoint and pair are the pair interval apart. -/
def PairSpaced (g g' : Grant) : Prop :=
  ∀ key, pairKey g.request = some key → pairKey g'.request = some key →
    g.time + 11 / 10 ≤ g'.time

/-- The adapter remembers the last grant, and the last one of every pair. -/
structure Sound (s : State) : Prop where
  now_pos : 0 < s.now
  last : ∀ g ∈ s.grants.getLast?, g.time = s.lastRequestAt
  time_pos : ∀ g ∈ s.grants, 0 < g.time
  pair : ∀ g ∈ s.grants, ∀ key, pairKey g.request = some key →
    ∃ last, s.lastPairCallAt.lookup key = some last ∧ g.time ≤ last
  extra : 0 < s.slowdownUntil → 1000 ≤ s.extraIntervalMs
  backoff : ∀ g ∈ s.grants, g.backoffUntil ≤ (g.time : WithTop ℚ)
  spaced : s.grants.IsChain Spaced
  pairSpaced : s.grants.Pairwise PairSpaced

lemma Sound.start {now : ℚ} (hpos : 0 < now) : Sound { now := now } where
  now_pos := hpos
  last := fun _ h => absurd h (by simp)
  time_pos := fun _ h => absurd h List.not_mem_nil
  pair := fun _ h => absurd h List.not_mem_nil
  extra := fun h => absurd h (lt_irrefl 0)
  backoff := fun _ h => absurd h List.not_mem_nil
  spaced := List.IsChain.nil
  pairSpaced := List.Pairwise.nil

lemma Sound.callers {s : State} (h : Sound s) (callers : List Caller) :
    Sound { s with callers := callers } :=
  ⟨h.now_pos, h.last, h.time_pos, h.pair, h.extra, h.backoff, h.spaced, h.pairSpaced⟩

/-- While a slowdown is active the interval is the long one. -/
lemma Sound.globalIntervalMs {s : State} (h : Sound s) :
    200 ≤ s.globalIntervalMs ∧ (s.now < s.slowdownUntil → 1200 ≤ s.globalIntervalMs) := by
  unfold State.globalIntervalMs baseIntervalMs
  split
  · next hslow =>
    have hextra := h.extra (h.now_pos.trans hslow)
    exact ⟨by linarith, fun _ => by linarith⟩
  · next hslow => exact ⟨le_rfl, fun hlt => absurd hlt hslow⟩

/-- The last grant for every pair, after a grant. -/
lemma Sound.pair_grant {s : State} (h : Sound s) {r : Request} (hclear : Clear s r) (i : ℕ) :
    ∀ g ∈ (s.grant i r).grants, ∀ key, pairKey g.request = some key →
      ∃ last, (s.grant i r).lastPairCallAt.lookup key = some last ∧ g.time ≤ last := by
  intro g hg key hkey
  cases hr : pairKey r with
  | none =>
    have hsame : (s.grant i r).lastPairCallAt = s.lastPairCallAt := by
      unfold State.grant
      rw [hr]
    rw [hsame]
    rcases List.mem_append.mp hg with hg | hg
    · exact h.pair g hg key hkey
    · rw [List.mem_singleton.mp hg] at hkey
      exact absurd (hr.symm.trans hkey) (by simp)
  | some key' =>
    have hinsert : (s.grant i r).lastPairCallAt = s.lastPairCallAt.insert key' s.now := by
      unfold State.grant
      rw [hr]
    rw [hinsert, Dict.lookup_insert]
    rcases List.mem_append.mp hg with hg | hg
    · obtain ⟨last, hlast, hle⟩ := h.pair g hg key hkey
      split
      · next heq =>
        -- the grant before it for the same key is the pair interval back
        have hpos : 0 < last := lt_of_lt_of_le (h.time_pos g hg) hle
        have hnow := hclear.pair key last (heq ▸ hr) hlast hpos
        unfold pairIntervalMs at hnow
        exact ⟨s.now, rfl, by linarith⟩
      · exact ⟨last, hlast, hle⟩
    · rw [List.mem_singleton.mp hg] at hkey ⊢
      have heq : key = key' := Option.some.inj (hkey.symm.trans hr)
      rw [if_pos heq]
      exact ⟨s.now, rfl, le_rfl⟩

/-- A grant to a call that need not wait. -/
lemma Sound.grant {s : State} (h : Sound s) {r : Request} (hclear : Clear s r) (i : ℕ) :
    Sound (s.grant i r) := by
  refine ⟨h.now_pos, ?_, ?_, h.pair_grant hclear i, h.extra, ?_, ?_, ?_⟩
  · intro g hg
    have hlast : (s.grants ++ [_]).getLast? = some g := hg
    rw [List.getLast?_concat] at hlast
    rw [← Option.some.inj hlast]
    rfl
  · intro g hg
    rcases List.mem_append.mp hg with hg | hg
    · exact h.time_pos g hg
    · rw [List.mem_singleton.mp hg]
      exact h.now_pos
  · intro g hg
    rcases List.mem_append.mp hg with hg | hg
    · exact h.backoff g hg
    · rw [List.mem_singleton.mp hg]
      exact hclear.backoff
  · -- only the last grant is before the new one
    refine List.isChain_append.mpr ⟨h.spaced, List.IsChain.singleton _, ?_⟩
    intro g hg g' hg'
    obtain rfl := Option.some.inj hg'
    have htime := h.last g hg
    have hpos : 0 < s.lastRequestAt := by
      rw [← htime]
      exact h.time_pos g (List.mem_of_getLast? hg)
    have hle := hclear.request hpos
    obtain ⟨hbase, hslow⟩ := h.globalIntervalMs
    refine ⟨?_, fun hactive => ?_⟩
    · show g.time + 1 / 5 ≤ s.now
      linarith
    · have hlong := hslow hactive
      show g.time + 6 / 5 ≤ s.now
      linarith
  · refine List.pairwise_append.mpr ⟨h.pairSpaced, List.pairwise_singleton _ _, ?_⟩
    intro g hg g' hg' key hkey hkey'
    obtain rfl := List.mem_singleton.mp hg'
    obtain ⟨last, hlast, hle⟩ := h.pair g hg key hkey
    have hpair := hclear.pair key last hkey' hlast (lt_of_lt_of_le (h.time_pos g hg) hle)
    unfold pairIntervalMs at hpair
    show g.time + 11 / 10 ≤ s.now
    linarith

/-- Every step keeps the grants apart. -/
lemma Sound.step {s s' : State} {e : Event} (h : Sound s) (hstep : step s e = some s') :
    Sound s' := by
  rcases step_cases hstep with ⟨t, hle, rfl⟩ | ⟨i, r, callers, hclear, rfl⟩ | ⟨callers, rfl⟩ |
    ⟨attempt, retryUntil, strong, random, rfl⟩
  · exact ⟨lt_of_lt_of_le h.now_pos hle, h.last, h.time_pos, h.pair, h.extra, h.backoff, h.spaced,
      h.pairSpaced⟩
  · exact (h.callers callers).grant hclear i
  · exact h.callers callers
  · obtain ⟨backoffUntil, slowdownUntil, extraIntervalMs, heq, -, -, hextra, hkept⟩ :=
      setBackoff_eq s attempt retryUntil strong random
    rw [heq]
    refine ⟨h.now_pos, h.last, h.time_pos, h.pair, ?_, h.backoff, h.spaced, h.pairSpaced⟩
    intro hpos
    rcases hkept with hkept | hkept
    · exact (h.extra (hkept ▸ hpos)).trans hextra
    · exact hkept

/-- A deadline only moves on. -/
lemma deadlines_step {s s' : State} {e : Event} (hstep : step s e = some s') :
    s.backoffUntil ≤ s'.backoffUntil ∧ s.slowdownUntil ≤ s'.slowdownUntil := by
  rcases step_cases hstep with ⟨t, hle, rfl⟩ | ⟨i, r, callers, hclear, rfl⟩ | ⟨callers, rfl⟩ |
    ⟨attempt, retryUntil, strong, random, rfl⟩
  · exact ⟨le_rfl, le_rfl⟩
  · exact ⟨le_rfl, le_rfl⟩
  · exact ⟨le_rfl, le_rfl⟩
  · obtain ⟨backoffUntil, slowdownUntil, extraIntervalMs, heq, hbackoff, hslowdown, -, -⟩ :=
      setBackoff_eq s attempt retryUntil strong random
    rw [heq]
    exact ⟨hbackoff, hslowdown⟩

/-- The deadlines never fall. -/
lemma deadlines_run {s s' : State} {events : List Event}
    (hrun : run KrakenThrottle.step s events = some s') :
    s.backoffUntil ≤ s'.backoffUntil ∧ s.slowdownUntil ≤ s'.slowdownUntil := by
  have hpres : ∀ t e t', (s.backoffUntil ≤ t.backoffUntil ∧ s.slowdownUntil ≤ t.slowdownUntil) →
      KrakenThrottle.step t e = some t' →
      s.backoffUntil ≤ t'.backoffUntil ∧ s.slowdownUntil ≤ t'.slowdownUntil := by
    intro t e t' hbefore hstep
    have hon := deadlines_step hstep
    exact ⟨hbefore.1.trans hon.1, hbefore.2.trans hon.2⟩
  exact invariant_of_run hpres ⟨le_rfl, le_rfl⟩ hrun

/-- No call returns before the backoff is over; consecutive returns are 200 ms apart, 1200 ms
where a slowdown is active, and returns for one endpoint and pair 1100 ms. The deadlines never
move earlier. -/
theorem await_throttle_spaced (now : ℚ) (hpos : 0 < now) (events : List Event) (s : State)
    (hrun : run step { now := now } events = some s) :
    (∀ g ∈ s.grants, g.backoffUntil ≤ (g.time : WithTop ℚ)) ∧
      s.grants.IsChain (fun g g' =>
        g.time + 1 / 5 ≤ g'.time ∧ (g'.time < g'.slowdownUntil → g.time + 6 / 5 ≤ g'.time)) ∧
      s.grants.Pairwise (fun g g' =>
        ∀ key, pairKey g.request = some key → pairKey g'.request = some key →
          g.time + 11 / 10 ≤ g'.time) ∧
      ∀ later s', run step s later = some s' →
        s.backoffUntil ≤ s'.backoffUntil ∧ s.slowdownUntil ≤ s'.slowdownUntil := by
  have h : Sound s :=
    invariant_of_run (fun _ _ _ hs hstep => hs.step hstep) (Sound.start hpos) hrun
  exact ⟨h.backoff, h.spaced, h.pairSpaced, fun later s' hlater => deadlines_run hlater⟩

/-- A request for candles of a pair. -/
def ohlc : Request :=
  ⟨"https://api.kraken.com/0/public/OHLC", some [("pair", .text "XBTUSD"), ("interval", .int 60)]⟩

/-- A request that names no pair. -/
def assets : Request := ⟨"https://api.kraken.com/0/public/Assets", none⟩

/-- A call, a backoff until 7, and another call at 6.5, -/
def backedOff : List Event :=
  [.awaitThrottle ohlc (1 / 100), .setBackoff 0 (some (.finite 7)) false 0, .tick (13 / 2),
    .awaitThrottle assets (1 / 100)]

/-- which goes on when the backoff is over; then a third in the slowdown of a strong backoff. -/
def threeCalls : List Event :=
  backedOff ++ [.tick (701 / 100), .wake 1 (1 / 100),
    .setBackoff 0 (some (.finite (15 / 2))) true 0, .tick 8, .awaitThrottle ohlc (1 / 100),
    .tick (822 / 100), .wake 2 (1 / 100)]

/-- Only the backoff holds the second call back, and only the slowdown the third. -/
theorem await_throttle_spaced_three_calls :
    ((run step { now := 5 } backedOff).map fun s => (s.delays assets, s.grants.map Grant.time)) =
        some ([((1 / 2 : ℚ) : WithTop ℚ)], [5]) ∧
      ∃ s, run step { now := 5 } threeCalls = some s ∧
        (s.grants.map fun g => (g.caller, g.time)) = [(0, 5), (1, 701 / 100), (2, 822 / 100)] ∧
        (s.grants.map fun g => (g.backoffUntil, g.slowdownUntil)) =
          [(0, 0), (((7 : ℚ) : WithTop ℚ), 0), (((15 / 2 : ℚ) : WithTop ℚ), 6701 / 100)] ∧
        (∀ g ∈ s.grants, g.backoffUntil ≤ (g.time : WithTop ℚ)) ∧
        s.grants.IsChain (fun g g' => g.time + 1 / 5 ≤ g'.time ∧
          (g'.time < g'.slowdownUntil → g.time + 6 / 5 ≤ g'.time)) ∧
        s.grants.Pairwise fun g g' => ∀ key, pairKey g.request = some key →
          pairKey g'.request = some key → g.time + 11 / 10 ≤ g'.time := by
  refine ⟨by decide +kernel, ?_⟩
  have hgrants : (run step { now := 5 } threeCalls).map (fun s =>
      (s.grants.map (fun g => (g.caller, g.time)),
        s.grants.map fun g => (g.backoffUntil, g.slowdownUntil))) =
      some ([(0, 5), (1, 701 / 100), (2, 822 / 100)],
        [(0, 0), (((7 : ℚ) : WithTop ℚ), 0), (((15 / 2 : ℚ) : WithTop ℚ), 6701 / 100)]) := by
    decide +kernel
  obtain ⟨s, hrun, hboth⟩ := Option.map_eq_some_iff.mp hgrants
  obtain ⟨htimes, hdeadlines⟩ := Prod.mk.inj hboth
  obtain ⟨hbackoff, hchain, hpairs, -⟩ := await_throttle_spaced 5 (by norm_num) _ s hrun
  exact ⟨s, hrun, htimes, hdeadlines, hbackoff, hchain, hpairs⟩

end KrakenThrottle
end ExchangeRouter
