import ExchangeRouter.Fallback
import Mathlib.Data.List.Count

/-!
# The fallback serves the calls that do not race

`step_cases` says once what an event does to the calls. With a primary that is down
(`PrimaryDown`) and no call started while another one waits for the primary
(`OneProbe`), every call ends with the secondary. Without the second condition the
call that loses the race raises the primary's exception.
-/

namespace ExchangeRouter
namespace Fallback

open Transition

variable {β : Type*}

/-! ## What an event does -/

/-- One event adds a call or changes one that waits. -/
theorem step_cases {s s' : State β} {ev : Event β} (h : step s ev = some s') :
    (∃ kind, ev = .start kind ∧ s' = { s with calls := s.calls ++ [s.newCall kind] }) ∨
    ∃ i a c side inTry, ev = .answer i a ∧ s.calls[i]? = some c ∧
      c.phase = .waiting side inTry ∧ s.onAnswer i c side inTry a = some s' := by
  cases ev with
  | start kind =>
    refine Or.inl ⟨kind, rfl, ?_⟩
    unfold step at h
    exact (Option.some.inj h).symm
  | answer i a =>
    unfold step at h
    cases hc : s.calls[i]? with
    | none => simp [hc] at h
    | some c =>
      simp only [hc] at h
      cases hphase : c.phase with
      | waiting side inTry =>
        simp only [hphase] at h
        exact Or.inr ⟨i, a, c, side, inTry, rfl, hc, hphase, h⟩
      | returned side => simp [hphase] at h
      | raised side e => simp [hphase] at h

/-- A call that gets an answer is replaced by one that waits on, or ended with its own side,
unless the exception of a guarded call degrades the pair. -/
theorem onAnswer_cases {s s' : State β} {i : ℕ} {c : Call β} {side : Side} {inTry : Bool}
    {a : Answer β} (h : s.onAnswer i c side inTry a = some s') :
    (∃ received phase, s' = s.setCall i { c with received := received, phase := phase } ∧
      (phase = c.phase ∨ phase.endedBy = some side)) ∨
    (inTry = true ∧ s.degraded = false ∧ (∃ e, a = .fault e ∧ catches c.kind e = true) ∧
      s' = s.degrade.setCall i
        { c with asked := c.asked ++ [.secondary], phase := .waiting .secondary false }) := by
  cases a with
  | item v =>
    cases hkind : c.kind with
    | fetch =>
      simp only [State.onAnswer, hkind, Option.some.injEq] at h
      exact Or.inl ⟨[v], .returned side, by rw [← h], Or.inr rfl⟩
    | stream =>
      simp only [State.onAnswer, hkind, Option.some.injEq] at h
      exact Or.inl ⟨c.received ++ [v], c.phase, by rw [← h], Or.inl rfl⟩
  | done =>
    cases hkind : c.kind with
    | fetch => simp [State.onAnswer, hkind] at h
    | stream =>
      simp only [State.onAnswer, hkind, Option.some.injEq] at h
      exact Or.inl ⟨c.received, .returned side, by rw [← h], Or.inr rfl⟩
  | fault e =>
    simp only [State.onAnswer, Option.some.injEq] at h
    unfold State.onFault at h
    split at h
    · next hcaught =>
      rw [Bool.and_eq_true] at hcaught
      -- a guarded call raises on a degraded pair, and falls back on one that is not
      split at h
      · exact Or.inl ⟨c.received, .raised side e, h.symm, Or.inr rfl⟩
      · next hdeg =>
        exact Or.inr ⟨hcaught.1, by simpa using hdeg, ⟨e, rfl, hcaught.2⟩, h.symm⟩
    · exact Or.inl ⟨c.received, .raised side e, h.symm, Or.inr rfl⟩

/-! ## The contract and the conditions -/

/-- Every call is served by the secondary, the degradation is announced once and by the time
a call has ended, and a call started afterwards never asks the primary. -/
structure Serves (s : State β) : Prop where
  served : ∀ c ∈ s.calls, c.phase.endedBy ≠ some .primary
  announced_eq : s.announced = if s.degraded then 1 else 0
  degraded_of_ended : ∀ c ∈ s.calls, c.phase.endedBy ≠ none → s.degraded = true
  no_late_primary : ∀ c ∈ s.calls, c.startedDegraded = true → .primary ∉ c.asked

/-- The primary answers every request with `RouterUnreachable`. -/
def PrimaryDown (s : State β) : Event β → Prop
  | .start _ => True
  | .answer i a => ∀ c, s.calls[i]? = some c → c.phase.onPrimary = true →
      ∃ message, a = .fault (.routerUnreachable message)

/-- No call is started while another waits for the primary. -/
def OneProbe (s : State β) : Event β → Prop
  | .start _ => ∀ c ∈ s.calls, c.phase.onPrimary = false
  | .answer _ _ => True

/-! ## The invariant -/

/-- The calls that wait for the primary. -/
def State.probes (s : State β) : ℕ := s.calls.countP fun c => c.phase.onPrimary

/-- Before the degradation every call waits for the primary, under its `except` clause, and
at most one does; afterwards none does. -/
structure Inv (s : State β) : Prop extends Serves s where
  probes_le : s.probes ≤ if s.degraded then 0 else 1
  probing : s.degraded = false → ∀ c ∈ s.calls, c.phase = .waiting .primary true

lemma Inv.init : Inv ({} : State β) := by
  refine ⟨⟨?_, rfl, ?_, ?_⟩, Nat.zero_le _, ?_⟩ <;> intro h <;> simp_all

/-- A call that waits on after the degradation waits for the secondary. -/
lemma Inv.not_onPrimary {s : State β} (h : Inv s) (hdeg : s.degraded = true) {c : Call β}
    (hc : c ∈ s.calls) : c.phase.onPrimary = false := by
  have hzero : s.probes = 0 := by
    have hle := h.probes_le
    rw [hdeg] at hle
    simpa using hle
  have hall := List.countP_eq_zero.mp hzero c hc
  simpa using hall

/-- Starting a call keeps the invariant when no other one waits for the primary. -/
lemma Inv.start {s : State β} (h : Inv s) (kind : Kind)
    (hone : ∀ c ∈ s.calls, c.phase.onPrimary = false) :
    Inv { s with calls := s.calls ++ [s.newCall kind] } := by
  have hnew : ∀ {p : Call β → Prop}, (∀ c ∈ s.calls, p c) → p (s.newCall kind) →
      ∀ c ∈ s.calls ++ [s.newCall kind], p c := by
    intro p hold hnew c hc
    rcases List.mem_append.mp hc with hc | hc
    · exact hold c hc
    · rw [List.mem_singleton.mp hc]
      exact hnew
  have hnone : s.probes = 0 := List.countP_eq_zero.mpr fun c hc => by simp [hone c hc]
  refine ⟨⟨hnew h.served (by simp [State.newCall, Phase.endedBy]), h.announced_eq,
    hnew h.degraded_of_ended (by simp [State.newCall, Phase.endedBy]),
    hnew h.no_late_primary ?_⟩, ?_, fun hdeg => hnew (h.probing hdeg) ?_⟩
  · intro hlate
    -- a call that starts on the degraded pair asks the secondary
    have hdeg : s.degraded = true := hlate
    simp [State.newCall, State.pick, hdeg]
  · show (s.calls ++ [s.newCall kind]).countP _ ≤ _
    rw [List.countP_append, show s.calls.countP _ = 0 from hnone]
    cases hdeg : s.degraded <;> simp [State.newCall, State.pick, hdeg, Phase.onPrimary]
  · have hdeg' : s.degraded = false := hdeg
    simp [State.newCall, State.pick, hdeg']

/-- Replacing a call keeps a property of all calls that the new one has. -/
lemma forall_set {p : Call β → Prop} {calls : List (Call β)} {i : ℕ} {c : Call β}
    (hall : ∀ c ∈ calls, p c) (hnew : p c) : ∀ c' ∈ calls.set i c, p c' := by
  intro c' hc'
  rcases List.mem_or_eq_of_mem_set hc' with hc' | rfl
  · exact hall c' hc'
  · exact hnew

/-- The one call that waits for the primary falls back, and nobody is left there. -/
lemma Inv.fallBack {s : State β} (h : Inv s) {i : ℕ} {c : Call β} (hc : s.calls[i]? = some c)
    (hdeg : s.degraded = false) :
    Inv (s.degrade.setCall i
      { c with asked := c.asked ++ [.secondary], phase := .waiting .secondary false }) := by
  have hmem : c ∈ s.calls := List.mem_of_getElem? hc
  obtain ⟨hi, hget⟩ := List.getElem?_eq_some_iff.mp hc
  refine ⟨⟨forall_set h.served (by simp [Phase.endedBy]), ?_, fun _ _ _ => rfl,
    forall_set h.no_late_primary fun hlate => ?_⟩, ?_, fun hdeg' => ?_⟩
  · show s.announced + 1 = 1
    rw [h.announced_eq, hdeg]
    rfl
  · have hnot := h.no_late_primary c hmem hlate
    simpa using hnot
  · -- it was the only one there
    have hle : s.probes ≤ 1 := by
      have hle := h.probes_le
      rwa [hdeg] at hle
    have hprobe : s.calls[i].phase.onPrimary = true := by
      rw [hget, h.probing hdeg c hmem]
      rfl
    show (s.calls.set i _).countP (fun c => c.phase.onPrimary) ≤ 0
    unfold State.probes at hle
    rw [List.countP_set hi, if_pos hprobe, if_neg (by simp [Phase.onPrimary])]
    omega
  · exact absurd hdeg' (by simp [State.setCall, State.degrade])

/-- A call of the degraded pair gets on or ends, with the secondary. -/
lemma Inv.settle {s : State β} (h : Inv s) (hdeg : s.degraded = true) {i : ℕ} {c : Call β}
    (hc : s.calls[i]? = some c) {side : Side} {inTry : Bool}
    (hphase : c.phase = .waiting side inTry) (received : List β) {phase : Phase}
    (hnext : phase = c.phase ∨ phase.endedBy = some side) :
    Inv (s.setCall i { c with received := received, phase := phase }) := by
  have hmem : c ∈ s.calls := List.mem_of_getElem? hc
  obtain ⟨hi, hget⟩ := List.getElem?_eq_some_iff.mp hc
  have hside : side = .secondary := by
    have hnot := h.not_onPrimary hdeg hmem
    cases side with
    | primary => simp [hphase, Phase.onPrimary] at hnot
    | secondary => rfl
  have hnot : phase.onPrimary = false := by
    rcases hnext with rfl | hended
    · exact h.not_onPrimary hdeg hmem
    · cases phase <;> simp_all [Phase.endedBy, Phase.onPrimary]
  refine ⟨⟨forall_set h.served ?_, h.announced_eq, fun _ _ _ => hdeg,
    forall_set h.no_late_primary (h.no_late_primary c hmem)⟩, ?_,
    fun hdeg' => absurd (hdeg.symm.trans hdeg') (by simp)⟩
  · rcases hnext with rfl | hended
    · exact h.served c hmem
    · simp [hended, hside]
  · have hold : s.calls[i].phase.onPrimary = false := by
      rw [hget]
      exact h.not_onPrimary hdeg hmem
    have hle := h.probes_le
    unfold State.probes at hle
    show (s.calls.set i _).countP (fun c => c.phase.onPrimary) ≤ if s.degraded then 0 else 1
    rw [List.countP_set hi, if_neg (by simp [hold]), if_neg (by simp [hnot])]
    exact hle

/-- Every event that meets the two conditions keeps the invariant. -/
theorem Inv.step {s s' : State β} {ev : Event β} (h : Inv s) (hdown : PrimaryDown s ev)
    (hone : OneProbe s ev) (hstep : step s ev = some s') : Inv s' := by
  rcases step_cases hstep with ⟨kind, rfl, rfl⟩ | ⟨i, a, c, side, inTry, rfl, hc, hphase, hans⟩
  · exact h.start kind hone
  have hmem : c ∈ s.calls := List.mem_of_getElem? hc
  rcases onAnswer_cases hans with ⟨received, phase, rfl, hnext⟩ | ⟨-, hdeg, -, rfl⟩
  · cases hdeg : s.degraded with
    | true => exact h.settle hdeg hc hphase received hnext
    | false =>
      -- a call of the undegraded pair is guarded, so the answer of the primary degrades it
      exfalso
      have hwait := h.probing hdeg c hmem
      obtain ⟨message, rfl⟩ := hdown c hc (by rw [hwait]; rfl)
      obtain ⟨rfl, rfl⟩ : side = .primary ∧ inTry = true := by
        rw [hwait] at hphase
        simpa [eq_comm] using hphase
      have hfall : s.degrade.setCall i { c with
            asked := c.asked ++ [.secondary], phase := .waiting .secondary false } =
          s.setCall i { c with received := received, phase := phase } := by
        simpa [State.onAnswer, State.onFault, catches, hdeg] using hans
      have hflag := congrArg State.degraded hfall
      simp [State.setCall, State.degrade, hdeg] at hflag
  · exact h.fallBack hc hdeg

/-- In every run over a primary that is down in which no call starts while another waits for
it, the fallback serves. -/
theorem run_serves (es : List (Event β)) (s : State β)
    (hdown : Meets step PrimaryDown ({} : State β) es)
    (hone : Meets step OneProbe ({} : State β) es) (hrun : run step {} es = some s) :
    Serves s := by
  have hboth : Meets step (fun s ev => PrimaryDown s ev ∧ OneProbe s ev) ({} : State β) es :=
    hdown.and hone
  exact (invariant_of_meets (fun s ev s' h hc => h.step hc.1 hc.2) Inv.init hboth hrun).toServes

/-- A fetch that probes the primary and falls back, then a stream on the secondary. -/
theorem run_serves_fetch_then_stream :
    ∃ s : State ℕ, run step {} [.start .fetch,
        .answer 0 (.fault (.routerUnreachable "ConnectError: ")), .start .stream,
        .answer 0 (.item 7), .answer 1 (.item 8), .answer 1 .done] = some s ∧
      Serves s ∧ s.calls.map Call.received = [[7], [8]] := by
  refine ⟨_, rfl, ?_, rfl⟩
  apply run_serves [.start .fetch, .answer 0 (.fault (.routerUnreachable "ConnectError: ")),
    .start .stream, .answer 0 (.item 7), .answer 1 (.item 8), .answer 1 .done]
  · simp [Meets, PrimaryDown, step, State.newCall, State.pick, State.onAnswer, State.onFault,
      catches, State.degrade, State.setCall, Phase.onPrimary]
  · simp [Meets, OneProbe, step, State.newCall, State.pick, State.onAnswer, State.onFault,
      catches, State.degrade, State.setCall, Phase.onPrimary]
  · rfl

/-! ## The race -/

/-- Of two guarded calls that wait for the primary, the one whose failure arrives second
raises it, whatever else is in flight. -/
theorem second_probe_raises (s : State β) {i j : ℕ} (hij : i ≠ j) {c d : Call β}
    (hc : s.calls[i]? = some c) (hcwait : c.phase = .waiting .primary true)
    (hd : s.calls[j]? = some d) (hdwait : d.phase = .waiting .primary true) (m m' : String) :
    ∃ s', run step s [.answer i (.fault (.routerUnreachable m)),
        .answer j (.fault (.routerUnreachable m'))] = some s' ∧
      s'.calls[j]? = some { d with phase := .raised .primary (.routerUnreachable m') } := by
  obtain ⟨hj, -⟩ := List.getElem?_eq_some_iff.mp hd
  -- after the first failure the pair is degraded, and the other call has not moved
  have hfirst : ∃ t, step s (.answer i (.fault (.routerUnreachable m))) = some t ∧
      t.degraded = true ∧ t.calls[j]? = some d := by
    have hset : ∀ c' : Call β, (s.calls.set i c')[j]? = some d := by
      intro c'
      rw [List.getElem?_set_ne hij]
      exact hd
    cases hdeg : s.degraded <;>
      simp [step, hc, hcwait, State.onAnswer, State.onFault, catches, hdeg, State.setCall,
        State.degrade, hset]
  obtain ⟨t, hstep, hdeg, hdt⟩ := hfirst
  have hjt : j < t.calls.length := (List.getElem?_eq_some_iff.mp hdt).1
  refine ⟨t.setCall j { d with phase := .raised .primary (.routerUnreachable m') }, ?_, ?_⟩
  · rw [run_cons]
    refine ⟨t, hstep, ?_⟩
    rw [run_cons]
    refine ⟨_, ?_, rfl⟩
    simp [step, hdt, hdwait, State.onAnswer, State.onFault, catches, hdeg]
  · show (t.calls.set j _)[j]? = _
    rw [List.getElem?_set_self hjt]

/-- Two fetches in flight when the service goes away: the second one raises the primary's
`RouterUnreachable`. -/
theorem two_fetches_race :
    let events : List (Event ℕ) := [.start .fetch, .start .fetch,
      .answer 0 (.fault (.routerUnreachable "ConnectError: ")),
      .answer 1 (.fault (.routerUnreachable "ConnectError: "))]
    Meets step PrimaryDown {} events ∧ ∃ s, run step {} events = some s ∧
      s.calls[1]?.map Call.phase = some (.raised .primary (.routerUnreachable "ConnectError: ")) ∧
      ¬ Serves s := by
  intro events
  refine ⟨?_, _, rfl, rfl, ?_⟩
  · simp [events, Meets, PrimaryDown, step, State.newCall, State.pick, State.onAnswer,
      State.onFault, catches, State.degrade, State.setCall, Phase.onPrimary]
  · intro h
    exact h.served _ (List.mem_cons_of_mem _ List.mem_cons_self) rfl

end Fallback
end ExchangeRouter
