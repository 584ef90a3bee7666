import ExchangeRouter.ManagerShutdown
import ExchangeRouter.StreamManagerSteps

/-!
# What a shutdown leaves behind

A handler that no longer runs only ends: it sends nothing and closes nobody (`stopped_own`). A
`shutdown` stops every handler there is, so whoever was attached before it is never sent to nor
closed again, while clients that come later get handlers of their own. `Managed`, the invariant of
the manager, holds throughout, and the call can always come to its return.
-/

namespace ExchangeRouter
namespace ManagerShutdown

open StreamManager (Handler Phase Client Managed Known Served Reach cancel_eq own_of_step
  others_of_step stopped_own stopped_of_step served_of_attached reach_of_step known_of_step)
open Transition

section

variable {κ ι : Type*} [DecidableEq κ] {m : StreamManager.State κ ι} {i : ℕ} {hd : Handler κ}

/-! ## The stretch of a shutdown -/

omit [DecidableEq κ] in
lemma foldl_cancel (tasks : List ℕ) (m : StreamManager.State κ ι) :
    ∀ m', tasks.foldl (fun m i => m.cancel (some i)) m = m' →
    m'.activeStreams = m.activeStreams ∧ m'.upstreamTasks = m.upstreamTasks ∧
    m'.clients = m.clients ∧ m'.sends = m.sends ∧ m'.closes = m.closes ∧
    ∀ j, m'.handlers[j]? = (m.handlers[j]?).map fun hd =>
      if j ∈ tasks then { hd with cancelled := true } else hd := by
  induction tasks generalizing m with
  | nil =>
    rintro m' rfl
    refine ⟨rfl, rfl, rfl, rfl, rfl, fun j => ?_⟩
    simp
  | cons i tasks ih =>
    intro m' hfold
    obtain ⟨hactive, htasks, hclients, hsends, hcloses, hhandlers⟩ := cancel_eq m i
    obtain ⟨hactive', htasks', hclients', hsends', hcloses', hhandlers'⟩ :=
      ih (m.cancel (some i)) m' hfold
    refine ⟨hactive'.trans hactive, htasks'.trans htasks, hclients'.trans hclients,
      hsends'.trans hsends, hcloses'.trans hcloses, fun j => ?_⟩
    rw [hhandlers' j, hhandlers j, Option.map_map]
    congr 1
    funext hd
    show (if j ∈ tasks then _ else if j = i then _ else hd) = _
    by_cases hj : j = i
    · simp [hj]
    · simp [hj]

lemma mem_tasksOf : i ∈ tasksOf m ↔ ∃ key, m.upstreamTasks.lookup key = some i := by
  unfold tasksOf
  rw [List.mem_map]
  constructor
  · rintro ⟨⟨key, j⟩, hmem, rfl⟩
    exact ⟨key, AList.mem_lookup_iff.mpr hmem⟩
  · rintro ⟨key, hkey⟩
    exact ⟨⟨key, i⟩, AList.mem_lookup_iff.mp hkey, rfl⟩

omit [DecidableEq κ] in
/-- What a `shutdown` has done by its first await. -/
lemma cancelAll_eq (m : StreamManager.State κ ι) :
    (cancelAll m).activeStreams = ∅ ∧ (cancelAll m).upstreamTasks = ∅ ∧
    (cancelAll m).clients = m.clients ∧ (cancelAll m).sends = m.sends ∧
    (cancelAll m).closes = m.closes ∧
    ∀ j, (cancelAll m).handlers[j]? = (m.handlers[j]?).map fun hd =>
      if j ∈ tasksOf m then { hd with cancelled := true } else hd :=
  foldl_cancel (tasksOf m) { m with activeStreams := ∅, upstreamTasks := ∅ } _ rfl

omit [DecidableEq κ] in
lemma cancelAll_length (m : StreamManager.State κ ι) :
    (cancelAll m).handlers.length = m.handlers.length := by
  have hall : ∀ j, (cancelAll m).handlers.length ≤ j ↔ m.handlers.length ≤ j := by
    intro j
    rw [← List.getElem?_eq_none_iff, (cancelAll_eq m).2.2.2.2.2 j, Option.map_eq_none_iff,
      List.getElem?_eq_none_iff]
  exact le_antisymm ((hall _).mpr le_rfl) ((hall _).mp le_rfl)

/-- It leaves no handler that runs. -/
lemma cancelAll_stopped (h : Managed m) (hi : (cancelAll m).handlers[i]? = some hd) :
    ¬ hd.Running := by
  intro hrun
  rw [(cancelAll_eq m).2.2.2.2.2 i] at hi
  obtain ⟨old, hold, rfl⟩ := Option.map_eq_some_iff.mp hi
  split at hrun
  · exact absurd hrun.1 (by simp)
  · next hnot => exact hnot (mem_tasksOf.mpr ⟨old.key, h.running i old hold hrun⟩)

lemma managed_cancelAll (h : Managed m) : Managed (cancelAll m) := by
  obtain ⟨hactive, htasks, hclients, -, -, hhandlers⟩ := cancelAll_eq m
  refine ⟨?_, ?_, ?_, ?_, ?_, ?_⟩
  · intro key
    simp only [hactive, htasks, Dict.lookup_empty]
  · intro key bucket hbucket
    rw [hactive, Dict.lookup_empty] at hbucket
    exact absurd hbucket (by simp)
  · intro key i hi
    rw [htasks, Dict.lookup_empty] at hi
    exact absurd hi (by simp)
  · intro i hd hi hrun
    exact absurd hrun (cancelAll_stopped h hi)
  · intro key bucket hbucket
    rw [hactive, Dict.lookup_empty] at hbucket
    exact absurd hbucket (by simp)
  · intro i hd clientItems hi hphase
    rw [hhandlers i] at hi
    obtain ⟨old, hold, rfl⟩ := Option.map_eq_some_iff.mp hi
    rw [hclients]
    split at hphase
    · next hin =>
      rw [if_pos hin]
      exact h.sending i old clientItems hold hphase
    · next hnot =>
      rw [if_neg hnot]
      exact h.sending i old clientItems hold hphase

end

/-! ## Runs with shutdowns -/

section

variable {κ ι : Type*} [DecidableEq κ] {s s' t : State κ ι} {e : Event κ ι}

/-- What an event does. -/
lemma step_cases (hstep : step s e = some s') :
    (∃ e₀ m', e = .base e₀ ∧ StreamManager.step s.manager e₀ = some m' ∧
      s' = { s with manager := m' }) ∨
    (∃ j, e = .closingEnds j ∧ j ∈ s.closing ∧ s' = { s with ended := s.ended ++ [j] }) ∨
    (e = .shutdown ∧ s' = s.shutdown) ∨
    (∃ k tasks, e = .resume k ∧ s.calls[k]? = some (.tasks tasks) ∧
      (∀ i ∈ tasks, isDone s.manager i = true) ∧
      s' = { s with calls := s.calls.set k s.waitClosings }) ∨
    ∃ k places, e = .resume k ∧ s.calls[k]? = some (.closings places) ∧
      (∀ j ∈ places, j ∈ s.ended) ∧ s' = { s with calls := s.calls.set k .returned } := by
  cases e with
  | base e₀ =>
    obtain ⟨m', hm, rfl⟩ := Option.map_eq_some_iff.mp hstep
    exact .inl ⟨e₀, m', rfl, hm, rfl⟩
  | closingEnds j =>
    simp only [step] at hstep
    split at hstep
    · next hin => exact .inr (.inl ⟨j, rfl, hin, (Option.some.inj hstep).symm⟩)
    · exact absurd hstep (by simp)
  | shutdown => exact .inr (.inr (.inl ⟨rfl, (Option.some.inj hstep).symm⟩))
  | resume k =>
    right; right; right
    simp only [step] at hstep
    split at hstep
    · next tasks hcall =>
      split at hstep
      · next hall =>
        refine .inl ⟨k, tasks, rfl, hcall, ?_, (Option.some.inj hstep).symm⟩
        exact List.all_eq_true.mp hall
      · exact absurd hstep (by simp)
    · next places hcall =>
      split at hstep
      · next hall =>
        refine .inr ⟨k, places, rfl, hcall, fun j hj => ?_, (Option.some.inj hstep).symm⟩
        exact of_decide_eq_true (List.all_eq_true.mp hall j hj)
      · exact absurd hstep (by simp)
    · exact absurd hstep (by simp)

omit [DecidableEq κ] in
lemma mem_closing {j : ℕ} : j ∈ s.closing ↔
    (∃ c, s.manager.closes[j]? = some (c, "Send timeout")) ∧ j ∉ s.ended := by
  unfold State.closing
  rw [List.mem_filter, List.mem_range, Bool.and_eq_true, decide_eq_true_eq, decide_eq_true_eq]
  constructor
  · rintro ⟨-, hreason, hended⟩
    obtain ⟨⟨c, reason⟩, hentry, rfl⟩ := Option.map_eq_some_iff.mp hreason
    exact ⟨⟨c, hentry⟩, hended⟩
  · rintro ⟨⟨c, hentry⟩, hended⟩
    refine ⟨(List.getElem?_eq_some_iff.mp hentry).1, ?_, hended⟩
    rw [hentry]
    rfl

/-- The handler was cancelled, and where it has not ended it was not closing clients. -/
def Stopping (m : StreamManager.State κ ι) (i : ℕ) : Prop :=
  ∃ hd, m.handlers[i]? = some hd ∧ hd.cancelled = true ∧
    (hd.phase = .done ∨ hd.phase.beforeExit = true)

/-- The invariant: that of the manager, and what the `shutdown` calls wait for will come. -/
structure Pending (s : State κ ι) : Prop where
  managed : Managed s.manager
  known : Known s.manager
  tasks : ∀ (k : ℕ) tasks, s.calls[k]? = some (.tasks tasks) → ∀ i ∈ tasks, Stopping s.manager i
  places : ∀ (k : ℕ) places, s.calls[k]? = some (.closings places) →
    ∀ j ∈ places, j ∈ s.closing ∨ j ∈ s.ended

/-- A cancelled handler stays so. -/
lemma stopping_of_step {m m' : StreamManager.State κ ι} {e₀ : StreamManager.Event κ ι} {i : ℕ}
    (h : Managed m) (hi : Stopping m i) (hstep : StreamManager.step m e₀ = some m') :
    Stopping m' i := by
  obtain ⟨hd, hget, hcancelled, hphase⟩ := hi
  have hstop : ¬ hd.Running := fun hrun => absurd hrun.1 (by simp [hcancelled])
  by_cases hhandler : e₀.handler? = some i
  · rw [stopped_own h hget hstop hhandler hstep]
    refine ⟨{ hd with phase := .done }, ?_, hcancelled, .inl rfl⟩
    simp only [StreamManager.State.setHandler, Dict.get_set hget, if_pos]
  · rcases others_of_step hstep hget hhandler with hsame | hmore
    · exact ⟨hd, hsame, hcancelled, hphase⟩
    · exact ⟨_, hmore, rfl, hphase⟩

/-- An ended handler stays so. -/
lemma isDone_of_step {m m' : StreamManager.State κ ι} {e₀ : StreamManager.Event κ ι} {i : ℕ}
    (h : Managed m) (hi : isDone m i = true) (hstep : StreamManager.step m e₀ = some m') :
    isDone m' i = true := by
  unfold isDone at hi ⊢
  cases hget : m.handlers[i]? with
  | none =>
    rw [hget] at hi
    exact absurd hi (by simp)
  | some hd =>
    rw [hget] at hi
    have hphase : hd.phase = .done := of_decide_eq_true hi
    have hstop : ¬ hd.Running := fun hrun => absurd hrun.2 (by simp [hphase, Phase.beforeExit])
    by_cases hhandler : e₀.handler? = some i
    · rw [stopped_own h hget hstop hhandler hstep]
      simp only [StreamManager.State.setHandler, Dict.get_set hget, if_pos]
      rfl
    · rcases others_of_step hstep hget hhandler with hsame | hmore
      · rw [hsame]
        exact decide_eq_true hphase
      · rw [hmore]
        exact decide_eq_true hphase

omit [DecidableEq κ] in
/-- A spawned closing that has not ended when the manager goes on has not ended then. -/
lemma closing_of_step {m' : StreamManager.State κ ι} {j : ℕ}
    (hcloses : s.manager.closes <+: m'.closes) (hj : j ∈ s.closing) :
    j ∈ ({ s with manager := m' } : State κ ι).closing := by
  obtain ⟨⟨c, hentry⟩, hended⟩ := mem_closing.mp hj
  refine mem_closing.mpr ⟨⟨c, ?_⟩, hended⟩
  have hlt := (List.getElem?_eq_some_iff.mp hentry).1
  obtain ⟨new, hnew⟩ := hcloses
  show m'.closes[j]? = _
  rw [← hnew, List.getElem?_append_left hlt, hentry]

omit [DecidableEq κ] in
/-- A closing that ends is the only one to. -/
lemma closing_or_ended {j i : ℕ} (hj : j ∈ s.closing ∨ j ∈ s.ended) :
    j ∈ ({ s with ended := s.ended ++ [i] } : State κ ι).closing ∨ j ∈ s.ended ++ [i] := by
  by_cases hin : j ∈ s.ended ++ [i]
  · exact .inr hin
  · left
    rcases hj with hclosing | hended
    · exact mem_closing.mpr ⟨(mem_closing.mp hclosing).1, hin⟩
    · exact absurd (List.mem_append_left _ hended) hin

omit [DecidableEq κ] in
lemma closing_shutdown (s : State κ ι) : s.shutdown.closing = s.closing := by
  unfold State.closing
  rw [show s.shutdown.manager.closes = s.manager.closes from (cancelAll_eq s.manager).2.2.2.2.1]
  rfl

omit [DecidableEq κ] in
/-- A call past its tasks waits for the closings there are. -/
lemma of_waitClosings {places : List ℕ} (h : s.waitClosings = .closings places) :
    places = s.closing := by
  unfold State.waitClosings at h
  split at h
  · exact absurd h (by simp)
  · exact (Wait.closings.inj h).symm

omit [DecidableEq κ] in
lemma waitClosings_ne_tasks {tasks : List ℕ} : s.waitClosings ≠ .tasks tasks := by
  unfold State.waitClosings
  split <;> simp

/-- The tasks that a `shutdown` takes from the dictionary are stopping when it has cancelled
them, and so are those that were already. -/
lemma stopping_cancelAll {m : StreamManager.State κ ι} {i : ℕ} (h : Managed m)
    (hi : i ∈ tasksOf m ∨ Stopping m i) : Stopping (cancelAll m) i := by
  have hhandlers := (cancelAll_eq m).2.2.2.2.2 i
  have hold : ∃ hd, m.handlers[i]? = some hd ∧ (i ∈ tasksOf m ∨ hd.cancelled = true) ∧
      (hd.phase = .done ∨ hd.phase.beforeExit = true) := by
    rcases hi with hin | ⟨hd, hget, hcancelled, hphase⟩
    · obtain ⟨key, hkey⟩ := mem_tasksOf.mp hin
      obtain ⟨hd, hget, -, hrun⟩ := h.registered key i hkey
      exact ⟨hd, hget, .inl hin, .inr hrun.2⟩
    · exact ⟨hd, hget, .inr hcancelled, hphase⟩
  obtain ⟨hd, hget, hwhy, hphase⟩ := hold
  rw [hget, Option.map_some] at hhandlers
  refine ⟨_, hhandlers, ?_, ?_⟩
  · split
    · rfl
    · next hnot => exact hwhy.resolve_left hnot
  · split <;> exact hphase

lemma Pending.init : Pending ({} : State κ ι) :=
  ⟨Managed.init, fun c _ _ hclient => absurd hclient (by simp),
    fun k _ hcall => absurd hcall (by simp), fun k _ hcall => absurd hcall (by simp)⟩

/-- What one event keeps: by what the event does. -/
lemma Pending.step (h : Pending s) (hstep : step s e = some s') : Pending s' := by
  rcases step_cases hstep with ⟨e₀, m', rfl, hm, rfl⟩ | ⟨i, rfl, -, rfl⟩ | ⟨rfl, rfl⟩ |
    ⟨k, tasks, rfl, -, -, rfl⟩ | ⟨k, places, rfl, -, -, rfl⟩
  · have hcloses : s.manager.closes <+: m'.closes := by
      obtain ⟨new, hnew, -⟩ := (reach_of_step h.managed hm).closes
      exact ⟨new, hnew.symm⟩
    refine ⟨h.managed.preserved e₀ hm, known_of_step h.managed h.known hm, ?_, ?_⟩
    · intro k tasks hcall i hi
      exact stopping_of_step h.managed (h.tasks k tasks hcall i hi) hm
    · intro k places hcall j hj
      exact (h.places k places hcall j hj).imp_left (closing_of_step hcloses)
  · refine ⟨h.managed, h.known, h.tasks, ?_⟩
    intro k places hcall j hj
    exact closing_or_ended (h.places k places hcall j hj)
  · refine ⟨managed_cancelAll h.managed, ?_, ?_, ?_⟩
    · intro c client i hclient htask
      have hlength : i < s.manager.handlers.length := by
        refine h.known c client i ?_ htask
        rwa [← (cancelAll_eq s.manager).2.2.1]
      rwa [← cancelAll_length] at hlength
    · intro k tasks hcall i hi
      refine stopping_cancelAll h.managed ?_
      simp only [State.shutdown, Dict.get_append] at hcall
      split at hcall
      · have hcall := Option.some.inj hcall
        split at hcall
        · exact absurd hcall waitClosings_ne_tasks
        · rw [← Wait.tasks.inj hcall] at hi
          exact .inl hi
      · exact .inr (h.tasks k tasks hcall i hi)
    · intro k places hcall j hj
      rw [closing_shutdown]
      simp only [State.shutdown, Dict.get_append] at hcall
      split at hcall
      · have hcall := Option.some.inj hcall
        split at hcall
        · rw [of_waitClosings hcall] at hj
          exact .inl hj
        · exact absurd hcall (by simp)
      · exact h.places k places hcall j hj
  · refine ⟨h.managed, h.known, ?_, ?_⟩
    · intro n tasks' hcall
      rcases Dict.of_get_set hcall with ⟨-, hwait⟩ | ⟨-, hold⟩
      · exact absurd hwait.symm waitClosings_ne_tasks
      · exact h.tasks n tasks' hold
    · intro n places hcall j hj
      rcases Dict.of_get_set hcall with ⟨-, hwait⟩ | ⟨-, hold⟩
      · rw [of_waitClosings hwait.symm] at hj
        exact .inl hj
      · exact h.places n places hold j hj
  · refine ⟨h.managed, h.known, ?_, ?_⟩
    · intro n tasks' hcall
      rcases Dict.of_get_set hcall with ⟨-, hwait⟩ | ⟨-, hold⟩
      · exact absurd hwait (by simp)
      · exact h.tasks n tasks' hold
    · intro n places' hcall j hj
      rcases Dict.of_get_set hcall with ⟨-, hwait⟩ | ⟨-, hold⟩
      · exact absurd hwait (by simp)
      · exact h.places n places' hold j hj

lemma pending_of_run {es : List (Event κ ι)} (hrun : run step {} es = some s) : Pending s :=
  invariant_of_run (fun _ _ _ h hstep => h.step hstep) Pending.init hrun

/-! ## After a shutdown -/

/-- Between a state and one that comes after a `shutdown` in it: its handlers do not run, and
what was sent and closed since is clients' that came since. -/
structure Silenced (s t : State κ ι) : Prop where
  clients : s.manager.clients <+: t.manager.clients
  stopped : ∀ i < s.manager.handlers.length,
    ∃ hd, t.manager.handlers[i]? = some hd ∧ ¬ hd.Running
  sends : ∃ new, t.manager.sends = s.manager.sends ++ new ∧
    ∀ entry ∈ new, s.manager.clients.length ≤ entry.1
  closes : ∃ new, t.manager.closes = s.manager.closes ++ new ∧
    ∀ entry ∈ new, s.manager.clients.length ≤ entry.1

/-- A client that is served then came since: the handlers of those before do not run. -/
lemma Silenced.served {c : ℕ} (hs : Pending s) (h : Silenced s t) (hc : Served t.manager c) :
    s.manager.clients.length ≤ c := by
  by_contra hlt
  rw [not_le] at hlt
  obtain ⟨client, i, hd, hclient, htask, hi, hrun⟩ := hc
  obtain ⟨new, hnew⟩ := h.clients
  rw [← hnew, List.getElem?_append_left hlt] at hclient
  obtain ⟨hd', hi', hstop⟩ := h.stopped i (hs.known c client i hclient htask)
  exact hstop (Option.some.inj (hi.symm.trans hi') ▸ hrun)

/-- No handler of before runs once a `shutdown` has cancelled them. -/
lemma stopped_cancelAll {m : StreamManager.State κ ι} {i : ℕ} (h : Managed m)
    (hi : i < m.handlers.length) :
    ∃ hd, (cancelAll m).handlers[i]? = some hd ∧ ¬ hd.Running := by
  rw [← cancelAll_length] at hi
  have hget := List.getElem?_eq_getElem hi
  exact ⟨_, hget, cancelAll_stopped h hget⟩

lemma silenced_shutdown (hs : Pending s) : Silenced s s.shutdown := by
  obtain ⟨-, -, hclients, hsends, hcloses, -⟩ := cancelAll_eq s.manager
  refine ⟨?_, fun i hi => stopped_cancelAll hs.managed hi,
    ⟨[], ?_, fun _ hmem => absurd hmem List.not_mem_nil⟩,
    ⟨[], ?_, fun _ hmem => absurd hmem List.not_mem_nil⟩⟩
  · exact ⟨[], by rw [List.append_nil]; exact hclients.symm⟩
  · rw [List.append_nil]
    exact hsends
  · rw [List.append_nil]
    exact hcloses

/-- What a later event keeps. -/
lemma Silenced.step (hs : Pending s) (ht : Pending t) (h : Silenced s t) {t' : State κ ι}
    (hstep : step t e = some t') : Silenced s t' := by
  rcases step_cases hstep with ⟨e₀, m', rfl, hm, rfl⟩ | ⟨i, rfl, -, rfl⟩ | ⟨rfl, rfl⟩ |
    ⟨k, tasks, rfl, -, -, rfl⟩ | ⟨k, places, rfl, -, -, rfl⟩
  · have hreach := reach_of_step ht.managed hm
    refine ⟨h.clients.trans hreach.clients, fun i hi => ?_, ?_, ?_⟩
    · obtain ⟨hd, hget, hstop⟩ := h.stopped i hi
      exact stopped_of_step ht.managed hget hstop hm
    · obtain ⟨new, hnew, hlate⟩ := h.sends
      obtain ⟨more, hmore, hserved⟩ := hreach.sends
      refine ⟨new ++ more, by rw [← List.append_assoc, ← hnew, hmore], fun entry hentry => ?_⟩
      rcases List.mem_append.mp hentry with hentry | hentry
      · exact hlate entry hentry
      · exact h.served hs (hserved entry hentry)
    · obtain ⟨new, hnew, hlate⟩ := h.closes
      obtain ⟨more, hmore, hserved⟩ := hreach.closes
      refine ⟨new ++ more, by rw [← List.append_assoc, ← hnew, hmore], fun entry hentry => ?_⟩
      rcases List.mem_append.mp hentry with hentry | hentry
      · exact hlate entry hentry
      · exact h.served hs (hserved entry hentry)
  · exact ⟨h.clients, h.stopped, h.sends, h.closes⟩
  · obtain ⟨-, -, hclients, hsends, hcloses, -⟩ := cancelAll_eq t.manager
    refine ⟨?_, fun i hi => ?_, ?_, ?_⟩
    · show s.manager.clients <+: (cancelAll t.manager).clients
      rw [hclients]
      exact h.clients
    · obtain ⟨hd, hget, -⟩ := h.stopped i hi
      exact stopped_cancelAll ht.managed (List.getElem?_eq_some_iff.mp hget).1
    · show ∃ new, (cancelAll t.manager).sends = _ ∧ _
      rw [hsends]
      exact h.sends
    · show ∃ new, (cancelAll t.manager).closes = _ ∧ _
      rw [hcloses]
      exact h.closes
  · exact ⟨h.clients, h.stopped, h.sends, h.closes⟩
  · exact ⟨h.clients, h.stopped, h.sends, h.closes⟩

/-- A `shutdown` and what comes after it, in a run. -/
lemma silenced_of_run {es : List (Event κ ι)} (hs : Pending s)
    (hrun : run step s.shutdown es = some t) : Pending t ∧ Silenced s t := by
  have hkeeps : ∀ t e t', Pending t ∧ Silenced s t → step t e = some t' →
      Pending t' ∧ Silenced s t' :=
    fun _ _ _ h hstep => ⟨h.1.step hstep, h.2.step hs h.1 hstep⟩
  exact invariant_of_run hkeeps ⟨hs.step (e := .shutdown) rfl, silenced_shutdown hs⟩ hrun

/-! ## What a call waits for -/

/-- Between a state and one that comes after the `shutdown` in it, call `k`: whether the tasks it
took have ended, and the closings that had not. -/
structure Waits (s t : State κ ι) (k : ℕ) : Prop where
  closing : ∀ j ∈ s.closing, j ∈ t.closing ∨ j ∈ t.ended
  call : t.calls[k]? = some (.tasks (tasksOf s.manager)) ∨
    (∀ i ∈ tasksOf s.manager, isDone t.manager i = true) ∧
      ((∃ places, t.calls[k]? = some (.closings places) ∧
        ∀ j ∈ s.closing, j ∈ places ∨ j ∈ t.ended) ∨
      t.calls[k]? = some .returned ∧ ∀ j ∈ s.closing, j ∈ t.ended)

omit [DecidableEq κ] in
/-- A call that comes to the closings has what is left of them to wait for. -/
lemma waits_closings {calls : List Wait} {k : ℕ}
    (hcall : calls[k]? = some t.waitClosings)
    (hclosing : ∀ j ∈ s.closing, j ∈ t.closing ∨ j ∈ t.ended) :
    (∃ places, calls[k]? = some (.closings places) ∧ ∀ j ∈ s.closing, j ∈ places ∨ j ∈ t.ended) ∨
      calls[k]? = some .returned ∧ ∀ j ∈ s.closing, j ∈ t.ended := by
  unfold State.waitClosings at hcall
  split at hcall
  · next hnone =>
    refine .inr ⟨hcall, fun j hj => (hclosing j hj).resolve_left ?_⟩
    rw [hnone]
    exact List.not_mem_nil
  · exact .inl ⟨_, hcall, hclosing⟩

omit [DecidableEq κ] in
lemma waits_shutdown (s : State κ ι) : Waits s s.shutdown s.calls.length := by
  have hclosing : ∀ j ∈ s.closing, j ∈ s.closing ∨ j ∈ s.ended := fun j hj => .inl hj
  refine ⟨fun j hj => .inl (by rwa [closing_shutdown]), ?_⟩
  have hcall : s.shutdown.calls[s.calls.length]? =
      some (if tasksOf s.manager = [] then s.waitClosings else .tasks (tasksOf s.manager)) :=
    List.getElem?_concat_length
  by_cases hnone : tasksOf s.manager = []
  · rw [if_pos hnone] at hcall
    refine .inr ⟨?_, waits_closings (t := s) hcall hclosing⟩
    rw [hnone]
    exact fun i hi => absurd hi List.not_mem_nil
  · rw [if_neg hnone] at hcall
    exact .inl hcall

omit [DecidableEq κ] in
/-- The call stands where it stood, and no more is left to wait for. -/
lemma Waits.same {k : ℕ} (h : Waits s t k) {t' : State κ ι} (hcall : t'.calls[k]? = t.calls[k]?)
    (hdone : ∀ i, isDone t.manager i = true → isDone t'.manager i = true)
    (hended : ∀ j ∈ t.ended, j ∈ t'.ended)
    (hclosing : ∀ j ∈ t.closing, j ∈ t'.closing ∨ j ∈ t'.ended) : Waits s t' k := by
  refine ⟨fun j hj => ?_, ?_⟩
  · rcases h.closing j hj with hj | hj
    · exact hclosing j hj
    · exact .inr (hended j hj)
  · rw [hcall]
    rcases h.call with htasks | ⟨hall, ⟨places, hplaces, hleft⟩ | ⟨hreturned, hnone⟩⟩
    · exact .inl htasks
    · refine .inr ⟨fun i hi => hdone i (hall i hi), .inl ⟨places, hplaces, fun j hj => ?_⟩⟩
      exact (hleft j hj).imp_right (hended j)
    · refine .inr ⟨fun i hi => hdone i (hall i hi), .inr ⟨hreturned, fun j hj => ?_⟩⟩
      exact hended j (hnone j hj)

omit [DecidableEq κ] in
lemma isDone_cancelAll {m : StreamManager.State κ ι} {i : ℕ} (h : isDone m i = true) :
    isDone (cancelAll m) i = true := by
  unfold isDone at h ⊢
  rw [(cancelAll_eq m).2.2.2.2.2 i]
  cases hget : m.handlers[i]? with
  | none =>
    rw [hget] at h
    exact absurd h (by simp)
  | some hd =>
    rw [hget] at h
    have hphase : hd.phase = .done := of_decide_eq_true h
    rw [Option.map_some]
    refine decide_eq_true ?_
    split <;> exact hphase

/-- What a later event keeps: only its own resumption moves the call. -/
lemma Waits.step {k : ℕ} (ht : Pending t) (h : Waits s t k) {t' : State κ ι}
    (hstep : step t e = some t') : Waits s t' k := by
  rcases step_cases hstep with ⟨e₀, m', rfl, hm, rfl⟩ | ⟨i, rfl, -, rfl⟩ | ⟨rfl, rfl⟩ |
    ⟨n, tasks, rfl, hcall, hall, rfl⟩ | ⟨n, places, rfl, hcall, hall, rfl⟩
  · have hcloses : t.manager.closes <+: m'.closes := by
      obtain ⟨new, hnew, -⟩ := (reach_of_step ht.managed hm).closes
      exact ⟨new, hnew.symm⟩
    exact h.same rfl (fun i hi => isDone_of_step ht.managed hi hm) (fun j hj => hj)
      fun j hj => .inl (closing_of_step hcloses hj)
  · exact h.same rfl (fun i hi => hi) (fun j hj => List.mem_append_left _ hj)
      fun j hj => closing_or_ended (.inl hj)
  · have hlt : k < t.calls.length := by
      rcases h.call with htasks | ⟨-, ⟨places, hplaces, -⟩ | ⟨hreturned, -⟩⟩
      · exact (List.getElem?_eq_some_iff.mp htasks).1
      · exact (List.getElem?_eq_some_iff.mp hplaces).1
      · exact (List.getElem?_eq_some_iff.mp hreturned).1
    exact h.same (List.getElem?_append_left hlt) (fun i hi => isDone_cancelAll hi)
      (fun j hj => hj) fun j hj => .inl (by rwa [closing_shutdown])
  · by_cases hn : n = k
    · subst hn
      -- the tasks it waited for are those it took
      have hfound : (t.calls.set n t.waitClosings)[n]? = some t.waitClosings := by
        rw [Dict.get_set hcall, if_pos rfl]
      rcases h.call with htasks | ⟨-, ⟨places, hplaces, -⟩ | ⟨hreturned, -⟩⟩
      · rw [hcall, Option.some.injEq, Wait.tasks.injEq] at htasks
        exact ⟨h.closing, .inr ⟨htasks ▸ hall, waits_closings hfound h.closing⟩⟩
      · rw [hcall] at hplaces
        exact absurd hplaces (by simp)
      · rw [hcall] at hreturned
        exact absurd hreturned (by simp)
    · exact h.same (List.getElem?_set_ne hn) (fun i hi => hi) (fun j hj => hj) fun j hj => .inl hj
  · by_cases hn : n = k
    · subst hn
      have hfound : (t.calls.set n .returned)[n]? = some .returned := by
        rw [Dict.get_set hcall, if_pos rfl]
      rcases h.call with htasks | ⟨hdone, ⟨places', hplaces, hleft⟩ | ⟨hreturned, -⟩⟩
      · rw [hcall] at htasks
        exact absurd htasks (by simp)
      · rw [hcall, Option.some.injEq, Wait.closings.injEq] at hplaces
        refine ⟨h.closing, .inr ⟨hdone, .inr ⟨hfound, fun j hj => ?_⟩⟩⟩
        exact (hleft j hj).elim (fun hin => hall j (hplaces ▸ hin)) id
      · rw [hcall] at hreturned
        exact absurd hreturned (by simp)
    · exact h.same (List.getElem?_set_ne hn) (fun i hi => hi) (fun j hj => hj) fun j hj => .inl hj

/-! ## The call comes to its return -/

/-- What a `shutdown` call may need to come to its return: the ends of tasks and closings, and
its own resumptions. -/
def OnTheWay (k : ℕ) : Event κ ι → Prop
  | .base (.cancelled _) => True
  | .closingEnds _ => True
  | .resume n => n = k
  | _ => False

/-- Handlers that are stopping can all be ended. -/
lemma tasks_end (tasks : List ℕ) (ht : Pending t) (htasks : ∀ i ∈ tasks, Stopping t.manager i) :
    ∃ es t', run step t es = some t' ∧ (∀ e ∈ es, ∀ k, OnTheWay k e) ∧ t'.calls = t.calls ∧
      (∀ i, isDone t.manager i = true → isDone t'.manager i = true) ∧
      ∀ i ∈ tasks, isDone t'.manager i = true := by
  induction tasks generalizing t with
  | nil =>
    exact ⟨[], t, rfl, fun _ hmem => absurd hmem List.not_mem_nil, rfl, fun _ hi => hi,
      fun _ hmem => absurd hmem List.not_mem_nil⟩
  | cons i tasks ih =>
    obtain ⟨⟨hd, hget, hcancelled, hphase⟩, hrest⟩ := List.forall_mem_cons.mp htasks
    by_cases hdone : hd.phase = .done
    · have hi : isDone t.manager i = true := by
        unfold isDone
        rw [hget]
        exact decide_eq_true hdone
      obtain ⟨es, t', hrun, hway, hcalls, hkept, hall⟩ := ih ht hrest
      exact ⟨es, t', hrun, hway, hcalls, hkept, List.forall_mem_cons.mpr ⟨hkept i hi, hall⟩⟩
    · -- its `CancelledError` comes first
      have hstop : ¬ hd.Running := fun hrun => absurd hrun.1 (by simp [hcancelled])
      have hm : StreamManager.step t.manager (.cancelled i) =
          some (t.manager.cancelled i hd) := by
        simp only [StreamManager.step, hget]
        rw [if_pos ⟨hphase.resolve_left hdone, hcancelled⟩]
      have hstep : step t (.base (.cancelled i)) =
          some { t with manager := t.manager.cancelled i hd } := by
        show (StreamManager.step t.manager _).map _ = _
        rw [hm]
        rfl
      have hi : isDone (t.manager.cancelled i hd) i = true := by
        rw [stopped_own ht.managed hget hstop rfl hm]
        unfold isDone
        simp only [StreamManager.State.setHandler, Dict.get_set hget, if_pos]
        rfl
      obtain ⟨es, t', hrun, hway, hcalls, hkept, hall⟩ := ih (ht.step hstep)
        fun j hj => stopping_of_step ht.managed (hrest j hj) hm
      refine ⟨.base (.cancelled i) :: es, t', run_cons.mpr ⟨_, hstep, hrun⟩, ?_, hcalls,
        fun j hj => hkept j (isDone_of_step ht.managed hj hm),
        List.forall_mem_cons.mpr ⟨hkept i hi, hall⟩⟩
      exact List.forall_mem_cons.mpr ⟨fun _ => trivial, hway⟩

/-- Closings that were spawned can all end. -/
lemma closings_end (places : List ℕ) (hplaces : ∀ j ∈ places, j ∈ t.closing ∨ j ∈ t.ended) :
    ∃ es t', run step t es = some t' ∧ (∀ e ∈ es, ∀ k, OnTheWay k e) ∧ t'.calls = t.calls ∧
      (∀ j ∈ t.ended, j ∈ t'.ended) ∧ ∀ j ∈ places, j ∈ t'.ended := by
  induction places generalizing t with
  | nil =>
    exact ⟨[], t, rfl, fun _ hmem => absurd hmem List.not_mem_nil, rfl, fun _ hj => hj,
      fun _ hmem => absurd hmem List.not_mem_nil⟩
  | cons j places ih =>
    obtain ⟨hj, hrest⟩ := List.forall_mem_cons.mp hplaces
    rcases hj with hclosing | hended
    · obtain ⟨es, t', hrun, hway, hcalls, hkept, hall⟩ :=
        ih (t := { t with ended := t.ended ++ [j] }) fun i hi => closing_or_ended (hrest i hi)
      have hstep : step t (.closingEnds j) = some { t with ended := t.ended ++ [j] } :=
        if_pos hclosing
      refine ⟨.closingEnds j :: es, t', run_cons.mpr ⟨_, hstep, hrun⟩, ?_, hcalls,
        fun i hi => hkept i (List.mem_append_left _ hi), ?_⟩
      · exact List.forall_mem_cons.mpr ⟨fun _ => trivial, hway⟩
      · exact List.forall_mem_cons.mpr
          ⟨hkept j (List.mem_append_right _ (List.mem_singleton_self j)), hall⟩
    · obtain ⟨es, t', hrun, hway, hcalls, hkept, hall⟩ := ih hrest
      exact ⟨es, t', hrun, hway, hcalls, hkept, List.forall_mem_cons.mpr ⟨hkept j hended, hall⟩⟩

/-- A call at the closings comes to its return. -/
lemma returns_of_closings {k : ℕ} {places : List ℕ} (ht : Pending t)
    (hcall : t.calls[k]? = some (.closings places)) :
    ∃ es t', run step t es = some t' ∧ (∀ e ∈ es, OnTheWay k e) ∧
      t'.calls[k]? = some .returned := by
  obtain ⟨es, t', hrun, hway, hcalls, -, hall⟩ := closings_end places (ht.places k places hcall)
  rw [← hcalls] at hcall
  have hstep : step t' (.resume k) = some { t' with calls := t'.calls.set k .returned } := by
    simp only [step, hcall]
    rw [if_pos]
    exact List.all_eq_true.mpr fun j hj => decide_eq_true (hall j hj)
  refine ⟨es ++ [.resume k], _, run_concat hrun hstep, ?_, ?_⟩
  · intro e he
    rcases List.mem_append.mp he with he | he
    · exact hway e he k
    · rw [List.mem_singleton.mp he]
      rfl
  · show (t'.calls.set k .returned)[k]? = _
    rw [Dict.get_set hcall, if_pos rfl]

/-- Every call comes to its return. -/
lemma returns {k : ℕ} {wait : Wait} (ht : Pending t) (hcall : t.calls[k]? = some wait) :
    ∃ es t', run step t es = some t' ∧ (∀ e ∈ es, OnTheWay k e) ∧
      t'.calls[k]? = some .returned := by
  cases wait with
  | returned => exact ⟨[], t, rfl, fun _ hmem => absurd hmem List.not_mem_nil, hcall⟩
  | closings places => exact returns_of_closings ht hcall
  | tasks tasks =>
    obtain ⟨es, t', hrun, hway, hcalls, -, hall⟩ := tasks_end tasks ht (ht.tasks k tasks hcall)
    have ht' : Pending t' := invariant_of_run (fun _ _ _ h hstep => h.step hstep) ht hrun
    rw [← hcalls] at hcall
    have hstep : step t' (.resume k) =
        some { t' with calls := t'.calls.set k t'.waitClosings } := by
      simp only [step, hcall]
      rw [if_pos]
      exact List.all_eq_true.mpr fun i hi => hall i hi
    have hrun' := run_concat hrun hstep
    have hway' : ∀ e ∈ es ++ [Event.resume k], OnTheWay k e := by
      intro e he
      rcases List.mem_append.mp he with he | he
      · exact hway e he k
      · rw [List.mem_singleton.mp he]
        rfl
    have hfound : (t'.calls.set k t'.waitClosings)[k]? = some t'.waitClosings := by
      rw [Dict.get_set hcall, if_pos rfl]
    cases hwait : t'.waitClosings with
    | tasks tasks' => exact absurd hwait waitClosings_ne_tasks
    | returned => exact ⟨_, _, hrun', hway', hfound.trans (congrArg some hwait)⟩
    | closings places =>
      obtain ⟨more, t'', hmore, hway'', hreturned⟩ :=
        returns_of_closings (ht'.step hstep) (hfound.trans (congrArg some hwait))
      refine ⟨es ++ [.resume k] ++ more, t'', ?_, ?_, hreturned⟩
      · rw [run_append, hrun', Option.bind_some, hmore]
      · intro e he
        exact (List.mem_append.mp he).elim (hway' e) (hway'' e)

/-- A `shutdown` returns only when the tasks it took have ended and so have the closings that were
on their way; and from wherever the service has got to, ends of tasks and closings bring it there:
nobody has to subscribe or leave for it. -/
theorem shutdown_returns {before after : List (Event κ ι)} {s t : State κ ι}
    (hbefore : run step {} before = some s) (hafter : run step s.shutdown after = some t) :
    (t.calls[s.calls.length]? = some .returned →
      (∀ i ∈ tasksOf s.manager, isDone t.manager i = true) ∧ ∀ j ∈ s.closing, j ∈ t.ended) ∧
    ∃ es t', run step t es = some t' ∧ (∀ e ∈ es, OnTheWay s.calls.length e) ∧
      t'.calls[s.calls.length]? = some .returned := by
  have hs := pending_of_run hbefore
  have hkeeps : ∀ t e t', Pending t ∧ Waits s t s.calls.length → step t e = some t' →
      Pending t' ∧ Waits s t' s.calls.length :=
    fun _ _ _ h hstep => ⟨h.1.step hstep, h.2.step h.1 hstep⟩
  obtain ⟨ht, hwaits⟩ :=
    invariant_of_run hkeeps ⟨hs.step (e := .shutdown) rfl, waits_shutdown s⟩ hafter
  constructor
  · intro hreturned
    rcases hwaits.call with htasks | ⟨hall, ⟨places, hplaces, -⟩ | ⟨-, hnone⟩⟩
    · rw [hreturned] at htasks
      exact absurd htasks (by simp)
    · rw [hreturned] at hplaces
      exact absurd hplaces (by simp)
    · exact ⟨hall, hnone⟩
  · rcases hwaits.call with htasks | ⟨-, ⟨places, hplaces, -⟩ | ⟨hreturned, -⟩⟩
    · exact returns ht htasks
    · exact returns ht hplaces
    · exact returns ht hreturned

/-- A client whose send failed is being closed, and another still has its handler, when the service
shuts down: the call waits for both. -/
theorem shutdown_returns_sample :
    ∃ s t : State ℕ ℕ,
      run step {} [.base (.subscribe 5 "ticker"), .base (.subscribe 5 "ticker"), .base (.start 0),
        .base (.item 0 10), .base (.sent 0 [1])] = some s ∧
      run step s.shutdown [.base (.cancelled 0), .resume 0] = some t ∧
      t.calls = [.closings [0]] ∧
      ∃ es t', run step t es = some t' ∧ (∀ e ∈ es, OnTheWay s.calls.length e) ∧
        t'.calls[s.calls.length]? = some .returned := by
  have hruns : ∃ s t : State ℕ ℕ,
      run step {} [.base (.subscribe 5 "ticker"), .base (.subscribe 5 "ticker"), .base (.start 0),
        .base (.item 0 10), .base (.sent 0 [1])] = some s ∧
      run step s.shutdown [.base (.cancelled 0), .resume 0] = some t ∧
      t.calls = [.closings [0]] :=
    ⟨_, _, rfl, rfl, rfl⟩
  obtain ⟨s, t, hbefore, hafter, hcalls⟩ := hruns
  exact ⟨s, t, hbefore, hafter, hcalls, (shutdown_returns hbefore hafter).2⟩

end

end ManagerShutdown
end ExchangeRouter
