import ExchangeRouter.StreamHub
import Mathlib.Data.List.GetD

/-!
# What every step of the hub keeps

`Wired` says where the hub's fields stand for each phase of `_run`, and `Held` what the table
and `_subscribed_topics` know of the calls. Both hold in every run.
-/

namespace ExchangeRouter
namespace StreamHub

open Transition

variable {τ : Type*}

/-! ## The frames of one socket -/

lemma isUp_lt {s : State τ} {ws : ℕ} (h : s.isUp ws = true) : ws < s.sockets.length := by
  by_contra hlt
  rw [State.isUp, List.getD_eq_default _ _ (Nat.le_of_not_lt hlt)] at h
  exact Bool.noConfusion h

/-- Sending only adds to the log, frames of sockets that are up. -/
lemma sendNext_wire (s : State τ) (ws : ℕ) (frame : List τ → Frame τ)
    (payloads : List (List τ)) :
    ∃ new, (s.sendNext ws frame payloads).1 = s.wire ++ new ∧
      ∀ entry ∈ new, s.isUp entry.1 = true := by
  cases payloads with
  | nil => exact ⟨[], by simp [State.sendNext], by simp⟩
  | cons topics rest =>
    unfold State.sendNext State.transmit
    by_cases hup : s.isUp ws = true
    · exact ⟨[(ws, frame topics)], by simp [hup], by simpa using hup⟩
    · exact ⟨[], by simp [hup], by simp⟩

/-- What is sent goes out on sockets that are open. -/
lemma sendPayloads_wire (s : State τ) (frame : List τ → Frame τ) (payloads : List (List τ)) :
    ∃ new, (s.sendPayloads frame payloads).1 = s.wire ++ new ∧
      ∀ entry ∈ new, s.isUp entry.1 = true := by
  unfold State.sendPayloads
  split
  · exact ⟨[], by simp, by simp⟩
  · exact sendNext_wire s _ frame payloads

/-- A single payload is sent at once, and leaves none. -/
lemma sendPayloads_single {s : State τ} {frame : List τ → Frame τ} {topics : List τ}
    {job : Sending τ} (h : (s.sendPayloads frame [topics]).2 = some job) : job.rest = [] := by
  unfold State.sendPayloads at h
  split at h
  · simp at h
  · simp only [State.sendNext, Option.some.injEq] at h
    rw [← h]
    simp

/-- On a live socket the one payload goes out at once. -/
lemma sendPayloads_live {s : State τ} {ws : ℕ} (h : s.Live ws) (frame : List τ → Frame τ)
    (topics : List τ) :
    (s.sendPayloads frame [topics]).1 = s.wire ++ [(ws, frame topics)] := by
  simp [State.sendPayloads, State.sendNext, State.transmit, h.1, h.2]

lemma SubscribedSince.append {wire new : List (ℕ × Frame τ)} {ws n : ℕ} {t : τ}
    (h : SubscribedSince wire ws n t) : SubscribedSince (wire ++ new) ws n t := by
  obtain ⟨ts, hmem, ht⟩ := h
  refine ⟨ts, ?_, ht⟩
  rw [List.drop_append]
  exact List.mem_append_left _ hmem

/-- The last frame of the log subscribes to its topics. -/
lemma subscribedSince_last {wire : List (ℕ × Frame τ)} {ws n : ℕ} {t : τ} {ts : List τ}
    (hn : n ≤ wire.length) (ht : t ∈ ts) :
    SubscribedSince (wire ++ [(ws, .subscribe ts)]) ws n t := by
  refine ⟨ts, ?_, ht⟩
  rw [List.drop_append_of_le_length hn]
  exact List.mem_append_right _ (List.mem_singleton_self _)

/-- Nothing has been sent since now. -/
lemma not_subscribedSince_length (wire : List (ℕ × Frame τ)) (ws : ℕ) (t : τ) :
    ¬ SubscribedSince wire ws wire.length t := by
  rintro ⟨ts, hmem, -⟩
  rw [List.drop_length] at hmem
  exact List.not_mem_nil hmem

/-- The topics a coroutine has still to send. -/
def remaining : Option (Sending τ) → List τ
  | some job => job.rest.flatten
  | none => []

/-- Of the topics to send on a socket that is up, each has been sent or is still to be
sent. -/
lemma sendNext_subscribedSince {s : State τ} {ws n : ℕ} {t : τ} {payloads : List (List τ)}
    (hup : s.isUp ws = true) (hn : n ≤ s.wire.length) (ht : t ∈ payloads.flatten) :
    t ∈ remaining (s.sendNext ws .subscribe payloads).2 ∨
      SubscribedSince (s.sendNext ws .subscribe payloads).1 ws n t := by
  cases payloads with
  | nil => exact absurd ht List.not_mem_nil
  | cons topics rest =>
    simp only [State.sendNext, State.transmit, hup, if_true, remaining]
    rcases List.mem_append.mp ht with hfirst | hrest
    · exact Or.inr (subscribedSince_last hn hfirst)
    · exact Or.inl hrest

/-! ## The fields and the phase of `_run` -/

/-- What `_ws` is while `_run` stands here. -/
def RunPhase.ws : RunPhase τ → Option ℕ
  | resubscribing job => some job.ws
  | receiving ws => some ws
  | _ => none

/-- `_run` reads frames. -/
def RunPhase.isReceiving : RunPhase τ → Bool
  | receiving _ => true
  | _ => false

/-- The topics the resubscription has still to send. -/
def RunPhase.remaining : RunPhase τ → List τ
  | resubscribing job => job.rest.flatten
  | _ => []

/-- At most one task, whose phase tells the fields of the hub, and no frame of a socket yet to
come. -/
structure Wired (s : State τ) : Prop where
  runs_le : s.runs.length ≤ 1
  idle : s.task = none → s.runs = []
  ws_eq : s.ws = s.runs.head?.bind RunPhase.ws
  connected_eq : s.connected = s.runs.head?.any RunPhase.isReceiving
  numbered : ∀ entry ∈ s.wire, entry.1 < s.sockets.length

/-- A task at `phase`, and the fields that go with it. -/
lemma Wired.of_run {s : State τ} {phase : RunPhase τ} (hruns : s.runs = [phase])
    (htask : s.task ≠ none) (hws : s.ws = phase.ws) (hconnected : s.connected = phase.isReceiving)
    (hnumbered : ∀ entry ∈ s.wire, entry.1 < s.sockets.length) : Wired s := by
  refine ⟨?_, fun hnone => absurd hnone htask, ?_, ?_, hnumbered⟩
  · rw [hruns, List.length_singleton]
  · rw [hruns, hws]
    rfl
  · rw [hruns, hconnected]
    rfl

/-- The task that `_run` events name is the only one, and its phase tells the fields. -/
lemma Wired.fields {s : State τ} (h : Wired s) {k : ℕ} {phase : RunPhase τ}
    (hk : s.runs[k]? = some phase) :
    k = 0 ∧ s.runs = [phase] ∧ s.task ≠ none ∧ s.ws = phase.ws ∧
      s.connected = phase.isReceiving := by
  obtain ⟨hlt, hphase⟩ := List.getElem?_eq_some_iff.mp hk
  have hlen : s.runs.length = 1 := by
    have := h.runs_le
    omega
  have hzero : k = 0 := by omega
  subst hzero
  have hruns : s.runs = [phase] := by
    obtain ⟨p, hp⟩ := List.length_eq_one_iff.mp hlen
    simp only [hp, List.getElem_singleton] at hphase
    rw [hp, hphase]
  refine ⟨rfl, hruns, ?_, ?_, ?_⟩
  · intro hnone
    rw [h.idle hnone] at hruns
    simp at hruns
  · rw [h.ws_eq, hruns]
    rfl
  · rw [h.connected_eq, hruns]
    rfl

/-- What a call does leaves the wiring alone. -/
lemma Wired.of_call {s s' : State τ} (h : Wired s) (hruns : s'.runs = s.runs)
    (htask : s'.task = s.task) (hws : s'.ws = s.ws) (hconnected : s'.connected = s.connected)
    (hsockets : s'.sockets = s.sockets)
    (hwire : ∃ new, s'.wire = s.wire ++ new ∧ ∀ entry ∈ new, s.isUp entry.1 = true) :
    Wired s' := by
  refine ⟨by rw [hruns]; exact h.runs_le, by rw [hruns, htask]; exact h.idle,
    by rw [hruns, hws]; exact h.ws_eq, by rw [hruns, hconnected]; exact h.connected_eq, ?_⟩
  obtain ⟨new, heq, hnew⟩ := hwire
  intro entry hentry
  rw [heq] at hentry
  rw [hsockets]
  rcases List.mem_append.mp hentry with hold | hadded
  · exact h.numbered entry hold
  · exact isUp_lt (hnew entry hadded)

/-- `_run` moves on, between two phases that tell the same fields. -/
lemma Wired.setRun {s : State τ} (h : Wired s) {k : ℕ} {phase phase' : RunPhase τ}
    (hk : s.runs[k]? = some phase) (hws : phase.ws = phase'.ws)
    (hreceiving : phase.isReceiving = phase'.isReceiving) : Wired (s.setRun k phase') := by
  obtain ⟨rfl, hruns, htask, hfield, hconnected⟩ := h.fields hk
  have hset : (s.setRun 0 phase').runs = [phase'] := by
    rw [State.setRun, hruns]
    rfl
  exact .of_run hset htask (hfield.trans hws) (hconnected.trans hreceiving) h.numbered

/-- `_run` after a send, at the next one or in the receive loop. -/
lemma Wired.afterResubscribe {s : State τ} {ws : ℕ} {phase : RunPhase τ}
    {out : Option (Sending τ)} (hruns : s.runs = [phase]) (htask : s.task ≠ none)
    (hws : s.ws = some ws) (hconnected : s.connected = false)
    (hout : ∀ job, out = some job → job.ws = ws)
    (hnumbered : ∀ entry ∈ s.wire, entry.1 < s.sockets.length) :
    Wired (s.afterResubscribe 0 ws out) := by
  cases out with
  | none =>
    -- the last payload is out, and the hub is connected
    have hset : (s.afterResubscribe 0 ws none).runs = [.receiving ws] := by
      simp [State.afterResubscribe, State.setRun, hruns]
    exact .of_run hset htask hws rfl hnumbered
  | some job =>
    have hset : (s.afterResubscribe 0 ws (some job)).runs = [.resubscribing job] := by
      simp [State.afterResubscribe, State.setRun, hruns]
    refine .of_run hset htask ?_ hconnected hnumbered
    rw [RunPhase.ws, hout job rfl]
    exact hws

/-- A coroutine stays on its socket. -/
lemma sendNext_ws {s : State τ} {ws : ℕ} {frame : List τ → Frame τ} {payloads : List (List τ)}
    {job : Sending τ} (h : (s.sendNext ws frame payloads).2 = some job) : job.ws = ws := by
  cases payloads with
  | nil => simp [State.sendNext] at h
  | cons topics rest =>
    simp only [State.sendNext, Option.some.injEq] at h
    rw [← h]

/-- The end of a resubscription. -/
lemma Wired.resubscribed {s : State τ} (h : Wired s) {k : ℕ} {job : Sending τ}
    (hk : s.runs[k]? = some (.resubscribing job)) : Wired (s.resubscribed k job) := by
  obtain ⟨rfl, hruns, htask, hws, hconnected⟩ := h.fields hk
  have hsent : Wired { s with wire := (s.sendNext job.ws .subscribe job.rest).1 } :=
    h.of_call rfl rfl rfl rfl rfl (sendNext_wire s job.ws .subscribe job.rest)
  exact .afterResubscribe hruns htask hws hconnected (fun job' hjob => sendNext_ws hjob)
    hsent.numbered

/-- The end of a connection. -/
lemma Wired.disconnected {s : State τ} (h : Wired s) {k ws : ℕ}
    (hk : s.runs[k]? = some (.receiving ws)) : Wired (s.disconnected k ws) := by
  obtain ⟨rfl, hruns, htask, -, -⟩ := h.fields hk
  have hset : (s.disconnected 0 ws).runs = [.closing] := by
    simp [State.disconnected, State.setRun, hruns]
  refine .of_run hset htask rfl rfl ?_
  intro entry hentry
  have := h.numbered entry hentry
  simpa [State.disconnected, State.setRun] using this

lemma wired_init : Wired ({} : State τ) := ⟨by simp, fun _ => rfl, rfl, rfl, by simp⟩

/-! ## The topics of one socket -/

variable [DecidableEq τ]

/-- A frame is applied on the socket that it went out on. -/
lemma upstream_append_self (wire : List (ℕ × Frame τ)) (ws : ℕ) (frame : Frame τ) :
    upstream (wire ++ [(ws, frame)]) ws = frame.apply (upstream wire ws) := by
  simp [upstream]

/-- A socket that no frame went out on has no topics. -/
lemma upstream_of_unused {wire : List (ℕ × Frame τ)} {ws : ℕ} (h : ∀ entry ∈ wire, entry.1 ≠ ws) :
    upstream wire ws = ∅ := by
  have hnone : (wire.filter fun entry => entry.1 = ws) = [] := by
    rw [List.filter_eq_nil_iff]
    intro entry hentry
    simpa using h entry hentry
  simp [upstream, hnone]

/-- A subscription adds its topics upstream. -/
lemma mem_upstream_subscribe (wire : List (ℕ × Frame τ)) (ws : ℕ) (ts : List τ) (t : τ) :
    t ∈ upstream (wire ++ [(ws, .subscribe ts)]) ws ↔ t ∈ upstream wire ws ∨ t ∈ ts := by
  rw [upstream_append_self]
  simp [Frame.apply]

/-- An unsubscription takes its topics off upstream. -/
lemma mem_upstream_unsubscribe (wire : List (ℕ × Frame τ)) (ws : ℕ) (ts : List τ) (t : τ) :
    t ∈ upstream (wire ++ [(ws, .unsubscribe ts)]) ws ↔ t ∈ upstream wire ws ∧ t ∉ ts := by
  rw [upstream_append_self]
  simp [Frame.apply]

/-- Sending on the hub's socket moves topics from what is to be sent to what has been sent. -/
lemma mem_upstream_sendNext {s : State τ} {ws : ℕ} (hup : s.isUp ws = true)
    (payloads : List (List τ)) (t : τ) :
    (t ∈ upstream (s.sendNext ws .subscribe payloads).1 ws ∨
        t ∈ remaining (s.sendNext ws .subscribe payloads).2) ↔
      t ∈ upstream s.wire ws ∨ t ∈ payloads.flatten := by
  cases payloads with
  | nil => simp [State.sendNext, remaining]
  | cons topics rest =>
    simp only [State.sendNext, State.transmit, hup, if_true, remaining, mem_upstream_subscribe,
      List.flatten_cons, List.mem_append]
    tauto

/-! ## What each step does -/

section

variable {P : Payloads τ} {s s' : State τ}

/-- What `proceed` asks for: a call that was woken. -/
lemma step_proceed {i : ℕ} (h : step P s (.proceed i) = some s') :
    ∃ call, s.calls[i]? = some call ∧ call.phase = .waiting true ∧ s' = s.proceed P i call := by
  cases hcall : s.calls[i]? <;> simp_all [step]

/-- What `timeout` asks for: a call that waits, woken or not. -/
lemma step_timeout {i : ℕ} (h : step P s (.timeout i) = some s') :
    ∃ call, s.calls[i]? = some call ∧ call.phase.isWaiting = true ∧
      s' = s.setPhase i call .timedOut := by
  cases hcall : s.calls[i]? <;> simp_all [step]

/-- What `sent` asks for: a call that sends. -/
lemma step_sent {i : ℕ} (h : step P s (.sent i) = some s') :
    ∃ call job, s.calls[i]? = some call ∧ call.phase = .sending job ∧
      s' = s.sent i call job := by
  cases hcall : s.calls[i]? with
  | none => simp [step, hcall] at h
  | some call => cases hphase : call.phase <;> simp_all [step]

/-- What `unsubscribe` asks for: a queue whose call has returned or timed out. -/
lemma step_unsubscribe {topic : τ} {q : ℕ} (h : step P s (.unsubscribe topic q) = some s') :
    ∃ call, s.calls[q]? = some call ∧ call.phase.inFlight = false ∧
      s' = s.unsubscribe P topic q := by
  cases hcall : s.calls[q]? <;> simp_all [step]

lemma step_unsubscribeSent {j : ℕ} (h : step P s (.unsubscribeSent j) = some s') :
    ∃ job, s.unsubs[j]? = some job ∧ s' = s.unsubscribeSent j job := by
  cases hjob : s.unsubs[j]? <;> simp_all [step]

/-- What `connect` asks for: a task that is to connect. -/
lemma step_connect {k : ℕ} (h : step P s (.connect k) = some s') :
    s.runs[k]? = some .connecting ∧ s' = s.connect P k := by
  simp_all [step]

lemma step_connectFails {k : ℕ} (h : step P s (.connectFails k) = some s') :
    s.runs[k]? = some .connecting ∧ s' = s.setRun k .closing := by
  simp_all [step]

/-- What `resubscribed` asks for: a task that resends. -/
lemma step_resubscribed {k : ℕ} (h : step P s (.resubscribed k) = some s') :
    ∃ job, s.runs[k]? = some (.resubscribing job) ∧ s' = s.resubscribed k job := by
  cases hrun : s.runs[k]? with
  | none => simp [step, hrun] at h
  | some phase => cases phase <;> simp_all [step]

/-- What `disconnected` asks for: a task that reads frames. -/
lemma step_disconnected {k : ℕ} (h : step P s (.disconnected k) = some s') :
    ∃ ws, s.runs[k]? = some (.receiving ws) ∧ s' = s.disconnected k ws := by
  cases hrun : s.runs[k]? with
  | none => simp [step, hrun] at h
  | some phase => cases phase <;> simp_all [step]

lemma step_retry {k : ℕ} (h : step P s (.retry k) = some s') :
    s.runs[k]? = some .closing ∧ s' = s.setRun k .connecting := by
  simp_all [step]

end

/-! ## Every step keeps the wiring -/

/-- `connect` sends on the new socket payloads that name the topics of the table. -/
lemma connect_eq (P : Payloads τ) (s : State τ) (k : ℕ) :
    ∃ payloads, (∀ t, t ∈ payloads.flatten ↔ t ∈ s.queues) ∧
      s.connect P k =
        { s.opened with
          wire := (s.opened.sendNext s.sockets.length .subscribe payloads).1 }.afterResubscribe k
            s.sockets.length (s.opened.sendNext s.sockets.length .subscribe payloads).2 := by
  by_cases hempty : s.queues.keys = []
  · refine ⟨[], ?_, ?_⟩
    · intro t
      rw [AList.mem_keys, hempty]
      simp
    · simp [State.connect, hempty, State.sendNext, State.opened]
  · refine ⟨P.subscribe s.queues.keys, ?_, ?_⟩
    · intro t
      rw [P.mem_subscribe, AList.mem_keys]
    · simp [State.connect, hempty, State.sendPayloads, State.opened]

lemma isUp_opened (s : State τ) : s.opened.isUp s.sockets.length = true := by
  simp [State.isUp, State.opened]

/-- A new call does not touch the socket. -/
lemma Wired.subscribe {s : State τ} (h : Wired s) (topic : τ) : Wired (s.subscribe topic) := by
  cases htask : s.task with
  | none =>
    -- the first call starts `_run`, which has no socket yet
    have hidle := h.idle htask
    have hruns : (s.subscribe topic).runs = [.connecting] := by
      simp [State.subscribe, State.startRun, htask, hidle]
    refine .of_run hruns (by simp [State.subscribe]) ?_ ?_ h.numbered
    · show s.ws = none
      rw [h.ws_eq, hidle]
      rfl
    · show s.connected = false
      rw [h.connected_eq, hidle]
      rfl
  | some n =>
    have hruns : (s.subscribe topic).runs = s.runs := by
      simp [State.subscribe, State.startRun, htask]
    refine ⟨by rw [hruns]; exact h.runs_le, by simp [State.subscribe], ?_, ?_, h.numbered⟩
    · rw [hruns]
      exact h.ws_eq
    · rw [hruns]
      exact h.connected_eq

/-- A new connection is up, and `_run` holds it. -/
lemma Wired.connect {P : Payloads τ} {s : State τ} (h : Wired s) {k : ℕ}
    (hk : s.runs[k]? = some .connecting) : Wired (s.connect P k) := by
  obtain ⟨rfl, hruns, htask, -, hconnected⟩ := h.fields hk
  obtain ⟨payloads, -, heq⟩ := connect_eq P s 0
  rw [heq]
  refine .afterResubscribe hruns htask rfl hconnected (fun job hjob => sendNext_ws hjob) ?_
  obtain ⟨new, hwire, hnew⟩ := sendNext_wire s.opened s.sockets.length .subscribe payloads
  intro entry hentry
  rw [hwire] at hentry
  rcases List.mem_append.mp hentry with hold | hadded
  · have := h.numbered entry hold
    simp only [State.opened, List.length_append, List.length_singleton]
    omega
  · exact isUp_lt (hnew entry hadded)

lemma Wired.proceed {P : Payloads τ} {s : State τ} (h : Wired s) (i : ℕ) (call : Call τ) :
    Wired (s.proceed P i call) := by
  unfold State.proceed
  split
  · exact h.of_call rfl rfl rfl rfl rfl ⟨[], by simp [State.setPhase], by simp⟩
  · exact h.of_call rfl rfl rfl rfl rfl (sendPayloads_wire s _ _)

lemma Wired.unsubscribe {P : Payloads τ} {s : State τ} (h : Wired s) (topic : τ) (q : ℕ) :
    Wired (s.unsubscribe P topic q) := by
  unfold State.unsubscribe
  split
  · exact h.of_call rfl rfl rfl rfl rfl ⟨[], by simp, by simp⟩
  · refine h.of_call rfl rfl rfl rfl rfl ?_
    show ∃ new, (if s.connected = true then _ else _ : List (ℕ × Frame τ) × _).1 = _ ∧ _
    split
    · exact sendPayloads_wire s _ _
    · exact ⟨[], by simp, by simp⟩

/-- Every step keeps the wiring. -/
lemma Wired.step {P : Payloads τ} {s s' : State τ} {e : Event τ} (h : Wired s)
    (hstep : StreamHub.step P s e = some s') : Wired s' := by
  cases e with
  | subscribe topic =>
    obtain rfl := Option.some.inj hstep
    exact h.subscribe topic
  | proceed i =>
    obtain ⟨call, -, -, rfl⟩ := step_proceed hstep
    exact h.proceed i call
  | timeout i =>
    obtain ⟨call, -, -, rfl⟩ := step_timeout hstep
    exact h.of_call rfl rfl rfl rfl rfl ⟨[], by simp [State.setPhase], by simp⟩
  | sent i =>
    obtain ⟨call, job, -, -, rfl⟩ := step_sent hstep
    exact h.of_call rfl rfl rfl rfl rfl (sendNext_wire s _ _ _)
  | unsubscribe topic q =>
    obtain ⟨call, -, -, rfl⟩ := step_unsubscribe hstep
    exact h.unsubscribe topic q
  | unsubscribeSent j =>
    obtain ⟨job, -, rfl⟩ := step_unsubscribeSent hstep
    exact h.of_call rfl rfl rfl rfl rfl (sendNext_wire s _ _ _)
  | connect k =>
    obtain ⟨hk, rfl⟩ := step_connect hstep
    exact h.connect hk
  | connectFails k =>
    obtain ⟨hk, rfl⟩ := step_connectFails hstep
    exact h.setRun hk rfl rfl
  | resubscribed k =>
    obtain ⟨job, hk, rfl⟩ := step_resubscribed hstep
    exact h.resubscribed hk
  | disconnected k =>
    obtain ⟨ws, hk, rfl⟩ := step_disconnected hstep
    exact h.disconnected hk
  | retry k =>
    obtain ⟨hk, rfl⟩ := step_retry hstep
    exact h.setRun hk rfl rfl
  | drop ws =>
    obtain rfl := Option.some.inj hstep
    exact ⟨h.runs_le, h.idle, h.ws_eq, h.connected_eq, by simpa using h.numbered⟩

/-! ## The calls after a step -/

omit [DecidableEq τ] in
/-- After a call moves on, each call is an old one or that one. -/
lemma mem_calls_setPhase {s : State τ} {i j : ℕ} {call old : Call τ} {phase : Phase τ}
    (hold : s.calls[j]? = some old) (hcall : (s.setPhase j old phase).calls[i]? = some call) :
    s.calls[i]? = some call ∨ i = j ∧ call = { old with phase := phase } := by
  by_cases hij : j = i
  · right
    subst hij
    have hlt := (List.getElem?_eq_some_iff.mp hold).1
    rw [State.setPhase, List.getElem?_set_self hlt, Option.some.injEq] at hcall
    exact ⟨rfl, hcall.symm⟩
  · left
    rwa [State.setPhase, List.getElem?_set_ne hij] at hcall

/-- After `subscribe`, each call is an old one or the new one, which joins a topic that has a
queue and waits on one that has none. -/
lemma mem_calls_subscribe {s : State τ} {topic : τ} {i : ℕ} {call : Call τ}
    (hcall : (s.subscribe topic).calls[i]? = some call) :
    s.calls[i]? = some call ∨ i = s.calls.length ∧ call.topic = topic ∧
      call.registeredAt = s.wire.length ∧
        (topic ∈ s.queues ∧ call.isNewTopic = false ∧ call.phase = .returned ∨
          topic ∉ s.queues ∧ call.isNewTopic = true ∧ call.phase = .waiting s.connected) := by
  simp only [State.subscribe] at hcall
  by_cases hlt : i < s.calls.length
  · left
    rwa [List.getElem?_append_left hlt] at hcall
  · right
    have hlast : i = s.calls.length := by
      have := (List.getElem?_eq_some_iff.mp hcall).1
      rw [List.length_append, List.length_singleton] at this
      omega
    rw [hlast, List.getElem?_concat_length, Option.some.injEq] at hcall
    rw [← hcall, ← AList.lookup_isSome]
    refine ⟨hlast, rfl, rfl, ?_⟩
    cases s.queues.lookup topic <;> simp

/-! ## The table and the calls -/

/-- What the table, the subscribed topics and the length of the log say of a call. -/
structure Call.Known (queues : AList fun _ : τ => List ℕ) (topics : Finset τ) (length : ℕ)
    (i : ℕ) (call : Call τ) : Prop where
  registered : call.phase.inFlight = true → i ∈ (queues.lookup call.topic).getD []
  added : ∀ job, call.phase = .sending job → call.topic ∈ topics ∧ job.rest = []
  joined : call.isNewTopic = false → call.phase = .returned
  marked : call.registeredAt ≤ length

/-- No topic has an empty list, no topic is subscribed without a queue, a call in flight has
its queue in the table, and no `unsubscribe` has a second frame to send. -/
structure Held (s : State τ) : Prop where
  nonempty : ∀ t, s.queues.lookup t ≠ some []
  subscribed : ∀ t ∈ s.subscribedTopics, t ∈ s.queues
  calls : ∀ (i : ℕ) (call : Call τ), s.calls[i]? = some call →
    call.Known s.queues s.subscribedTopics s.wire.length i
  unsubs : ∀ job ∈ s.unsubs, job.rest = []

lemma mem_queues_of_mem_getD {queues : AList fun _ : τ => List ℕ} {t : τ} {q : ℕ}
    (h : q ∈ (queues.lookup t).getD []) : t ∈ queues := by
  rw [← AList.lookup_isSome]
  cases hlookup : queues.lookup t with
  | none => simp [hlookup] at h
  | some qs => rfl

/-- The topic of a call in flight is in the table. -/
lemma Held.mem_queues {s : State τ} (h : Held s) {i : ℕ} {call : Call τ}
    (hcall : s.calls[i]? = some call) (hflight : call.phase.inFlight = true) :
    call.topic ∈ s.queues :=
  mem_queues_of_mem_getD ((h.calls i call hcall).registered hflight)

/-- A longer log holds what a shorter one did. -/
lemma Held.wire {s : State τ} (h : Held s) (wire : List (ℕ × Frame τ))
    (hlength : s.wire.length ≤ wire.length) : Held { s with wire := wire } := by
  refine ⟨h.nonempty, h.subscribed, ?_, h.unsubs⟩
  intro i call hcall
  have hknown := h.calls i call hcall
  exact ⟨hknown.registered, hknown.added, hknown.joined, hknown.marked.trans hlength⟩

lemma Held.add {s : State τ} (h : Held s) {topic : τ} (htopic : topic ∈ s.queues) :
    Held { s with subscribedTopics := insert topic s.subscribedTopics } := by
  refine ⟨h.nonempty, ?_, ?_, h.unsubs⟩
  · intro t ht
    rcases Finset.mem_insert.mp ht with rfl | hold
    · exact htopic
    · exact h.subscribed t hold
  · intro i call hcall
    have hknown := h.calls i call hcall
    refine ⟨hknown.registered, ?_, hknown.joined, hknown.marked⟩
    intro job hjob
    obtain ⟨hmem, hrest⟩ := hknown.added job hjob
    exact ⟨Finset.mem_insert_of_mem hmem, hrest⟩

/-- A call moves on. -/
lemma Held.setPhase {s : State τ} (h : Held s) {i : ℕ} {call : Call τ} {phase : Phase τ}
    (hcall : s.calls[i]? = some call)
    (hflight : phase.inFlight = true → call.phase.inFlight = true)
    (hadded : ∀ job, phase = .sending job → call.topic ∈ s.subscribedTopics ∧ job.rest = [])
    (hjoined : call.isNewTopic = false → phase = .returned) : Held (s.setPhase i call phase) := by
  refine ⟨h.nonempty, h.subscribed, ?_, h.unsubs⟩
  intro j other hother
  rcases mem_calls_setPhase hcall hother with hold | ⟨rfl, rfl⟩
  · exact h.calls j other hold
  · have hknown := h.calls j call hcall
    exact ⟨fun hphase => hknown.registered (hflight hphase), hadded, hjoined, hknown.marked⟩

omit [DecidableEq τ] in
/-- A call that waits is in flight. -/
lemma Phase.inFlight_of_isWaiting {phase : Phase τ} (h : phase.isWaiting = true) :
    phase.inFlight = true := by
  cases phase with
  | waiting woken => rfl
  | sending job => exact absurd h Bool.false_ne_true
  | returned => exact absurd h Bool.false_ne_true
  | timedOut => exact absurd h Bool.false_ne_true

omit [DecidableEq τ] in
/-- Waking a call leaves it in flight, or out of it. -/
lemma inFlight_wake (call : Call τ) : call.wake.phase.inFlight = call.phase.inFlight := by
  unfold Call.wake
  cases hphase : call.phase <;> simp [Phase.isWaiting, Phase.inFlight, hphase]

omit [DecidableEq τ] in
/-- Waking a call changes its phase only. -/
lemma wake_eq (call : Call τ) :
    call.wake.topic = call.topic ∧ call.wake.isNewTopic = call.isNewTopic ∧
      call.wake.registeredAt = call.registeredAt ∧
      call.wake.phase.isWaiting = call.phase.isWaiting ∧
      (call.phase.isWaiting = false → call.wake = call) := by
  unfold Call.wake
  cases hphase : call.phase <;> simp [Phase.isWaiting, hphase]

/-- Calls that are woken hold what they held. -/
lemma Held.wake {s : State τ} (h : Held s) :
    Held { s with connected := true, calls := s.calls.map Call.wake } := by
  refine ⟨h.nonempty, h.subscribed, ?_, h.unsubs⟩
  intro i call hcall
  rw [List.getElem?_map, Option.map_eq_some_iff] at hcall
  obtain ⟨old, hold, rfl⟩ := hcall
  have hknown := h.calls i old hold
  obtain ⟨htopic, hnew, hmark, hwaiting, hsame⟩ := wake_eq old
  refine ⟨?_, ?_, ?_, ?_⟩
  · rw [inFlight_wake, htopic]
    exact hknown.registered
  · intro job hjob
    have hnot : old.phase.isWaiting = false := by
      rw [← hwaiting, hjob]
      rfl
    rw [hsame hnot] at hjob ⊢
    exact hknown.added job hjob
  -- a call that joined has returned, so it is not woken
  · intro hjoined
    rw [hnew] at hjoined
    have hreturned := hknown.joined hjoined
    have hnot : old.phase.isWaiting = false := by
      rw [hreturned]
      rfl
    rw [hsame hnot]
    exact hreturned
  · rw [hmark]
    exact hknown.marked

lemma Held.afterResubscribe {s : State τ} (h : Held s) (k ws : ℕ) (out : Option (Sending τ)) :
    Held (s.afterResubscribe k ws out) := by
  cases out with
  | none => exact ⟨h.nonempty, h.subscribed, h.wake.calls, h.unsubs⟩
  | some job => exact ⟨h.nonempty, h.subscribed, h.calls, h.unsubs⟩

/-- A queue of a topic stays in the table when another list of it is stored. -/
lemma mem_getD_insert {queues : AList fun _ : τ => List ℕ} {t topic : τ} {qs : List ℕ} {q : ℕ}
    (h : q ∈ (queues.lookup t).getD []) (hqs : t = topic → q ∈ qs) :
    q ∈ ((queues.insert topic qs).lookup t).getD [] := by
  by_cases htopic : t = topic
  · rw [htopic, AList.lookup_insert]
    exact hqs htopic
  · rwa [AList.lookup_insert_ne htopic]

/-- A new call has its queue in the table. -/
lemma Held.subscribe {s : State τ} (h : Held s) (topic : τ) : Held (s.subscribe topic) := by
  refine ⟨?_, ?_, ?_, h.unsubs⟩
  · intro t
    show (s.queues.insert topic _).lookup t ≠ some []
    by_cases htopic : t = topic
    · rw [htopic, AList.lookup_insert]
      simp
    · rw [AList.lookup_insert_ne htopic]
      exact h.nonempty t
  · intro t ht
    exact (AList.mem_insert _).mpr (Or.inr (h.subscribed t ht))
  · intro i call hcall
    show call.Known (s.queues.insert topic _) s.subscribedTopics s.wire.length i
    rcases mem_calls_subscribe hcall with hold | ⟨rfl, htopic, hmark, hnew⟩
    · have hknown := h.calls i call hold
      refine ⟨fun hflight => ?_, hknown.added, hknown.joined, hknown.marked⟩
      apply mem_getD_insert (hknown.registered hflight)
      intro htopic
      rw [State.queuesOf, ← htopic]
      exact List.mem_append_left _ (hknown.registered hflight)
    · -- the new call's queue is the last of its topic
      refine ⟨fun _ => ?_, ?_, ?_, hmark.le⟩
      · rw [htopic, AList.lookup_insert]
        simp
      · intro job hjob
        rcases hnew with ⟨-, -, hphase⟩ | ⟨-, -, hphase⟩ <;> simp [hphase] at hjob
      · intro hjoined
        rcases hnew with ⟨-, -, hphase⟩ | ⟨-, hopened, -⟩
        · exact hphase
        · simp [hopened] at hjoined

/-- A call past the wait: its topic is in the table, so it may be taken as subscribed. -/
lemma Held.proceed {P : Payloads τ} {s : State τ} (h : Held s) {i : ℕ} {call : Call τ}
    (hcall : s.calls[i]? = some call) (hphase : call.phase = .waiting true) :
    Held (s.proceed P i call) := by
  have hflight : call.phase.inFlight = true := by
    rw [hphase]
    rfl
  have hnew : call.isNewTopic = true := by
    by_contra hjoined
    have := (h.calls i call hcall).joined (Bool.eq_false_iff.mpr hjoined)
    simp [hphase] at this
  unfold State.proceed
  split
  · exact h.setPhase hcall (fun _ => hflight) (fun job hjob => by simp at hjob)
      (fun _ => rfl)
  · obtain ⟨new, hwire, -⟩ := sendPayloads_wire s .subscribe (P.subscribe [call.topic])
    have hsent := (h.add (h.mem_queues hcall hflight)).wire
      (s.sendPayloads .subscribe (P.subscribe [call.topic])).1 (by simp [hwire])
    refine hsent.setPhase hcall (fun _ => hflight) ?_ (fun hjoined => ?_)
    · intro job hjob
      refine ⟨Finset.mem_insert_self _ _, ?_⟩
      rw [P.subscribe_one] at hjob
      cases hout : (s.sendPayloads .subscribe [[call.topic]]).2 with
      | none => simp [hout, Phase.ofSending] at hjob
      | some job' =>
        obtain rfl : job' = job := by simpa [hout, Phase.ofSending] using hjob
        exact sendPayloads_single hout
    · rw [hnew] at hjoined
      exact Bool.noConfusion hjoined

/-- A call's only frame is out, and it returns. -/
lemma Held.sent_eq {s : State τ} (h : Held s) {i : ℕ} {call : Call τ} {job : Sending τ}
    (hcall : s.calls[i]? = some call) (hphase : call.phase = .sending job) :
    s.sent i call job = s.setPhase i call .returned := by
  have hrest := ((h.calls i call hcall).added job hphase).2
  simp only [State.sent, hrest, State.sendNext]
  rfl

/-- An unsubscription's only frame is out, and it is over. -/
lemma Held.unsubscribeSent_eq {s : State τ} (h : Held s) {j : ℕ} {job : Sending τ}
    (hjob : s.unsubs[j]? = some job) :
    s.unsubscribeSent j job = { s with unsubs := s.unsubs.eraseIdx j } := by
  have hrest := h.unsubs job (List.mem_of_getElem? hjob)
  simp [State.unsubscribeSent, hrest, State.sendNext]

/-- A queue that was handed out is taken from the table: no call in flight loses its own. -/
lemma Held.mem_others {s : State τ} (h : Held s) {topic : τ} {q i : ℕ} {call holder : Call τ}
    (hholder : s.calls[q]? = some holder) (hdone : holder.phase.inFlight = false)
    (hcall : s.calls[i]? = some call) (hflight : call.phase.inFlight = true)
    (htopic : call.topic = topic) : i ∈ s.others topic q := by
  have hne : i ≠ q := by
    intro heq
    rw [heq, hholder] at hcall
    obtain rfl := Option.some.inj hcall
    rw [hflight] at hdone
    exact Bool.noConfusion hdone
  rw [State.others, State.queuesOf, List.mem_filter, ← htopic]
  exact ⟨(h.calls i call hcall).registered hflight, by simpa using hne⟩

/-- An `unsubscribe` from a topic that others hold. -/
lemma Held.keepTopic {s : State τ} (h : Held s) {topic : τ} {qs : List ℕ} (hqs : qs ≠ [])
    (hkept : ∀ (i : ℕ) (call : Call τ), s.calls[i]? = some call → call.phase.inFlight = true →
      call.topic = topic → i ∈ qs) : Held { s with queues := s.queues.insert topic qs } := by
  refine ⟨?_, ?_, ?_, h.unsubs⟩
  · intro t
    by_cases htopic : t = topic
    · rw [htopic, AList.lookup_insert]
      simpa using hqs
    · rw [AList.lookup_insert_ne htopic]
      exact h.nonempty t
  · intro t ht
    exact (AList.mem_insert _).mpr (Or.inr (h.subscribed t ht))
  · intro i call hcall
    have hknown := h.calls i call hcall
    refine ⟨fun hflight => ?_, hknown.added, hknown.joined, hknown.marked⟩
    exact mem_getD_insert (hknown.registered hflight) (hkept i call hcall hflight)

/-- An `unsubscribe` that drops the topic: a call in flight is of another one. -/
lemma Held.dropTopic {s : State τ} (h : Held s) {topic : τ}
    (hother : ∀ (i : ℕ) (call : Call τ), s.calls[i]? = some call → call.phase.inFlight = true →
      call.topic ≠ topic) :
    Held { s with
      queues := s.queues.erase topic
      subscribedTopics := s.subscribedTopics.erase topic } := by
  refine ⟨?_, ?_, ?_, h.unsubs⟩
  · intro t
    by_cases htopic : t = topic
    · rw [htopic, AList.lookup_erase]
      simp
    · rw [AList.lookup_erase_ne htopic]
      exact h.nonempty t
  · intro t ht
    obtain ⟨hne, hold⟩ := Finset.mem_erase.mp ht
    exact AList.mem_erase.mpr ⟨hne, h.subscribed t hold⟩
  · intro i call hcall
    have hknown := h.calls i call hcall
    refine ⟨fun hflight => ?_, fun job hjob => ?_, hknown.joined, hknown.marked⟩
    · rw [AList.lookup_erase_ne (hother i call hcall hflight)]
      exact hknown.registered hflight
    · obtain ⟨hmem, hrest⟩ := hknown.added job hjob
      refine ⟨Finset.mem_erase.mpr ⟨hother i call hcall ?_, hmem⟩, hrest⟩
      rw [hjob]
      rfl

omit [DecidableEq τ] in
/-- What `unsubscribe` sends is one frame, which leaves none to send. -/
lemma unsubscribe_sends (P : Payloads τ) (s : State τ) (topic : τ) :
    s.wire.length ≤ (if s.connected = true then s.sendPayloads .unsubscribe (P.unsubscribe [topic])
        else (s.wire, none)).1.length ∧
      ∀ job, (if s.connected = true then s.sendPayloads .unsubscribe (P.unsubscribe [topic])
        else (s.wire, none)).2 = some job → job.rest = [] := by
  split
  · obtain ⟨new, hwire, -⟩ := sendPayloads_wire s .unsubscribe (P.unsubscribe [topic])
    rw [P.unsubscribe_one] at hwire ⊢
    exact ⟨by simp [hwire], fun job hjob => sendPayloads_single hjob⟩
  · exact ⟨le_refl _, fun job hjob => by simp at hjob⟩

/-- A queue whose call is over may leave the table. -/
lemma Held.unsubscribe {P : Payloads τ} {s : State τ} (h : Held s) {topic : τ} {q : ℕ}
    {holder : Call τ} (hholder : s.calls[q]? = some holder)
    (hdone : holder.phase.inFlight = false) : Held (s.unsubscribe P topic q) := by
  have hkept : ∀ (i : ℕ) (call : Call τ), s.calls[i]? = some call → call.phase.inFlight = true →
      call.topic = topic → i ∈ s.others topic q :=
    fun i call hcall hflight htopic => h.mem_others hholder hdone hcall hflight htopic
  unfold State.unsubscribe
  split
  · next hothers => exact h.keepTopic hothers hkept
  · next hnone =>
    rw [not_not] at hnone
    have hdropped : Held { s with
        queues := s.queues.erase topic
        subscribedTopics := s.subscribedTopics.erase topic } := by
      apply h.dropTopic
      intro i call hcall hflight htopic
      have := hkept i call hcall hflight htopic
      rw [hnone] at this
      exact List.not_mem_nil this
    obtain ⟨hlength, hsends⟩ := unsubscribe_sends P s topic
    have hwire := hdropped.wire _ hlength
    refine ⟨hwire.nonempty, hwire.subscribed, hwire.calls, ?_⟩
    intro job hjob
    rcases List.mem_append.mp hjob with hold | hnew
    · exact h.unsubs job hold
    · exact hsends job (Option.mem_toList.mp hnew)

/-- A new connection subscribes to the topics of the table. -/
lemma Held.connect {P : Payloads τ} {s : State τ} (h : Held s) (k : ℕ) :
    Held (s.connect P k) := by
  obtain ⟨payloads, -, heq⟩ := connect_eq P s k
  have hopened : Held s.opened := by
    refine ⟨h.nonempty, ?_, ?_, h.unsubs⟩
    · intro t ht
      exact AList.mem_keys.mpr (List.mem_toFinset.mp ht)
    · intro i call hcall
      have hknown := h.calls i call hcall
      refine ⟨hknown.registered, fun job hjob => ?_, hknown.joined, hknown.marked⟩
      refine ⟨List.mem_toFinset.mpr (AList.mem_keys.mp (h.mem_queues hcall ?_)),
        (hknown.added job hjob).2⟩
      rw [hjob]
      rfl
  obtain ⟨new, hwire, -⟩ := sendNext_wire s.opened s.sockets.length .subscribe payloads
  rw [heq]
  exact (hopened.wire _ (by simp [hwire])).afterResubscribe k _ _

lemma held_init : Held ({} : State τ) :=
  ⟨by simp [AList.lookup_empty], by simp, by simp, by simp⟩

/-- Every step keeps the table and the calls in order. -/
lemma Held.step {P : Payloads τ} {s s' : State τ} {e : Event τ} (h : Held s)
    (hstep : StreamHub.step P s e = some s') : Held s' := by
  cases e with
  | subscribe topic =>
    obtain rfl := Option.some.inj hstep
    exact h.subscribe topic
  | proceed i =>
    obtain ⟨call, hcall, hphase, rfl⟩ := step_proceed hstep
    exact h.proceed hcall hphase
  | timeout i =>
    obtain ⟨call, hcall, hwaiting, rfl⟩ := step_timeout hstep
    refine h.setPhase hcall (fun hflight => by simp [Phase.inFlight] at hflight)
      (fun job hjob => by simp at hjob) (fun hjoined => ?_)
    have := (h.calls i call hcall).joined hjoined
    simp [this, Phase.isWaiting] at hwaiting
  | sent i =>
    obtain ⟨call, job, hcall, hphase, rfl⟩ := step_sent hstep
    rw [h.sent_eq hcall hphase]
    exact h.setPhase hcall (fun hflight => by simp [Phase.inFlight] at hflight)
      (fun job hjob => by simp at hjob) (fun _ => rfl)
  | unsubscribe topic q =>
    obtain ⟨holder, hholder, hdone, rfl⟩ := step_unsubscribe hstep
    exact h.unsubscribe hholder hdone
  | unsubscribeSent j =>
    obtain ⟨job, hjob, rfl⟩ := step_unsubscribeSent hstep
    rw [h.unsubscribeSent_eq hjob]
    exact ⟨h.nonempty, h.subscribed, h.calls, fun job' hjob' =>
      h.unsubs job' (List.mem_of_mem_eraseIdx hjob')⟩
  | connect k =>
    obtain ⟨-, rfl⟩ := step_connect hstep
    exact h.connect k
  | connectFails k =>
    obtain ⟨-, rfl⟩ := step_connectFails hstep
    exact ⟨h.nonempty, h.subscribed, h.calls, h.unsubs⟩
  | resubscribed k =>
    obtain ⟨job, -, rfl⟩ := step_resubscribed hstep
    obtain ⟨new, hwire, -⟩ := sendNext_wire s job.ws .subscribe job.rest
    exact (h.wire _ (by simp [hwire])).afterResubscribe k _ _
  | disconnected k =>
    obtain ⟨ws, -, rfl⟩ := step_disconnected hstep
    exact ⟨h.nonempty, h.subscribed, h.calls, h.unsubs⟩
  | retry k =>
    obtain ⟨-, rfl⟩ := step_retry hstep
    exact ⟨h.nonempty, h.subscribed, h.calls, h.unsubs⟩
  | drop ws =>
    obtain rfl := Option.some.inj hstep
    exact ⟨h.nonempty, h.subscribed, h.calls, h.unsubs⟩

end StreamHub
end ExchangeRouter
