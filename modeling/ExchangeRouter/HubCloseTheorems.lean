import ExchangeRouter.HubClose
import ExchangeRouter.StreamHubInvariant

/-!
# A closed hub stays silent

Up to its `close` the hub is the one of `StreamHub.lean`. `Tidy` says where its socket, its loops
and its task stand, and holds in every run; from it, nothing is connected or sent any more once
`close` has returned, and `close` does return.
-/

namespace ExchangeRouter
namespace HubClose

open StreamHub (Payloads RunPhase Wired)
open Transition

section

variable {τ : Type*}

/-! ## What one stretch of the hub does to its sockets -/

/-- Only the hub's own socket is up. -/
def OwnSocket (hub : StreamHub.State τ) : Prop := ∀ w, hub.isUp w = true → hub.ws = some w

/-- The connection is as it was, but that sockets may go down; frames go out on sockets that are
up. -/
structure KeepsLink (hub hub' : StreamHub.State τ) : Prop where
  runs : hub'.runs = hub.runs
  task : hub'.task = hub.task
  ws : hub'.ws = hub.ws
  connected : hub'.connected = hub.connected
  length : hub'.sockets.length = hub.sockets.length
  up : ∀ w, hub'.isUp w = true → hub.isUp w = true
  wire : ∃ new, hub'.wire = hub.wire ++ new ∧ ∀ entry ∈ new, hub.isUp entry.1 = true

lemma KeepsLink.of_sockets {hub hub' : StreamHub.State τ} (hruns : hub'.runs = hub.runs)
    (htask : hub'.task = hub.task) (hws : hub'.ws = hub.ws)
    (hconnected : hub'.connected = hub.connected) (hsockets : hub'.sockets = hub.sockets)
    (hwire : ∃ new, hub'.wire = hub.wire ++ new ∧ ∀ entry ∈ new, hub.isUp entry.1 = true) :
    KeepsLink hub hub' := by
  refine ⟨hruns, htask, hws, hconnected, by rw [hsockets], fun w hw => ?_, hwire⟩
  rw [StreamHub.State.isUp, hsockets] at hw
  exact hw

lemma KeepsLink.ownSocket {hub hub' : StreamHub.State τ} (h : KeepsLink hub hub')
    (hown : OwnSocket hub) : OwnSocket hub' := by
  intro w hw
  rw [h.ws]
  exact hown w (h.up w hw)

/-- A hub whose sockets are all down sends nothing. -/
lemma KeepsLink.wire_eq {hub hub' : StreamHub.State τ} (h : KeepsLink hub hub')
    (hdown : ∀ w, hub.isUp w = false) : hub'.wire = hub.wire := by
  obtain ⟨new, hwire, hnew⟩ := h.wire
  cases new with
  | nil => rw [hwire, List.append_nil]
  | cons entry rest =>
    have hup := hnew entry List.mem_cons_self
    rw [hdown] at hup
    cases hup

/-- A socket that was set down is down. -/
lemma isUp_disconnected (hub : StreamHub.State τ) (k ws w : ℕ) :
    (hub.disconnected k ws).isUp w = (hub.isUp w && decide (w ≠ ws)) := by
  simp only [StreamHub.State.isUp, StreamHub.State.disconnected, StreamHub.State.setRun,
    List.getD_eq_getElem?_getD, List.getElem?_set]
  by_cases heq : ws = w
  · subst heq
    rw [if_pos rfl]
    split <;> simp
  · rw [if_neg heq]
    simp [Ne.symm heq]

/-- The socket that goes down was the only one up. -/
lemma down_disconnected {hub : StreamHub.State τ} (hown : OwnSocket hub) {k ws : ℕ}
    (hws : hub.ws = some ws) (w : ℕ) : (hub.disconnected k ws).isUp w = false := by
  rw [isUp_disconnected]
  cases hup : hub.isUp w with
  | false => rfl
  | true =>
    have heq := hown w hup
    rw [hws, Option.some.injEq] at heq
    simp [heq]

variable [DecidableEq τ] {P : Payloads τ}

/-- A stretch of a call, or a socket going down. -/
lemma keepsLink_of_step {hub hub' : StreamHub.State τ} {e : StreamHub.Event τ}
    (hcall : ofRun e = false) (hsubscribe : ∀ topic, e ≠ .subscribe topic)
    (hstep : StreamHub.step P hub e = some hub') : KeepsLink hub hub' := by
  cases e with
  | subscribe topic => exact absurd rfl (hsubscribe topic)
  | proceed i =>
    obtain ⟨call, -, -, rfl⟩ := StreamHub.step_proceed hstep
    unfold StreamHub.State.proceed
    split
    · exact .of_sockets rfl rfl rfl rfl rfl ⟨[], by simp [StreamHub.State.setPhase], by simp⟩
    · exact .of_sockets rfl rfl rfl rfl rfl (StreamHub.sendPayloads_wire hub _ _)
  | timeout i =>
    obtain ⟨call, -, -, rfl⟩ := StreamHub.step_timeout hstep
    exact .of_sockets rfl rfl rfl rfl rfl ⟨[], by simp [StreamHub.State.setPhase], by simp⟩
  | sent i =>
    obtain ⟨call, job, -, -, rfl⟩ := StreamHub.step_sent hstep
    exact .of_sockets rfl rfl rfl rfl rfl (StreamHub.sendNext_wire hub _ _ _)
  | unsubscribe topic q =>
    obtain ⟨call, -, -, rfl⟩ := StreamHub.step_unsubscribe hstep
    unfold StreamHub.State.unsubscribe
    split
    · exact .of_sockets rfl rfl rfl rfl rfl ⟨[], by simp, by simp⟩
    · refine .of_sockets rfl rfl rfl rfl rfl ?_
      dsimp only
      split
      · exact StreamHub.sendPayloads_wire hub _ _
      · exact ⟨[], by simp, by simp⟩
  | unsubscribeSent j =>
    obtain ⟨job, -, rfl⟩ := StreamHub.step_unsubscribeSent hstep
    exact .of_sockets rfl rfl rfl rfl rfl (StreamHub.sendNext_wire hub _ _ _)
  | drop ws =>
    obtain rfl := Option.some.inj hstep
    refine ⟨rfl, rfl, rfl, rfl, List.length_set .., fun w hw => ?_, ⟨[], by simp, by simp⟩⟩
    simp only [StreamHub.State.isUp, List.getD_eq_getElem?_getD, List.getElem?_set] at hw ⊢
    by_cases heq : ws = w
    · subst heq
      rw [if_pos rfl] at hw
      split at hw <;> simp at hw
    · rwa [if_neg heq] at hw
  | _ => simp [ofRun] at hcall

/-- Only the hub's own socket is up, after any stretch. -/
lemma ownSocket_of_step {hub hub' : StreamHub.State τ} {e : StreamHub.Event τ}
    (hwired : Wired hub) (hown : OwnSocket hub) (hstep : StreamHub.step P hub e = some hub') :
    OwnSocket hub' := by
  cases hrun : ofRun e with
  | false =>
    by_cases hsubscribe : ∀ topic, e ≠ .subscribe topic
    · exact (keepsLink_of_step hrun hsubscribe hstep).ownSocket hown
    · simp only [not_forall, not_not] at hsubscribe
      obtain ⟨topic, rfl⟩ := hsubscribe
      obtain rfl := Option.some.inj hstep
      exact hown
  | true =>
    cases e with
    | connect k =>
      obtain ⟨hk, rfl⟩ := StreamHub.step_connect hstep
      obtain ⟨-, -, -, hws, -⟩ := hwired.fields hk
      have hopened : OwnSocket hub.opened := by
        intro w hw
        simp only [StreamHub.State.opened, StreamHub.State.isUp, List.getD_eq_getElem?_getD] at hw ⊢
        by_cases hlt : w < hub.sockets.length
        · -- the sockets before this one are down
          rw [List.getElem?_append_left hlt] at hw
          have hold := hown w (by rwa [StreamHub.State.isUp, List.getD_eq_getElem?_getD])
          rw [hws] at hold
          cases hold
        · have hge := Nat.le_of_not_lt hlt
          rw [List.getElem?_append_right hge] at hw
          by_cases heq : w = hub.sockets.length
          · rw [heq]
          · have hnone : [true][w - hub.sockets.length]? = none :=
              List.getElem?_eq_none (by rw [List.length_singleton]; omega)
            rw [hnone] at hw
            cases hw
      obtain ⟨payloads, -, heq⟩ := StreamHub.connect_eq P hub k
      rw [heq]
      cases (hub.opened.sendNext hub.sockets.length .subscribe payloads).2 <;> exact hopened
    | connectFails k =>
      obtain ⟨-, rfl⟩ := StreamHub.step_connectFails hstep
      exact hown
    | resubscribed k =>
      obtain ⟨job, -, rfl⟩ := StreamHub.step_resubscribed hstep
      unfold StreamHub.State.resubscribed
      dsimp only
      cases (hub.sendNext job.ws .subscribe job.rest).2 <;> exact hown
    | disconnected k =>
      obtain ⟨ws, hk, rfl⟩ := StreamHub.step_disconnected hstep
      obtain ⟨-, -, -, hws, -⟩ := hwired.fields hk
      intro w hw
      rw [down_disconnected hown hws] at hw
      cases hw
    | retry k =>
      obtain ⟨-, rfl⟩ := StreamHub.step_retry hstep
      exact hown
    | _ => cases hrun

/-- A hub that is connected before and after a stretch has the same socket. -/
lemma ws_of_step {hub hub' : StreamHub.State τ} {e : StreamHub.Event τ} (hwired : Wired hub)
    (hstep : StreamHub.step P hub e = some hub') (hbefore : hub.connected = true)
    (hafter : hub'.connected = true) : hub'.ws = hub.ws := by
  cases hrun : ofRun e with
  | false =>
    by_cases hsubscribe : ∀ topic, e ≠ .subscribe topic
    · exact (keepsLink_of_step hrun hsubscribe hstep).ws
    · simp only [not_forall, not_not] at hsubscribe
      obtain ⟨topic, rfl⟩ := hsubscribe
      obtain rfl := Option.some.inj hstep
      rfl
  | true =>
    -- the task of a connected hub is in its receive loop, and only `disconnected` leaves that
    have hphase : ∀ (k : ℕ) (phase : RunPhase τ), hub.runs[k]? = some phase →
        phase.isReceiving = true := by
      intro k phase hk
      rw [← (hwired.fields hk).2.2.2.2, hbefore]
    cases e with
    | connect k =>
      exact absurd (hphase k _ (StreamHub.step_connect hstep).1) (by simp [RunPhase.isReceiving])
    | connectFails k =>
      exact absurd (hphase k _ (StreamHub.step_connectFails hstep).1)
        (by simp [RunPhase.isReceiving])
    | resubscribed k =>
      obtain ⟨job, hk, -⟩ := StreamHub.step_resubscribed hstep
      exact absurd (hphase k _ hk) (by simp [RunPhase.isReceiving])
    | disconnected k =>
      obtain ⟨ws, -, rfl⟩ := StreamHub.step_disconnected hstep
      cases hafter
    | retry k =>
      exact absurd (hphase k _ (StreamHub.step_retry hstep).1) (by simp [RunPhase.isReceiving])
    | _ => cases hrun

/-- No stretch but `subscribe` makes a task, and none opens a socket but that of a task. -/
lemma runs_of_step {hub hub' : StreamHub.State τ} {e : StreamHub.Event τ}
    (hsubscribe : ∀ topic, e ≠ .subscribe topic) (hstep : StreamHub.step P hub e = some hub') :
    hub'.task = hub.task ∧ hub'.runs.length = hub.runs.length := by
  cases hrun : ofRun e with
  | false =>
    have hlink := keepsLink_of_step hrun hsubscribe hstep
    exact ⟨hlink.task, by rw [hlink.runs]⟩
  | true =>
    cases e with
    | connect k =>
      obtain ⟨-, rfl⟩ := StreamHub.step_connect hstep
      obtain ⟨payloads, -, heq⟩ := StreamHub.connect_eq P hub k
      rw [heq]
      cases (hub.opened.sendNext hub.sockets.length .subscribe payloads).2
      · exact ⟨rfl, List.length_set ..⟩
      · exact ⟨rfl, List.length_set ..⟩
    | connectFails k =>
      obtain ⟨-, rfl⟩ := StreamHub.step_connectFails hstep
      exact ⟨rfl, List.length_set ..⟩
    | resubscribed k =>
      obtain ⟨job, -, rfl⟩ := StreamHub.step_resubscribed hstep
      unfold StreamHub.State.resubscribed
      dsimp only
      cases (hub.sendNext job.ws .subscribe job.rest).2
      · exact ⟨rfl, List.length_set ..⟩
      · exact ⟨rfl, List.length_set ..⟩
    | disconnected k =>
      obtain ⟨ws, -, rfl⟩ := StreamHub.step_disconnected hstep
      exact ⟨rfl, List.length_set ..⟩
    | retry k =>
      obtain ⟨-, rfl⟩ := StreamHub.step_retry hstep
      exact ⟨rfl, List.length_set ..⟩
    | _ => cases hrun

/-! ## What every run keeps -/

/-- The sockets, the keepalive loops and the `_run` task of a hub. -/
structure Tidy (s : State τ) : Prop where
  wired : Wired s.hub
  own : OwnSocket s.hub
  running : s.closed = false → s.fate = .running
  idle : s.closed = true → s.fate = .running → s.hub.task = none
  cancelledTask : s.fate ≠ .running → s.hub.task ≠ none
  tasked : s.hub.task ≠ none → s.hub.runs ≠ []
  left : s.fate = .leaving ∨ s.fate = .done → s.hub.ws = none
  keepalives : ∀ ka ∈ s.keepalives, ka.live = true →
    s.hub.connected = true ∧ s.hub.ws = some ka.ws

variable {s s' : State τ}

omit [DecidableEq τ] in
lemma tidy_init : Tidy ({} : State τ) := by
  refine ⟨StreamHub.wired_init, fun w hw => ?_, fun _ => rfl, fun h => ?_, fun h => ?_,
    fun h => ?_, fun h => ?_, fun ka hka => ?_⟩
  · simp [StreamHub.State.isUp] at hw
  · cases h
  · exact absurd rfl h
  · exact absurd rfl h
  · rfl
  · exact absurd hka List.not_mem_nil

omit [DecidableEq τ] in
/-- A loop that goes on is that of the hub's connection, whatever the stretch did to it. -/
lemma live_keepalivesAfter (keepalive : Bool) {hub : StreamHub.State τ}
    (h : ∀ ka ∈ s.keepalives, ka.live = true →
      s.hub.connected = true ∧ s.hub.ws = some ka.ws)
    (hws : s.hub.connected = true → hub.connected = true → hub.ws = s.hub.ws) :
    ∀ ka ∈ s.keepalivesAfter keepalive hub, ka.live = true →
      hub.connected = true ∧ hub.ws = some ka.ws := by
  intro ka hka hlive
  unfold State.keepalivesAfter at hka
  cases hbefore : s.hub.connected with
  | false =>
    -- no loop of before goes on
    have hold : ka ∉ s.keepalives := by
      intro hmem
      have hconnected := (h ka hmem hlive).1
      rw [hbefore] at hconnected
      cases hconnected
    cases hafter : hub.connected with
    | false =>
      simp only [hbefore, hafter, Bool.false_and, Bool.false_eq_true, if_false] at hka
      exact absurd hka hold
    | true =>
      simp only [hbefore, hafter, Bool.not_false, Bool.and_self, if_true] at hka
      have hnew := (List.mem_append.mp hka).resolve_left hold
      split at hnew
      · obtain ⟨ws, hmem, rfl⟩ := List.mem_map.mp hnew
        exact ⟨rfl, Option.mem_toList.mp hmem⟩
      · exact absurd hnew List.not_mem_nil
  | true =>
    cases hafter : hub.connected with
    | false =>
      simp only [hbefore, hafter, Bool.false_and, Bool.false_eq_true, if_false, Bool.not_false,
        Bool.and_self, if_true] at hka
      -- the loop of the old connection is stopped
      cases hold : s.hub.ws with
      | none =>
        rw [hold] at hka
        have hsome := (h ka hka hlive).2
        rw [hold] at hsome
        cases hsome
      | some ws =>
        rw [hold] at hka
        obtain ⟨ka', hmem, rfl⟩ := List.mem_map.mp hka
        split at hlive
        · cases hlive
        · next hne =>
          have hsome := (h ka' hmem hlive).2
          rw [hold, Option.some.injEq] at hsome
          exact absurd hsome.symm hne
    | true =>
      simp only [hbefore, hafter, Bool.not_true, Bool.and_false, Bool.false_eq_true,
        if_false] at hka
      refine ⟨rfl, ?_⟩
      rw [hws hbefore hafter]
      exact (h ka hka hlive).2

omit [DecidableEq τ] in
/-- The loop of a socket that is left is stopped, and there was no other. -/
lemma not_live_stop {ws : ℕ} (hws : s.hub.ws = some ws)
    (h : ∀ ka ∈ s.keepalives, ka.live = true →
      s.hub.connected = true ∧ s.hub.ws = some ka.ws) :
    ∀ ka ∈ stop ws s.keepalives, ka.live = false := by
  intro ka hka
  obtain ⟨ka', hmem, rfl⟩ := List.mem_map.mp hka
  split
  · rfl
  · next hne =>
    cases hlive : ka'.live with
    | false => rfl
    | true =>
      have hsome := (h ka' hmem hlive).2
      rw [hws, Option.some.injEq] at hsome
      exact absurd hsome.symm hne

/-- A stretch of the hub but `subscribe`. -/
lemma Tidy.base (h : Tidy s) {keepalive : Bool} {e : StreamHub.Event τ}
    {hub : StreamHub.State τ} (hsubscribe : ∀ topic, e ≠ .subscribe topic)
    (hfate : ofRun e = true → s.fate = .running) (hstep : StreamHub.step P s.hub e = some hub) :
    Tidy { s with hub := hub, keepalives := s.keepalivesAfter keepalive hub } := by
  have hkeepalives := live_keepalivesAfter keepalive h.keepalives
    (ws_of_step h.wired hstep)
  have hwired := h.wired.step hstep
  have hown := ownSocket_of_step h.wired h.own hstep
  obtain ⟨htask, hlength⟩ := runs_of_step hsubscribe hstep
  have htasked : hub.task ≠ none → hub.runs ≠ [] := by
    intro hne hnil
    rw [htask] at hne
    refine h.tasked hne (List.length_eq_zero_iff.mp ?_)
    rw [← hlength, hnil, List.length_nil]
  refine ⟨hwired, hown, h.running, fun hclosed hrunning => ?_, fun hne => ?_, htasked,
    fun hleft => ?_, hkeepalives⟩
  · exact htask.trans (h.idle hclosed hrunning)
  · exact fun hnone => h.cancelledTask hne (htask.symm.trans hnone)
  · cases hrun : ofRun e with
    | false => exact (keepsLink_of_step hrun hsubscribe hstep).ws.trans (h.left hleft)
    | true =>
      -- the task has not been cancelled
      dsimp only at hleft
      rw [hfate hrun] at hleft
      rcases hleft with hleft | hleft <;> cases hleft

lemma Tidy.subscribe (h : Tidy s) (topic : τ) : Tidy (s.subscribe topic) := by
  unfold State.subscribe
  split
  · have hwired : Wired { s.hub.subscribe topic with task := s.hub.task, runs := s.hub.runs } :=
      h.wired.of_call rfl rfl rfl rfl rfl
        ⟨[], by rw [List.append_nil]; rfl, fun _ hmem => absurd hmem List.not_mem_nil⟩
    exact ⟨hwired, h.own, h.running, h.idle, h.cancelledTask, h.tasked, h.left, h.keepalives⟩
  · next hopen =>
    have hrunning := h.running (Bool.eq_false_iff.mpr hopen)
    refine ⟨h.wired.subscribe topic, h.own, h.running, fun hclosed => absurd hclosed hopen,
      fun hne => absurd hrunning hne, fun _ => ?_, h.left, h.keepalives⟩
    show s.hub.startRun ≠ []
    unfold StreamHub.State.startRun
    split
    · simp
    · next htask => exact h.tasked (by simp [htask])

omit [DecidableEq τ] in
lemma Tidy.close (h : Tidy s) : Tidy s.close := by
  unfold State.close
  split
  · exact h
  · cases htask : s.hub.task with
    | none =>
      refine ⟨h.wired, h.own, fun _ => rfl, fun _ _ => htask, fun hne => absurd rfl hne,
        h.tasked, fun hleft => ?_, h.keepalives⟩
      rcases hleft with hleft | hleft <;> cases hleft
    | some k =>
      have hsome : s.hub.task ≠ none := by simp [htask]
      refine ⟨h.wired, h.own, fun hclosed => ?_, fun _ hfate => ?_, fun _ => hsome, h.tasked,
        fun hleft => ?_, h.keepalives⟩
      · cases hclosed
      · cases hfate
      · rcases hleft with hleft | hleft <;> cases hleft

omit [DecidableEq τ] in
/-- The task leaves its connection: the socket and its loop go with it. -/
lemma Tidy.leave (h : Tidy s) (hcancelled : s.fate = .cancelled) {phase : RunPhase τ}
    (hruns : s.hub.runs.head? = some phase) {ws : ℕ} (hws : phase.ws = some ws) :
    Tidy (s.leave ws) := by
  have hk : s.hub.runs[0]? = some phase := by
    rwa [List.head?_eq_getElem?] at hruns
  obtain ⟨-, hlist, htask, hfield, -⟩ := h.wired.fields hk
  rw [hws] at hfield
  have hset : (s.hub.disconnected 0 ws).runs = [.closing] := by
    simp [StreamHub.State.disconnected, StreamHub.State.setRun, hlist]
  refine ⟨?_, fun w hw => ?_, fun hclosed => ?_, fun _ hfate => ?_, fun _ => htask, fun _ => ?_,
    fun _ => rfl, fun ka hka hlive => ?_⟩
  · exact .of_run hset htask rfl rfl fun entry hentry =>
      (h.wired.numbered entry hentry).trans_eq (List.length_set ..).symm
  · have hdown : (s.hub.disconnected 0 ws).isUp w = false := down_disconnected h.own hfield w
    rw [show (s.leave ws).hub = s.hub.disconnected 0 ws from rfl, hdown] at hw
    cases hw
  · have hrunning := h.running hclosed
    rw [hcancelled] at hrunning
    cases hrunning
  · cases hfate
  · show (s.hub.disconnected 0 ws).runs ≠ []
    rw [hset]
    exact List.cons_ne_nil _ _
  · rw [not_live_stop hfield h.keepalives ka hka] at hlive
    cases hlive

omit [DecidableEq τ] in
lemma Tidy.done (h : Tidy s) (hne : s.fate ≠ .running) (hws : s.hub.ws = none) :
    Tidy { s with fate := .done } := by
  refine ⟨h.wired, h.own, fun hclosed => absurd (h.running hclosed) hne, fun _ hfate => ?_,
    fun _ => h.cancelledTask hne, h.tasked, fun _ => hws, h.keepalives⟩
  cases hfate

omit [DecidableEq τ] in
/-- A cancelled task comes to its `finally`. -/
lemma Tidy.cancelled (h : Tidy s) (hcancelled : s.fate = .cancelled) {phase : RunPhase τ}
    (hruns : s.hub.runs.head? = some phase) : Tidy (s.cancelled phase) := by
  have hne : s.fate ≠ .running := by simp [hcancelled]
  have hws : s.hub.ws = phase.ws := by
    rw [h.wired.ws_eq, hruns]
    rfl
  cases phase with
  | connecting => exact h.done hne hws
  | resubscribing job => exact h.leave hcancelled hruns rfl
  | receiving ws => exact h.leave hcancelled hruns rfl
  | closing => exact h.done hne hws

omit [DecidableEq τ] in
lemma Tidy.ping (h : Tidy s) {j : ℕ} {ka : Keepalive} : Tidy (s.ping j ka) := by
  unfold State.ping
  split
  · exact ⟨h.wired, h.own, h.running, h.idle, h.cancelledTask, h.tasked, h.left, h.keepalives⟩
  · refine ⟨h.wired, h.own, h.running, h.idle, h.cancelledTask, h.tasked, h.left,
      fun ka' hka' hlive => ?_⟩
    rcases List.mem_or_eq_of_mem_set hka' with hmem | rfl
    · exact h.keepalives ka' hmem hlive
    · cases hlive

/-! ## One step -/

/-- What can happen: a call subscribes, the hub makes another stretch, of its task only while that
is not cancelled, or one of the stretches of closing and of the loops. -/
lemma step_cases {keepalive : Bool} {e : Event τ} (hstep : step P keepalive s e = some s') :
    (∃ topic, e = .base (.subscribe topic) ∧ s' = s.subscribe topic) ∨
    (∃ e' hub, e = .base e' ∧ (∀ topic, e' ≠ .subscribe topic) ∧
      (ofRun e' = true → s.fate = .running) ∧ StreamHub.step P s.hub e' = some hub ∧
      s' = { s with hub := hub, keepalives := s.keepalivesAfter keepalive hub }) ∨
    (e = .close ∧ s' = s.close) ∨
    (∃ phase, e = .cancelled ∧ s.fate = .cancelled ∧ s.hub.runs.head? = some phase ∧
      s' = s.cancelled phase) ∨
    (e = .left ∧ s.fate = .leaving ∧ s' = { s with fate := .done }) ∨
    ∃ j ka, e = .ping j ∧ ka ∈ s.keepalives ∧ ka.live = true ∧ s' = s.ping j ka := by
  cases e with
  | base e' =>
    by_cases hsubscribe : ∀ topic, e' ≠ .subscribe topic
    · right
      left
      have hother : step P keepalive s (.base e') =
          if ofRun e' && decide (s.fate ≠ .running) then none
          else (StreamHub.step P s.hub e').map fun hub =>
            { s with hub := hub, keepalives := s.keepalivesAfter keepalive hub } := by
        cases e' with
        | subscribe topic => exact absurd rfl (hsubscribe topic)
        | _ => rfl
      rw [hother] at hstep
      split at hstep
      · cases hstep
      · next hfree =>
        obtain ⟨hub, hhub, rfl⟩ := Option.map_eq_some_iff.mp hstep
        refine ⟨e', hub, rfl, hsubscribe, fun hrun => ?_, hhub, rfl⟩
        by_contra hne
        simp [hrun, hne] at hfree
    · simp only [not_forall, not_not] at hsubscribe
      obtain ⟨topic, rfl⟩ := hsubscribe
      exact .inl ⟨topic, rfl, (Option.some.inj hstep).symm⟩
  | close => exact .inr (.inr (.inl ⟨rfl, (Option.some.inj hstep).symm⟩))
  | cancelled =>
    simp only [step] at hstep
    split at hstep
    · next hcancelled =>
      obtain ⟨phase, hphase, rfl⟩ := Option.map_eq_some_iff.mp hstep
      exact .inr (.inr (.inr (.inl ⟨phase, rfl, hcancelled, hphase, rfl⟩)))
    · cases hstep
  | left =>
    simp only [step] at hstep
    split at hstep
    · next hleaving =>
      exact .inr (.inr (.inr (.inr (.inl ⟨rfl, hleaving, (Option.some.inj hstep).symm⟩))))
    · cases hstep
  | ping j =>
    simp only [step] at hstep
    split at hstep
    · next ka hka =>
      split at hstep
      · next hlive =>
        exact .inr (.inr (.inr (.inr (.inr
          ⟨j, ka, rfl, List.mem_of_getElem? hka, hlive, (Option.some.inj hstep).symm⟩))))
      · cases hstep
    · cases hstep

/-- Every step keeps the sockets and the task together. -/
lemma Tidy.step (h : Tidy s) {keepalive : Bool} {e : Event τ}
    (hstep : HubClose.step P keepalive s e = some s') : Tidy s' := by
  rcases step_cases hstep with ⟨topic, -, rfl⟩ | ⟨e', hub, -, hsubscribe, hfate, hhub, rfl⟩ |
    ⟨-, rfl⟩ | ⟨phase, -, hcancelled, hphase, rfl⟩ | ⟨-, hleaving, rfl⟩ | ⟨j, ka, -, -, -, rfl⟩
  · exact h.subscribe topic
  · exact h.base hsubscribe hfate hhub
  · exact h.close
  · exact h.cancelled hcancelled hphase
  · exact h.done (by simp [hleaving]) (h.left (.inl hleaving))
  · exact h.ping

/-! ## After `close` -/

omit [DecidableEq τ] in
/-- A hub whose `close` has returned has no socket, and no loop goes on. -/
lemma Tidy.at_rest (h : Tidy s) (hreturned : s.closeReturned = true) :
    s.hub.ws = none ∧ s.hub.connected = false ∧ (∀ w, s.hub.isUp w = false) ∧
      ∀ ka ∈ s.keepalives, ka.live = false := by
  simp only [State.closeReturned, Bool.and_eq_true, Bool.or_eq_true, decide_eq_true_eq,
    Option.isNone_iff_eq_none] at hreturned
  have hws : s.hub.ws = none := by
    rcases hreturned.2 with hdone | hnone
    · exact h.left (.inr hdone)
    · rw [h.wired.ws_eq, h.wired.idle hnone]
      rfl
  have hconnected : s.hub.connected = false := by
    rw [h.wired.connected_eq]
    have heq := h.wired.ws_eq
    rw [hws] at heq
    cases hhead : s.hub.runs.head? with
    | none => rfl
    | some phase =>
      rw [hhead] at heq
      cases phase with
      | receiving ws => cases heq
      | _ => rfl
  refine ⟨hws, hconnected, fun w => ?_, fun ka hka => ?_⟩
  · by_contra hup
    have hsome := h.own w (by simpa using hup)
    rw [hws] at hsome
    cases hsome
  · by_contra hlive
    have hsome := (h.keepalives ka hka (by simpa using hlive)).1
    rw [hconnected] at hsome
    cases hsome

/-- A closed hub opens no socket and makes no task. -/
lemma Tidy.closed_step (h : Tidy s) (hclosed : s.closed = true) {keepalive : Bool} {e : Event τ}
    (hstep : HubClose.step P keepalive s e = some s') :
    s'.closed = true ∧ s'.hub.sockets.length = s.hub.sockets.length ∧
      s'.hub.runs.length = s.hub.runs.length := by
  rcases step_cases hstep with ⟨topic, -, rfl⟩ | ⟨e', hub, -, hsubscribe, hfate, hhub, rfl⟩ |
    ⟨-, rfl⟩ | ⟨phase, -, -, -, rfl⟩ | ⟨-, -, rfl⟩ | ⟨j, ka, -, -, -, rfl⟩
  · rw [State.subscribe, if_pos hclosed]
    exact ⟨hclosed, rfl, rfl⟩
  · cases hrun : ofRun e' with
    | false =>
      have hlink := keepsLink_of_step hrun hsubscribe hhub
      exact ⟨hclosed, hlink.length, by rw [hlink.runs]⟩
    | true =>
      -- a stretch of a task that was not cancelled, of which a closed hub has none
      have hruns := h.wired.idle (h.idle hclosed (hfate hrun))
      cases e' with
      | connect k => simpa [hruns] using (StreamHub.step_connect hhub).1
      | connectFails k => simpa [hruns] using (StreamHub.step_connectFails hhub).1
      | resubscribed k => simpa [hruns] using (StreamHub.step_resubscribed hhub)
      | disconnected k => simpa [hruns] using (StreamHub.step_disconnected hhub)
      | retry k => simpa [hruns] using (StreamHub.step_retry hhub).1
      | _ => cases hrun
  · rw [State.close, if_pos hclosed]
    exact ⟨hclosed, rfl, rfl⟩
  · have hleave : ∀ ws, (s.leave ws).closed = true ∧
        (s.leave ws).hub.sockets.length = s.hub.sockets.length ∧
        (s.leave ws).hub.runs.length = s.hub.runs.length := fun ws =>
      ⟨hclosed, List.length_set .., List.length_set ..⟩
    cases phase with
    | connecting => exact ⟨hclosed, rfl, rfl⟩
    | resubscribing job => exact hleave job.ws
    | receiving ws => exact hleave ws
    | closing => exact ⟨hclosed, rfl, rfl⟩
  · exact ⟨hclosed, rfl, rfl⟩
  · unfold State.ping
    split
    · exact ⟨hclosed, rfl, rfl⟩
    · exact ⟨hclosed, rfl, rfl⟩

/-- Once `close` has returned, a step sends neither a frame nor a ping. -/
lemma Tidy.silent_step (h : Tidy s) (hreturned : s.closeReturned = true) {keepalive : Bool}
    {e : Event τ} (hstep : HubClose.step P keepalive s e = some s') :
    s'.closeReturned = true ∧ s'.hub.wire = s.hub.wire ∧ s'.pings = s.pings := by
  obtain ⟨-, -, hdown, hstopped⟩ := h.at_rest hreturned
  have hclosed : s.closed = true := (Bool.and_eq_true_iff.mp hreturned).1
  have hfate : s.fate = .done ∨ s.hub.task = none := by
    simpa [State.closeReturned, hclosed] using hreturned
  rcases step_cases hstep with ⟨topic, -, rfl⟩ | ⟨e', hub, -, hsubscribe, hrunning, hhub, rfl⟩ |
    ⟨-, rfl⟩ | ⟨phase, -, hcancelled, hphase, rfl⟩ | ⟨-, hleaving, rfl⟩ |
    ⟨j, ka, -, hmem, hlive, rfl⟩
  · rw [State.subscribe, if_pos hclosed]
    exact ⟨hreturned, rfl, rfl⟩
  · obtain ⟨htask, -⟩ := runs_of_step hsubscribe hhub
    have hreturned' : State.closeReturned
        { s with hub := hub, keepalives := s.keepalivesAfter keepalive hub } = true := by
      rw [← hreturned, State.closeReturned, State.closeReturned, htask]
    cases hrun : ofRun e' with
    | false =>
      exact ⟨hreturned', (keepsLink_of_step hrun hsubscribe hhub).wire_eq hdown, rfl⟩
    | true =>
      have hruns := h.wired.idle (h.idle hclosed (hrunning hrun))
      cases e' with
      | connect k => simpa [hruns] using (StreamHub.step_connect hhub).1
      | connectFails k => simpa [hruns] using (StreamHub.step_connectFails hhub).1
      | resubscribed k => simpa [hruns] using (StreamHub.step_resubscribed hhub)
      | disconnected k => simpa [hruns] using (StreamHub.step_disconnected hhub)
      | retry k => simpa [hruns] using (StreamHub.step_retry hhub).1
      | _ => cases hrun
  · rw [State.close, if_pos hclosed]
    exact ⟨hreturned, rfl, rfl⟩
  · -- the task has ended, or there never was one
    rcases hfate with hdone | hnone
    · rw [hdone] at hcancelled
      cases hcancelled
    · exact absurd hnone (h.cancelledTask (by simp [hcancelled]))
  · rcases hfate with hdone | hnone
    · rw [hdone] at hleaving
      cases hleaving
    · exact absurd hnone (h.cancelledTask (by simp [hleaving]))
  · rw [hstopped ka hmem] at hlive
    cases hlive

/-- `close` returns within two stretches of the task it cancelled. -/
lemma Tidy.close_returns (P : Payloads τ) (keepalive : Bool) (h : Tidy s)
    (hclosed : s.closed = true) :
    ∃ es', es'.length ≤ 2 ∧ (∀ e ∈ es', e = .cancelled ∨ e = .left) ∧
      ∃ s', run (HubClose.step P keepalive) s es' = some s' ∧ s'.closeReturned = true := by
  have hdone : ∀ t : State τ, t.closed = true → t.fate = .done → t.closeReturned = true := by
    intro t hclosed hdone
    simp [State.closeReturned, hclosed, hdone]
  have hleft : ∀ t : State τ, t.fate = .leaving →
      HubClose.step P keepalive t .left = some { t with fate := .done } := by
    intro t hleaving
    simp only [HubClose.step, if_pos hleaving]
  cases hfate : s.fate with
  | running =>
    refine ⟨[], by simp, by simp, s, rfl, ?_⟩
    simp [State.closeReturned, hclosed, h.idle hclosed hfate]
  | cancelled =>
    obtain ⟨phase, hphase⟩ := Option.ne_none_iff_exists'.mp
      (mt List.head?_eq_none_iff.mp (h.tasked (h.cancelledTask (by simp [hfate]))))
    have hstep : HubClose.step P keepalive s .cancelled = some (s.cancelled phase) := by
      simp only [HubClose.step, if_pos hfate, hphase, Option.map_some]
    have hends : (s.cancelled phase).closed = true ∧
        ((s.cancelled phase).fate = .done ∨ (s.cancelled phase).fate = .leaving) := by
      cases phase with
      | connecting => exact ⟨hclosed, .inl rfl⟩
      | resubscribing job => exact ⟨hclosed, .inr rfl⟩
      | receiving ws => exact ⟨hclosed, .inr rfl⟩
      | closing => exact ⟨hclosed, .inl rfl⟩
    rcases hends.2 with hend | hleaving
    · exact ⟨[.cancelled], by simp, by simp, _, run_cons.mpr ⟨_, hstep, rfl⟩,
        hdone _ hends.1 hend⟩
    · exact ⟨[.cancelled, .left], by simp, by simp, _,
        run_cons.mpr ⟨_, hstep, run_cons.mpr ⟨_, hleft _ hleaving, rfl⟩⟩, hdone _ hends.1 rfl⟩
  | leaving =>
    exact ⟨[.left], by simp, by simp, _, run_cons.mpr ⟨_, hleft s hfate, rfl⟩,
      hdone _ hclosed rfl⟩
  | done => exact ⟨[], by simp, by simp, s, rfl, hdone s hclosed hfate⟩

/-! ## Runs -/

/-- Every reachable hub is tidy. -/
theorem tidy_of_run {keepalive : Bool} {es : List (Event τ)}
    (hrun : run (HubClose.step P keepalive) {} es = some s) : Tidy s :=
  invariant_of_run (fun _ _ _ h hstep => h.step hstep) tidy_init hrun

/-- Until it is closed the hub is one of `StreamHub.lean`. -/
lemma base_run {keepalive : Bool} {es : List (Event τ)}
    (hrun : run (HubClose.step P keepalive) {} es = some s) (hopen : s.closed = false) :
    ∃ es', run (StreamHub.step P) {} es' = some s.hub := by
  have hinv : Tidy s ∧ (s.closed = false → ∃ es', run (StreamHub.step P) {} es' = some s.hub) := by
    have hkeeps : ∀ (t : State τ) e t',
        Tidy t ∧ (t.closed = false → ∃ es', run (StreamHub.step P) {} es' = some t.hub) →
        HubClose.step P keepalive t e = some t' →
        Tidy t' ∧ (t'.closed = false → ∃ es', run (StreamHub.step P) {} es' = some t'.hub) := by
      rintro t e t' ⟨ht, hbase⟩ hstep
      refine ⟨ht.step hstep, ?_⟩
      rcases step_cases hstep with ⟨topic, -, rfl⟩ | ⟨e', hub, -, -, -, hhub, rfl⟩ |
        ⟨-, rfl⟩ | ⟨phase, -, hcancelled, -, rfl⟩ | ⟨-, hleaving, rfl⟩ | ⟨j, ka, -, -, -, rfl⟩
      · unfold State.subscribe
        split
        · next hclosed => exact fun hopen => absurd (hclosed.symm.trans hopen) (by simp)
        · intro hopen
          obtain ⟨es', hes'⟩ := hbase hopen
          exact ⟨es' ++ [.subscribe topic], run_concat hes' rfl⟩
      · intro hopen
        obtain ⟨es', hes'⟩ := hbase hopen
        exact ⟨es' ++ [e'], run_concat hes' hhub⟩
      · unfold State.close
        split
        · exact hbase
        · exact fun hopen => by cases hopen
      · -- only `close` cancels the task
        intro hopen
        have hopen' : t.closed = false := by
          cases phase <;> exact hopen
        rw [ht.running hopen'] at hcancelled
        cases hcancelled
      · intro hopen
        rw [ht.running hopen] at hleaving
        cases hleaving
      · unfold State.ping
        split
        · exact hbase
        · exact hbase
    exact invariant_of_run hkeeps ⟨tidy_init, fun _ => ⟨[], rfl⟩⟩ hrun
  exact hinv.2 hopen

/-- In every run of a hub with `close`: before it the hub is that of `StreamHub.lean`, and each
keepalive loop that goes on is on its connection; from then on no socket is opened and no task
made, and the cancelled task ends within two stretches; and once `close` has returned the hub has
no socket, none is up, no loop goes on, and nothing is sent any more, in whatever comes. -/
theorem closed_hub_stays_silent (P : Payloads τ) (keepalive : Bool) {es : List (Event τ)}
    (hrun : run (HubClose.step P keepalive) {} es = some s) :
    (s.closed = false → ∃ es', run (StreamHub.step P) {} es' = some s.hub) ∧
    (∀ ka ∈ s.keepalives, ka.live = true →
      s.hub.connected = true ∧ s.hub.ws = some ka.ws) ∧
    (s.closed = true →
      (∃ es', es'.length ≤ 2 ∧ (∀ e ∈ es', e = .cancelled ∨ e = .left) ∧
        ∃ s', run (HubClose.step P keepalive) s es' = some s' ∧ s'.closeReturned = true) ∧
      ∀ es' s', run (HubClose.step P keepalive) s es' = some s' →
        s'.hub.sockets.length = s.hub.sockets.length ∧
        s'.hub.runs.length = s.hub.runs.length) ∧
    (s.closeReturned = true →
      s.hub.ws = none ∧ (∀ w, s.hub.isUp w = false) ∧ (∀ ka ∈ s.keepalives, ka.live = false) ∧
      ∀ es' s', run (HubClose.step P keepalive) s es' = some s' →
        s'.closeReturned = true ∧ s'.hub.wire = s.hub.wire ∧ s'.pings = s.pings) := by
  have h : Tidy s := tidy_of_run hrun
  refine ⟨base_run hrun, h.keepalives, fun hclosed => ⟨h.close_returns P keepalive hclosed, ?_⟩,
    fun hreturned => ?_⟩
  · intro es' s' hrun'
    have hkeeps : ∀ t e t', Tidy t ∧ t.closed = true ∧
        t.hub.sockets.length = s.hub.sockets.length ∧ t.hub.runs.length = s.hub.runs.length →
        HubClose.step P keepalive t e = some t' → Tidy t' ∧ t'.closed = true ∧
          t'.hub.sockets.length = s.hub.sockets.length ∧
          t'.hub.runs.length = s.hub.runs.length := by
      rintro t e t' ⟨ht, htclosed, hsockets, hruns⟩ hstep
      obtain ⟨hclosed', hsockets', hruns'⟩ := ht.closed_step htclosed hstep
      exact ⟨ht.step hstep, hclosed', hsockets'.trans hsockets, hruns'.trans hruns⟩
    exact (invariant_of_run hkeeps ⟨h, hclosed, rfl, rfl⟩ hrun').2.2
  · obtain ⟨hws, -, hdown, hstopped⟩ := h.at_rest hreturned
    refine ⟨hws, hdown, hstopped, fun es' s' hrun' => ?_⟩
    have hkeeps : ∀ t e t', Tidy t ∧ t.closeReturned = true ∧ t.hub.wire = s.hub.wire ∧
        t.pings = s.pings → HubClose.step P keepalive t e = some t' →
        Tidy t' ∧ t'.closeReturned = true ∧ t'.hub.wire = s.hub.wire ∧ t'.pings = s.pings := by
      rintro t e t' ⟨ht, htreturned, hwire, hpings⟩ hstep
      obtain ⟨hreturned', hwire', hpings'⟩ := ht.silent_step htreturned hstep
      exact ⟨ht.step hstep, hreturned', hwire'.trans hwire, hpings'.trans hpings⟩
    exact (invariant_of_run hkeeps ⟨h, hreturned, rfl, rfl⟩ hrun').2

/-- A hub with a consumer and a keepalive loop is closed while it receives. -/
def closedWhileReceiving : List (Event String) :=
  [.base (.subscribe "a"), .base (.connect 0), .base (.resubscribed 0), .ping 0, .close,
    .cancelled, .left]

/-- What comes after changes nothing on the wire. -/
theorem closed_hub_stays_silent_sample :
    ∃ s, run (HubClose.step (.batched String) true) {} closedWhileReceiving = some s ∧
      s.hub.wire = [(0, .subscribe ["a"])] ∧ s.pings = [0] ∧
      ∀ es' s', run (HubClose.step (.batched String) true) s es' = some s' →
        s'.closeReturned = true ∧ s'.hub.wire = s.hub.wire ∧ s'.pings = s.pings := by
  have hrun : ∃ s, run (HubClose.step (.batched String) true) {} closedWhileReceiving = some s ∧
      s.hub.wire = [(0, .subscribe ["a"])] ∧ s.pings = [0] ∧ s.closeReturned = true :=
    ⟨_, rfl, rfl, rfl, rfl⟩
  obtain ⟨s, hrun, hwire, hpings, hreturned⟩ := hrun
  exact ⟨s, hrun, hwire, hpings,
    ((closed_hub_stays_silent (.batched String) true hrun).2.2.2 hreturned).2.2.2⟩

end

end HubClose
end ExchangeRouter
