import ExchangeRouter.StreamHubTable
import ExchangeRouter.StreamHubTheorems

/-!
# The SUBSCRIBE that a consumer waits for

A consumer gets a snapshot of a topic as the answer to a SUBSCRIBE that goes out after it registered
its queue. The call that opens a topic has one when it returns on a connected hub, and one that
joins a topic has none: it gets one with the next connection. `overlooks` names the steps that leave
a consumer without one while the hub has a socket.
-/

namespace ExchangeRouter
namespace StreamHub

open Transition

variable {τ : Type*} [DecidableEq τ]

/-- The steps that leave a consumer without a SUBSCRIBE on the live socket. It joins a topic whose
SUBSCRIBE has gone out, or will by a call that was there before, or times out before its own has. -/
def State.overlooks (s : State τ) : Event τ → Bool
  | .subscribe topic =>
    s.isLive && (s.queues.lookup topic).isSome && decide (topic ∉ s.remaining)
  | .timeout i =>
    s.isLive && s.calls[i]?.any fun call =>
      decide (call.topic ∉ s.subscribedTopics ∧ call.topic ∉ s.remaining)
  | _ => false

/-- On a live socket, a call in one of the phases `W` whose queue is in the table has had a
SUBSCRIBE since it registered, or gets one from the resubscription, or waits to send it. -/
def Answered (W : Phase τ → Bool) (s : State τ) : Prop :=
  ∀ ws, s.Live ws → ∀ (i : ℕ) (call : Call τ), s.calls[i]? = some call →
    i ∈ s.queuesOf call.topic → W call.phase = true →
      call.topic ∈ s.remaining ∨ SubscribedSince s.wire ws call.registeredAt call.topic ∨
        call.topic ∉ s.subscribedTopics ∧ call.phase.isWaiting = true

/-! ## The log and the marks of the calls -/

/-- Frames that went out stay in the log. -/
lemma length_wire_le_of_step {P : Payloads τ} {s s' : State τ} {e : Event τ}
    (hstep : step P s e = some s') : s.wire.length ≤ s'.wire.length := by
  have hsent : ∀ {wire : List (ℕ × Frame τ)}, (∃ new, wire = s.wire ++ new ∧
      ∀ entry ∈ new, s.isUp entry.1 = true) → s.wire.length ≤ wire.length := by
    rintro wire ⟨new, rfl, -⟩
    simp
  cases e with
  | subscribe topic =>
    obtain rfl := Option.some.inj hstep
    exact le_rfl
  | proceed i =>
    obtain ⟨call, -, -, rfl⟩ := step_proceed hstep
    unfold State.proceed
    split
    · exact le_rfl
    · exact hsent (sendPayloads_wire s .subscribe (P.subscribe [call.topic]))
  | timeout i =>
    obtain ⟨call, -, -, rfl⟩ := step_timeout hstep
    exact le_rfl
  | sent i =>
    obtain ⟨call, job, -, -, rfl⟩ := step_sent hstep
    exact hsent (sendNext_wire s job.ws .subscribe job.rest)
  | unsubscribe topic q =>
    obtain ⟨call, -, -, rfl⟩ := step_unsubscribe hstep
    unfold State.unsubscribe
    split
    · exact le_rfl
    · exact (unsubscribe_sends P s topic).1
  | unsubscribeSent j =>
    obtain ⟨job, -, rfl⟩ := step_unsubscribeSent hstep
    exact hsent (sendNext_wire s job.ws .unsubscribe job.rest)
  | connect k =>
    obtain ⟨-, rfl⟩ := step_connect hstep
    obtain ⟨payloads, -, heq⟩ := connect_eq P s k
    obtain ⟨new, hwire, -⟩ := sendNext_wire s.opened s.sockets.length .subscribe payloads
    rw [heq, wire_afterResubscribe, hwire, List.length_append]
    exact Nat.le_add_right _ _
  | connectFails k =>
    obtain ⟨-, rfl⟩ := step_connectFails hstep
    exact le_rfl
  | resubscribed k =>
    obtain ⟨job, -, rfl⟩ := step_resubscribed hstep
    rw [State.resubscribed, wire_afterResubscribe]
    exact hsent (sendNext_wire s job.ws .subscribe job.rest)
  | disconnected k =>
    obtain ⟨ws, -, rfl⟩ := step_disconnected hstep
    exact le_rfl
  | retry k =>
    obtain ⟨-, rfl⟩ := step_retry hstep
    exact le_rfl
  | drop ws =>
    obtain rfl := Option.some.inj hstep
    exact le_rfl

omit [DecidableEq τ] in
/-- The resubscription wakes calls at most. -/
lemma marks_afterResubscribe (s : State τ) (k ws : ℕ) (out : Option (Sending τ)) :
    (s.afterResubscribe k ws out).calls.map Call.registeredAt =
      s.calls.map Call.registeredAt := by
  cases out with
  | some job => rfl
  | none =>
    show (s.calls.map Call.wake).map Call.registeredAt = _
    rw [List.map_map]
    exact List.map_congr_left fun call _ => (wake_eq call).2.2.1

omit [DecidableEq τ] in
/-- A call that moves on keeps its mark. -/
lemma marks_setPhase {s : State τ} {i : ℕ} {call : Call τ} (hcall : s.calls[i]? = some call)
    (phase : Phase τ) :
    (s.setPhase i call phase).calls.map Call.registeredAt = s.calls.map Call.registeredAt := by
  obtain ⟨hlt, rfl⟩ := List.getElem?_eq_some_iff.mp hcall
  have hlt' : i < (s.calls.map Call.registeredAt).length := by simpa
  have hmark : s.calls[i].registeredAt = (s.calls.map Call.registeredAt)[i] := by simp
  rw [State.setPhase, List.map_set, hmark, List.set_getElem_self]

/-- Only a `subscribe` makes a mark, which says how many frames had been sent. -/
lemma marks_of_step {P : Payloads τ} {s s' : State τ} {e : Event τ}
    (hne : ∀ topic, e ≠ .subscribe topic) (hstep : step P s e = some s') :
    s'.calls.map Call.registeredAt = s.calls.map Call.registeredAt := by
  cases e with
  | subscribe topic => exact absurd rfl (hne topic)
  | proceed i =>
    obtain ⟨call, hcall, -, rfl⟩ := step_proceed hstep
    unfold State.proceed
    split <;> exact marks_setPhase hcall _
  | timeout i =>
    obtain ⟨call, hcall, -, rfl⟩ := step_timeout hstep
    exact marks_setPhase hcall _
  | sent i =>
    obtain ⟨call, job, hcall, -, rfl⟩ := step_sent hstep
    exact marks_setPhase hcall _
  | unsubscribe topic q =>
    obtain ⟨call, -, -, rfl⟩ := step_unsubscribe hstep
    rw [calls_unsubscribe]
  | unsubscribeSent j =>
    obtain ⟨job, -, rfl⟩ := step_unsubscribeSent hstep
    rfl
  | connect k =>
    obtain ⟨-, rfl⟩ := step_connect hstep
    obtain ⟨payloads, -, heq⟩ := connect_eq P s k
    rw [heq, marks_afterResubscribe]
    rfl
  | connectFails k =>
    obtain ⟨-, rfl⟩ := step_connectFails hstep
    rfl
  | resubscribed k =>
    obtain ⟨job, -, rfl⟩ := step_resubscribed hstep
    rw [State.resubscribed, marks_afterResubscribe]
  | disconnected k =>
    obtain ⟨ws, -, rfl⟩ := step_disconnected hstep
    rfl
  | retry k =>
    obtain ⟨-, rfl⟩ := step_retry hstep
    rfl
  | drop ws =>
    obtain rfl := Option.some.inj hstep
    rfl

/-! ## What every step keeps -/

section

variable {W : Phase τ → Bool}

/-- A call that opens a topic is to send its SUBSCRIBE. -/
lemma Answered.subscribe {s : State τ} (h : Answered W s) (hwired : Wired s) (hheld : Held s)
    {topic : τ} (hnot : W = Phase.inFlight ∨ s.overlooks (.subscribe topic) = false) :
    Answered W (s.subscribe topic) := by
  intro ws hlive i call hcall hmem hphase
  have hlive : s.Live ws := hlive
  rw [hwired.remaining_subscribe hlive]
  rcases mem_calls_subscribe hcall with hold | ⟨-, htopic, -, hnew⟩
  · have hlt : i < s.calls.length := (List.getElem?_eq_some_iff.mp hold).1
    refine h ws hlive i call hold ?_ hphase
    rw [queuesOf_subscribe] at hmem
    split at hmem
    · next heq =>
      rw [heq]
      refine (List.mem_append.mp hmem).resolve_right fun hlast => ?_
      exact hlt.ne (List.mem_singleton.mp hlast)
    · exact hmem
  · rcases hnew with ⟨hheldTopic, -, hreturned⟩ | ⟨habsent, -, hwaits⟩
    · rcases hnot with rfl | hnot
      · simp [hreturned, Phase.inFlight] at hphase
      · left
        rw [htopic]
        simpa [State.overlooks, hlive.isLive, AList.lookup_isSome, hheldTopic] using hnot
    · refine Or.inr (Or.inr ⟨?_, by rw [hwaits]; rfl⟩)
      rw [htopic]
      exact fun hmem => habsent (hheld.subscribed topic hmem)

/-- A call that moves on is to be answered in its new phase. -/
lemma Answered.setPhase {s : State τ} (h : Answered W s) {i : ℕ} {call : Call τ} {phase : Phase τ}
    (hcall : s.calls[i]? = some call)
    (hown : ∀ ws, s.Live ws → i ∈ s.queuesOf call.topic → W phase = true →
      call.topic ∈ s.remaining ∨ SubscribedSince s.wire ws call.registeredAt call.topic ∨
        call.topic ∉ s.subscribedTopics ∧ phase.isWaiting = true) :
    Answered W (s.setPhase i call phase) := by
  intro ws hlive j other hother hmem hphase
  rcases mem_calls_setPhase hcall hother with hold | ⟨rfl, rfl⟩
  · exact h ws hlive j other hold hmem hphase
  · exact hown ws hlive hmem hphase

/-- A call past the wait sends the SUBSCRIBE of its topic, for any call on it. -/
lemma Answered.proceed {P : Payloads τ} {s : State τ} (h : Answered W s)
    (hflight : ∀ phase, phase.inFlight = true → W phase = true) (hheld : Held s) {i : ℕ}
    {call : Call τ} (hcall : s.calls[i]? = some call) (hwaiting : call.phase = .waiting true) :
    Answered W (s.proceed P i call) := by
  unfold State.proceed
  split
  · next hsubscribed =>
    refine h.setPhase hcall fun ws hlive hmem _ => ?_
    have hphase : W call.phase = true := hflight _ (by rw [hwaiting]; rfl)
    rcases h ws hlive i call hcall hmem hphase with hremaining | hsince | ⟨habsent, -⟩
    · exact Or.inl hremaining
    · exact Or.inr (Or.inl hsince)
    · exact absurd hsubscribed habsent
  · have hsince : ∀ ws, s.Live ws → ∀ (j : ℕ) (other : Call τ), s.calls[j]? = some other →
        other.topic = call.topic →
          SubscribedSince (s.sendPayloads .subscribe (P.subscribe [call.topic])).1 ws
            other.registeredAt other.topic := by
      intro ws hlive j other hother htopic
      rw [P.subscribe_one, sendPayloads_live hlive]
      exact subscribedSince_last (hheld.calls j other hother).marked (by simp [htopic])
    have hsent : Answered W
        { s with
          subscribedTopics := insert call.topic s.subscribedTopics
          wire := (s.sendPayloads .subscribe (P.subscribe [call.topic])).1 } := by
      intro ws hlive j other hother hmem hphase
      have hlive : s.Live ws := hlive
      by_cases htopic : other.topic = call.topic
      · exact Or.inr (Or.inl (hsince ws hlive j other hother htopic))
      · rcases h ws hlive j other hother hmem hphase with hremaining | hold | ⟨habsent, hwaits⟩
        · exact Or.inl hremaining
        · obtain ⟨new, hwire, -⟩ := sendPayloads_wire s .subscribe (P.subscribe [call.topic])
          refine Or.inr (Or.inl ?_)
          dsimp only
          rw [hwire]
          exact hold.append
        · refine Or.inr (Or.inr ⟨fun hinsert => ?_, hwaits⟩)
          exact (Finset.mem_insert.mp hinsert).elim htopic habsent
    refine hsent.setPhase hcall fun ws hlive _ _ => Or.inr (Or.inl ?_)
    exact hsince ws hlive i call hcall rfl

/-- A call that times out on a live socket has had a SUBSCRIBE of its topic, or gets one. -/
lemma Answered.timeout {s : State τ} (h : Answered W s)
    (hflight : ∀ phase, phase.inFlight = true → W phase = true) {i : ℕ} {call : Call τ}
    (hcall : s.calls[i]? = some call) (hwaiting : call.phase.isWaiting = true)
    (hnot : W = Phase.inFlight ∨ s.overlooks (.timeout i) = false) :
    Answered W (s.setPhase i call .timedOut) := by
  refine h.setPhase hcall fun ws hlive hmem htimedOut => ?_
  rcases hnot with rfl | hnot
  · simp [Phase.inFlight] at htimedOut
  · have hphase : W call.phase = true := hflight _ (Phase.inFlight_of_isWaiting hwaiting)
    rcases h ws hlive i call hcall hmem hphase with hremaining | hsince | ⟨habsent, -⟩
    · exact Or.inl hremaining
    · exact Or.inr (Or.inl hsince)
    · left
      simpa [State.overlooks, hlive.isLive, hcall, habsent] using hnot

/-- A call that has sent its SUBSCRIBE returns. -/
lemma Answered.returns {s : State τ} (h : Answered W s)
    (hflight : ∀ phase, phase.inFlight = true → W phase = true) {i : ℕ} {call : Call τ}
    {job : Sending τ} (hcall : s.calls[i]? = some call) (hsending : call.phase = .sending job) :
    Answered W (s.setPhase i call .returned) := by
  refine h.setPhase hcall fun ws hlive hmem _ => ?_
  have hphase : W call.phase = true := hflight _ (by rw [hsending]; rfl)
  rcases h ws hlive i call hcall hmem hphase with hremaining | hsince | ⟨-, hwaits⟩
  · exact Or.inl hremaining
  · exact Or.inr (Or.inl hsince)
  · simp [hsending, Phase.isWaiting] at hwaits

/-- An `unsubscribe` takes queues out of the table, and an UNSUBSCRIBE is no SUBSCRIBE. -/
lemma Answered.unsubscribe {P : Payloads τ} {s : State τ} (h : Answered W s) (topic : τ) (q : ℕ) :
    Answered W (s.unsubscribe P topic q) := by
  intro ws hlive i call hcall hmem hphase
  have hold : i ∈ s.queuesOf call.topic := by
    rw [queuesOf_unsubscribe] at hmem
    split at hmem
    · next htopic =>
      rw [htopic]
      exact (List.mem_filter.mp hmem).1
    · exact hmem
  rw [calls_unsubscribe] at hcall
  unfold State.unsubscribe at hlive ⊢
  split at hlive
  · next hothers =>
    rw [if_pos hothers]
    exact h ws hlive i call hcall hold hphase
  · next hnone =>
    rw [if_neg hnone]
    rcases h ws hlive i call hcall hold hphase with hremaining | hsince | ⟨habsent, hwaits⟩
    · exact Or.inl hremaining
    · refine Or.inr (Or.inl ?_)
      show SubscribedSince (if s.connected = true then _ else _ : List (ℕ × Frame τ) × _).1 _ _ _
      split
      · obtain ⟨new, hwire, -⟩ := sendPayloads_wire s .unsubscribe (P.unsubscribe [topic])
        rw [hwire]
        exact hsince.append
      · exact hsince
    · exact Or.inr (Or.inr ⟨fun hin => habsent (Finset.mem_of_mem_erase hin), hwaits⟩)

/-- The resubscription goes on, or wakes the calls that wait. -/
lemma Answered.afterResubscribe {s : State τ} {phase : RunPhase τ} {ws' : ℕ}
    {out : Option (Sending τ)} (hflight : ∀ phase, phase.inFlight = true → W phase = true)
    (hruns : s.runs = [phase])
    (h : ∀ ws, s.Live ws → ∀ (i : ℕ) (call : Call τ), s.calls[i]? = some call →
      i ∈ s.queuesOf call.topic → W call.phase = true →
        call.topic ∈ StreamHub.remaining out ∨
          SubscribedSince s.wire ws call.registeredAt call.topic ∨
            call.topic ∉ s.subscribedTopics ∧ call.phase.isWaiting = true) :
    Answered W (s.afterResubscribe 0 ws' out) := by
  intro ws hlive i call hcall hmem hphase
  have hlive := live_afterResubscribe.mp hlive
  rw [remaining_afterResubscribe hruns]
  cases out with
  | some job => exact h ws hlive i call hcall hmem hphase
  | none =>
    have hmap : (s.calls.map Call.wake)[i]? = some call := hcall
    rw [List.getElem?_map, Option.map_eq_some_iff] at hmap
    obtain ⟨old, hold, rfl⟩ := hmap
    obtain ⟨htopic, -, hmark, hwaiting, hsame⟩ := wake_eq old
    have hphase' : W old.phase = true := by
      by_cases hwaits : old.phase.isWaiting = true
      · exact hflight _ (Phase.inFlight_of_isWaiting hwaits)
      · rwa [hsame (Bool.eq_false_iff.mpr hwaits)] at hphase
    rw [htopic] at hmem
    rw [htopic, hmark, hwaiting]
    exact h ws hlive i old hold hmem hphase'

/-- A new socket is sent all topics of the table. -/
lemma Answered.connect {P : Payloads τ} {s : State τ}
    (hflight : ∀ phase, phase.inFlight = true → W phase = true) (hwired : Wired s)
    (hheld : Held s) {k : ℕ} (hk : s.runs[k]? = some .connecting) : Answered W (s.connect P k) := by
  obtain ⟨rfl, hruns, -⟩ := hwired.fields hk
  obtain ⟨payloads, hpayloads, heq⟩ := connect_eq P s 0
  rw [heq]
  refine .afterResubscribe hflight hruns fun ws hlive i call hcall hmem _ => ?_
  obtain rfl : s.sockets.length = ws := Option.some.inj hlive.1
  rw [← or_assoc]
  exact Or.inl (sendNext_subscribedSince (isUp_opened s) (hheld.calls i call hcall).marked
    ((hpayloads call.topic).mpr (mem_queues_of_mem_getD hmem)))

/-- The resubscription sends what it had still to send. -/
lemma Answered.resubscribed {s : State τ} (h : Answered W s)
    (hflight : ∀ phase, phase.inFlight = true → W phase = true) (hwired : Wired s)
    (hheld : Held s) {k : ℕ} {job : Sending τ} (hk : s.runs[k]? = some (.resubscribing job)) :
    Answered W (s.resubscribed k job) := by
  obtain ⟨rfl, hruns, -, hws, -⟩ := hwired.fields hk
  refine .afterResubscribe hflight hruns fun ws hlive i call hcall hmem hphase => ?_
  have hlive : s.Live ws := hlive
  obtain rfl : ws = job.ws := Option.some.inj (hlive.1.symm.trans hws)
  rcases h job.ws hlive i call hcall hmem hphase with hremaining | hsince | hwaits
  · have hrest : call.topic ∈ job.rest.flatten := by
      simpa [State.remaining, hruns, RunPhase.remaining] using hremaining
    rw [← or_assoc]
    exact Or.inl (sendNext_subscribedSince hlive.2 (hheld.calls i call hcall).marked hrest)
  · obtain ⟨new, hwire, -⟩ := sendNext_wire s job.ws .subscribe job.rest
    refine Or.inr (Or.inl ?_)
    show SubscribedSince (s.sendNext job.ws .subscribe job.rest).1 _ _ _
    rw [hwire]
    exact hsince.append
  · exact Or.inr (Or.inr hwaits)

/-- Every step keeps it of the calls in flight, and of all calls where `overlooks` does not name
it. -/
lemma Answered.step {P : Payloads τ} {s s' : State τ} {e : Event τ} (h : Answered W s)
    (hflight : ∀ phase, phase.inFlight = true → W phase = true) (hwired : Wired s)
    (hheld : Held s) (hnot : W = Phase.inFlight ∨ s.overlooks e = false)
    (hstep : StreamHub.step P s e = some s') : Answered W s' := by
  cases e with
  | subscribe topic =>
    obtain rfl := Option.some.inj hstep
    exact h.subscribe hwired hheld hnot
  | proceed i =>
    obtain ⟨call, hcall, hwaiting, rfl⟩ := step_proceed hstep
    exact h.proceed hflight hheld hcall hwaiting
  | timeout i =>
    obtain ⟨call, hcall, hwaiting, rfl⟩ := step_timeout hstep
    exact h.timeout hflight hcall hwaiting hnot
  | sent i =>
    obtain ⟨call, job, hcall, hsending, rfl⟩ := step_sent hstep
    rw [hheld.sent_eq hcall hsending]
    exact h.returns hflight hcall hsending
  | unsubscribe topic q =>
    obtain ⟨holder, -, -, rfl⟩ := step_unsubscribe hstep
    exact h.unsubscribe topic q
  | unsubscribeSent j =>
    obtain ⟨job, hjob, rfl⟩ := step_unsubscribeSent hstep
    rw [hheld.unsubscribeSent_eq hjob]
    exact h
  | connect k =>
    obtain ⟨hk, rfl⟩ := step_connect hstep
    exact .connect hflight hwired hheld hk
  | connectFails k =>
    obtain ⟨hk, rfl⟩ := step_connectFails hstep
    exact fun ws hlive => absurd hlive (hwired.not_live hk rfl)
  | resubscribed k =>
    obtain ⟨job, hk, rfl⟩ := step_resubscribed hstep
    exact h.resubscribed hflight hwired hheld hk
  | disconnected k =>
    obtain ⟨ws, -, rfl⟩ := step_disconnected hstep
    exact fun ws' hlive => absurd hlive (not_live_disconnected s k ws)
  | retry k =>
    obtain ⟨hk, rfl⟩ := step_retry hstep
    exact fun ws hlive => absurd hlive (hwired.not_live hk rfl)
  | drop ws =>
    obtain rfl := Option.some.inj hstep
    exact fun ws' hlive => h ws' (State.Live.of_drop hlive)

/-- A hub that has not run has no socket. -/
lemma answered_init (W : Phase τ → Bool) : Answered W ({} : State τ) :=
  fun _ hlive => absurd hlive.1 (by simp)

end

/-! ## The steps a call returns in -/

/-- A call that ends in a step has its queue in the table after it. -/
lemma Held.mem_of_ends {P : Payloads τ} {s s' : State τ} {e : Event τ} (h : Held s)
    (hstep : StreamHub.step P s e = some s') {i : ℕ} {call : Call τ}
    (hcall : s'.calls[i]? = some call) (hdone : call.phase.inFlight = false)
    (hbefore : ∀ before, s.calls[i]? = some before → before.phase.inFlight = true) :
    i ∈ s'.queuesOf call.topic := by
  have hsame : s.calls[i]? ≠ some call := fun hold => by
    rw [hbefore call hold] at hdone
    exact Bool.noConfusion hdone
  by_cases hown : e.isOwn = true
  · obtain ⟨hqueues, htopics, -⟩ := keepsTable_of_step hown hstep
    have htopic : (s'.calls.map Call.topic)[i]? = some call.topic := by
      rw [List.getElem?_map, hcall]
      rfl
    rw [htopics, List.getElem?_map, Option.map_eq_some_iff] at htopic
    obtain ⟨before, hold, htopic⟩ := htopic
    have hmem := (h.calls i before hold).registered (hbefore before hold)
    rwa [State.queuesOf, hqueues, ← htopic]
  · cases e with
    | subscribe topic =>
      obtain rfl := Option.some.inj hstep
      rcases mem_calls_subscribe hcall with hold | ⟨rfl, htopic, -⟩
      · exact absurd hold hsame
      · rw [queuesOf_subscribe, if_pos htopic]
        exact List.mem_append_right _ (List.mem_singleton_self _)
    | unsubscribe topic q =>
      obtain ⟨holder, -, -, rfl⟩ := step_unsubscribe hstep
      rw [calls_unsubscribe] at hcall
      exact absurd hcall hsame
    | _ => exact absurd rfl hown

omit [DecidableEq τ] in
/-- The resubscription returns no call. -/
lemma returned_afterResubscribe {s : State τ} {k ws i : ℕ} {out : Option (Sending τ)}
    {call : Call τ} (hcall : (s.afterResubscribe k ws out).calls[i]? = some call)
    (hphase : call.phase = .returned) : s.calls[i]? = some call := by
  cases out with
  | some job => exact hcall
  | none =>
    have hmap : (s.calls.map Call.wake)[i]? = some call := hcall
    rw [List.getElem?_map, Option.map_eq_some_iff] at hmap
    obtain ⟨old, hold, rfl⟩ := hmap
    obtain ⟨-, -, -, hwaiting, hsame⟩ := wake_eq old
    rw [hphase] at hwaiting
    rw [hsame hwaiting.symm]
    exact hold

/-- On a connected hub a call has had its SUBSCRIBE, unless it waits to send it. -/
lemma Answered.since {W : Phase τ → Bool} {s : State τ} (h : Answered W s) (hwired : Wired s)
    {i ws : ℕ} {call : Call τ} (hcall : s.calls[i]? = some call)
    (hmem : i ∈ s.queuesOf call.topic) (hphase : W call.phase = true)
    (hnot : call.topic ∈ s.subscribedTopics ∨ call.phase.isWaiting = false) (hlive : s.Live ws)
    (hconnected : s.connected = true) :
    SubscribedSince s.wire ws call.registeredAt call.topic := by
  rcases h ws hlive i call hcall hmem hphase with hremaining | hsince | ⟨habsent, hwaits⟩
  · rw [hwired.remaining_eq_nil hconnected] at hremaining
    exact absurd hremaining List.not_mem_nil
  · exact hsince
  · rcases hnot with hsubscribed | hdone
    · exact absurd hsubscribed habsent
    · rw [hwaits] at hdone
      exact Bool.noConfusion hdone

/-- One that has returned waits for nothing. -/
lemma Answered.since_of_done {W : Phase τ → Bool} {s : State τ} (h : Answered W s)
    (hwired : Wired s) {i ws : ℕ} {call : Call τ} (hcall : s.calls[i]? = some call)
    (hmem : i ∈ s.queuesOf call.topic) (hphase : W call.phase = true)
    (hdone : call.phase.inFlight = false) (hlive : s.Live ws) (hconnected : s.connected = true) :
    SubscribedSince s.wire ws call.registeredAt call.topic := by
  refine h.since hwired hcall hmem hphase (Or.inr ?_) hlive hconnected
  refine Bool.eq_false_iff.mpr fun hwaits => ?_
  rw [Phase.inFlight_of_isWaiting hwaits] at hdone
  exact Bool.noConfusion hdone

/-- A call in flight opened its topic. -/
lemma Held.opens {s : State τ} (h : Held s) {i : ℕ} {call : Call τ}
    (hcall : s.calls[i]? = some call) (hflight : call.phase.inFlight = true) :
    call.isNewTopic = true := by
  by_contra hjoined
  have := (h.calls i call hcall).joined (Bool.eq_false_iff.mpr hjoined)
  simp [this, Phase.inFlight] at hflight

/-- A call that returns as it passes its wait finds its topic taken as subscribed. With a socket,
a call that has to send is at its send. -/
lemma Answered.returned_proceed {P : Payloads τ} {s : State τ} (h : Answered Phase.inFlight s)
    (hwired : Wired s) (hheld : Held s) {i j ws : ℕ} {call old : Call τ} (hold : s.calls[j]? = some old)
    (hwaiting : old.phase = .waiting true) (hcall : (s.proceed P j old).calls[i]? = some call)
    (hphase : call.phase = .returned) (hlive : (s.proceed P j old).Live ws)
    (hconnected : (s.proceed P j old).connected = true) :
    s.calls[i]? = some call ∨ call.isNewTopic = true ∧
      SubscribedSince (s.proceed P j old).wire ws call.registeredAt call.topic := by
  have hflight : old.phase.inFlight = true := by
    rw [hwaiting]
    rfl
  unfold State.proceed at hcall hlive hconnected ⊢
  by_cases hmem : old.topic ∈ s.subscribedTopics
  · rw [if_pos hmem] at hcall hlive hconnected ⊢
    have hopens := hheld.opens hold hflight
    have hsince := h.since hwired hold ((hheld.calls j old hold).registered hflight) hflight
      (Or.inl hmem) hlive hconnected
    refine (mem_calls_setPhase hold hcall).imp_right ?_
    rintro ⟨-, rfl⟩
    exact ⟨hopens, hsince⟩
  · rw [if_neg hmem] at hcall hlive
    have hws : s.ws = some ws := hlive.1
    left
    refine (mem_calls_setPhase hold hcall).resolve_right ?_
    rintro ⟨-, rfl⟩
    simp [State.sendPayloads, hws, P.subscribe_one, State.sendNext, Phase.ofSending] at hphase

/-- A call that returns as its send does has sent its SUBSCRIBE. -/
lemma Answered.returned_sent {s : State τ} (h : Answered Phase.inFlight s) (hwired : Wired s)
    (hheld : Held s) {i j ws : ℕ} {call old : Call τ} {job : Sending τ} (hold : s.calls[j]? = some old)
    (hsending : old.phase = .sending job) (hcall : (s.sent j old job).calls[i]? = some call)
    (hlive : (s.sent j old job).Live ws) (hconnected : (s.sent j old job).connected = true) :
    s.calls[i]? = some call ∨ call.isNewTopic = true ∧
      SubscribedSince (s.sent j old job).wire ws call.registeredAt call.topic := by
  have hflight : old.phase.inFlight = true := by
    rw [hsending]
    rfl
  have hmem := ((hheld.calls j old hold).added job hsending).1
  rw [hheld.sent_eq hold hsending] at hcall hlive hconnected ⊢
  have hopens := hheld.opens hold hflight
  have hsince := h.since hwired hold ((hheld.calls j old hold).registered hflight) hflight
    (Or.inl hmem) hlive hconnected
  refine (mem_calls_setPhase hold hcall).imp_right ?_
  rintro ⟨-, rfl⟩
  exact ⟨hopens, hsince⟩

/-- A call that is there as returned was there before, or joined a topic in this step, or
opened its topic and has had its SUBSCRIBE. -/
lemma Answered.returned {P : Payloads τ} {s s' : State τ} {e : Event τ}
    (h : Answered Phase.inFlight s) (hwired : Wired s) (hheld : Held s) (hstep : StreamHub.step P s e = some s') {i ws : ℕ}
    {call : Call τ} (hcall : s'.calls[i]? = some call) (hphase : call.phase = .returned)
    (hlive : s'.Live ws) (hconnected : s'.connected = true) :
    s.calls[i]? = some call ∨
      call.isNewTopic = false ∧ call.registeredAt = s'.wire.length ∨
      call.isNewTopic = true ∧ SubscribedSince s'.wire ws call.registeredAt call.topic := by
  cases e with
  | subscribe topic =>
    obtain rfl := Option.some.inj hstep
    refine (mem_calls_subscribe hcall).imp_right ?_
    rintro ⟨-, -, hmark, ⟨-, hjoined, -⟩ | ⟨-, -, hwaiting⟩⟩
    · exact Or.inl ⟨hjoined, hmark⟩
    · -- one that opens a topic waits first
      simp [hphase] at hwaiting
  | proceed j =>
    obtain ⟨old, hold, hwaiting, rfl⟩ := step_proceed hstep
    exact (h.returned_proceed hwired hheld hold hwaiting hcall hphase hlive hconnected).imp_right
      Or.inr
  | timeout j =>
    obtain ⟨old, hold, -, rfl⟩ := step_timeout hstep
    refine Or.inl ((mem_calls_setPhase hold hcall).resolve_right ?_)
    rintro ⟨-, rfl⟩
    simp at hphase
  | sent j =>
    obtain ⟨old, job, hold, hsending, rfl⟩ := step_sent hstep
    exact (h.returned_sent hwired hheld hold hsending hcall hlive hconnected).imp_right Or.inr
  | unsubscribe topic q =>
    obtain ⟨holder, -, -, rfl⟩ := step_unsubscribe hstep
    left
    unfold State.unsubscribe at hcall
    split at hcall <;> exact hcall
  | unsubscribeSent j =>
    obtain ⟨job, -, rfl⟩ := step_unsubscribeSent hstep
    exact Or.inl hcall
  | connect k =>
    obtain ⟨-, rfl⟩ := step_connect hstep
    obtain ⟨payloads, -, heq⟩ := connect_eq P s k
    rw [heq] at hcall
    have hopened := returned_afterResubscribe hcall hphase
    exact Or.inl hopened
  | connectFails k =>
    obtain ⟨-, rfl⟩ := step_connectFails hstep
    exact Or.inl hcall
  | resubscribed k =>
    obtain ⟨job, -, rfl⟩ := step_resubscribed hstep
    have hsent := returned_afterResubscribe hcall hphase
    exact Or.inl hsent
  | disconnected k =>
    obtain ⟨ws, -, rfl⟩ := step_disconnected hstep
    exact Or.inl hcall
  | retry k =>
    obtain ⟨-, rfl⟩ := step_retry hstep
    exact Or.inl hcall
  | drop ws =>
    obtain rfl := Option.some.inj hstep
    exact Or.inl hcall

/-- A `subscribe` call that returns on a connected hub has had a SUBSCRIBE for its topic on the
current socket since it registered if and only if it found no queue for the topic. -/
theorem subscribed_since_registration_iff (P : Payloads τ) (es : List (Event τ)) (s : State τ)
    (hrun : run (step P) {} es = some s) (e : Event τ) (s' : State τ)
    (hstep : step P s e = some s') (i : ℕ) (call : Call τ) (hcall : s'.calls[i]? = some call)
    (hreturned : call.phase = .returned)
    (hbefore : ∀ before, s.calls[i]? = some before → before.phase ≠ .returned)
    (ws : ℕ) (hlive : s'.Live ws) (hconnected : s'.connected = true) :
    SubscribedSince s'.wire ws call.registeredAt call.topic ↔ call.isNewTopic = true := by
  have hpres : ∀ s e s', Wired s ∧ Held s ∧ Answered Phase.inFlight s → step P s e = some s' →
      Wired s' ∧ Held s' ∧ Answered Phase.inFlight s' := by
    rintro s e s' ⟨hwired, hheld, hanswered⟩ hstep
    exact ⟨hwired.step hstep, hheld.step hstep,
      hanswered.step (fun _ hphase => hphase) hwired hheld (Or.inl rfl) hstep⟩
  have hinit : Wired ({} : State τ) ∧ Held ({} : State τ) ∧
      Answered Phase.inFlight ({} : State τ) :=
    ⟨wired_init, held_init, answered_init _⟩
  obtain ⟨hwired, hheld, hanswered⟩ := invariant_of_run hpres hinit hrun
  rcases hanswered.returned hwired hheld hstep hcall hreturned hlive hconnected with
    hold | ⟨hjoined, hmark⟩ | ⟨hopened, hsince⟩
  · exact absurd hreturned (hbefore call hold)
  · rw [hmark, hjoined]
    simp [not_subscribedSince_length]
  · simp [hopened, hsince]

end StreamHub
end ExchangeRouter
