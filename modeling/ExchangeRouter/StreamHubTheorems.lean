import ExchangeRouter.StreamHubTable

/-!
# The hub's upstream topics

A hub asks for topics of its own table only (`frames_of_step`). While its socket is up,
`_subscribed_topics` is what the socket was sent or is still to be sent, and a topic of the table
that is not in it has a call that waits. The steps that are not `missed` keep this, so a hub at
rest has subscribed its topics and no others.
-/

namespace ExchangeRouter
namespace StreamHub

open Transition

variable {τ : Type*}

/-- The topics the resubscription has still to send. -/
def State.remaining (s : State τ) : List τ := s.runs.flatMap RunPhase.remaining

/-- A connected hub has resubscribed. -/
lemma Wired.remaining_eq_nil {s : State τ} (h : Wired s) (hconnected : s.connected = true) :
    s.remaining = [] := by
  rw [h.connected_eq] at hconnected
  have hle := h.runs_le
  unfold State.remaining
  match hruns : s.runs with
  | [] => rfl
  | [phase] =>
    rw [hruns] at hconnected
    cases phase <;> simp_all [RunPhase.isReceiving, RunPhase.remaining]
  | p :: q :: rest =>
    rw [hruns] at hle
    simp at hle

/-- Between two connections the hub has no socket. -/
lemma Wired.not_live {s : State τ} (h : Wired s) {k ws : ℕ} {phase : RunPhase τ}
    (hk : s.runs[k]? = some phase) (hphase : phase.ws = none) : ¬ s.Live ws := by
  intro hlive
  obtain ⟨-, -, -, hws, -⟩ := h.fields hk
  rw [hlive.1, hphase] at hws
  exact Option.some_ne_none ws hws

/-- After a disconnection no socket is live. -/
lemma not_live_disconnected (s : State τ) (k ws : ℕ) {ws' : ℕ} :
    ¬ (s.disconnected k ws).Live ws' := by
  intro hlive
  have hws : (s.disconnected k ws).ws = none := rfl
  exact Option.some_ne_none ws' (hlive.1.symm.trans hws)

/-- The resubscription's phases differ in neither the socket nor which sockets are up. -/
lemma live_afterResubscribe {s : State τ} {k ws' : ℕ} {out : Option (Sending τ)} {ws : ℕ} :
    (s.afterResubscribe k ws' out).Live ws ↔ s.Live ws := by
  cases out <;> exact Iff.rfl

/-- What is left of the resubscription is what is left to send. -/
lemma remaining_afterResubscribe {s : State τ} {phase : RunPhase τ} (hruns : s.runs = [phase])
    (ws : ℕ) (out : Option (Sending τ)) :
    (s.afterResubscribe 0 ws out).remaining = StreamHub.remaining out := by
  cases out <;>
    simp [State.afterResubscribe, State.setRun, State.remaining, hruns, RunPhase.remaining,
      StreamHub.remaining]

lemma State.Live.isLive {s : State τ} {ws : ℕ} (h : s.Live ws) : s.isLive = true := by
  rw [State.isLive, h.1]
  exact h.2

/-! ## The topics a hub's step asks for -/

/-- The topics that a frame names. -/
def Frame.topics : Frame τ → List τ
  | subscribe topics => topics
  | unsubscribe topics => topics

/-- What a coroutine sends next is its first payload, and what is left are the others. -/
lemma sendNext_topics (s : State τ) (ws : ℕ) (frame : List τ → Frame τ)
    (payloads : List (List τ)) :
    (∃ new, (s.sendNext ws frame payloads).1 = s.wire ++ new ∧
      ∀ entry ∈ new, ∃ topics ∈ payloads, entry.2 = frame topics) ∧
    remaining (s.sendNext ws frame payloads).2 ⊆ payloads.flatten := by
  cases payloads with
  | nil => exact ⟨⟨[], by simp [State.sendNext], by simp⟩, by simp [State.sendNext, remaining]⟩
  | cons topics rest =>
    unfold State.sendNext State.transmit
    by_cases hup : s.isUp ws = true
    · refine ⟨⟨[(ws, frame topics)], by simp [hup], by simp⟩, ?_⟩
      intro t ht
      simp only [remaining, hup, if_true] at ht
      exact List.mem_append_right _ ht
    · exact ⟨⟨[], by simp [hup], by simp⟩, by simp [remaining, hup]⟩

/-- The same of `_send_payloads`, on the hub's socket. -/
lemma sendPayloads_topics (s : State τ) (frame : List τ → Frame τ) (payloads : List (List τ)) :
    ∃ new, (s.sendPayloads frame payloads).1 = s.wire ++ new ∧
      ∀ entry ∈ new, ∃ topics ∈ payloads, entry.2 = frame topics := by
  unfold State.sendPayloads
  split
  · exact ⟨[], by simp, by simp⟩
  · exact (sendNext_topics s _ frame payloads).1

/-- The frames between two logs ask for topics of the payloads only. -/
lemma topics_of_sent {wire wire' : List (ℕ × Frame τ)} {frame : List τ → Frame τ}
    {payloads : List (List τ)} (hframe : ∀ topics, (frame topics).topics = topics)
    (h : ∃ new, wire' = wire ++ new ∧ ∀ entry ∈ new, ∃ topics ∈ payloads, entry.2 = frame topics) :
    ∀ entry ∈ wire'.drop wire.length, ∀ t ∈ entry.2.topics, t ∈ payloads.flatten := by
  obtain ⟨new, rfl, hnew⟩ := h
  intro entry hentry t ht
  rw [List.drop_append_of_le_length (le_refl _), List.drop_length, List.nil_append] at hentry
  obtain ⟨topics, htopics, hsent⟩ := hnew entry hentry
  rw [hsent, hframe] at ht
  exact List.mem_flatten_of_mem htopics ht

/-- Where `_run` goes on changes neither the log nor the table. -/
lemma wire_afterResubscribe (s : State τ) (k ws : ℕ) (out : Option (Sending τ)) :
    (s.afterResubscribe k ws out).wire = s.wire := by
  cases out <;> rfl

lemma queues_afterResubscribe (s : State τ) (k ws : ℕ) (out : Option (Sending τ)) :
    (s.afterResubscribe k ws out).queues = s.queues := by
  cases out <;> rfl

/-- The tasks after one of them went on. -/
lemma mem_remaining_setRun {s : State τ} {k : ℕ} {phase : RunPhase τ} {t : τ}
    (ht : t ∈ (s.setRun k phase).remaining) : t ∈ phase.remaining ∨ t ∈ s.remaining := by
  obtain ⟨other, hmem, hother⟩ := List.mem_flatMap.mp ht
  rcases List.mem_or_eq_of_mem_set hmem with hold | rfl
  · exact Or.inr (List.mem_flatMap.mpr ⟨other, hold, hother⟩)
  · exact Or.inl hother

lemma mem_remaining_afterResubscribe {s : State τ} {k ws : ℕ} {out : Option (Sending τ)} {t : τ}
    (ht : t ∈ (s.afterResubscribe k ws out).remaining) :
    t ∈ StreamHub.remaining out ∨ t ∈ s.remaining := by
  cases out with
  | none =>
    rcases mem_remaining_setRun ht with hnew | hold
    · exact absurd hnew List.not_mem_nil
    · exact Or.inr hold
  | some job => exact mem_remaining_setRun ht

variable [DecidableEq τ]

/-- A call starts no task while there is a socket. -/
lemma Wired.remaining_subscribe {s : State τ} (h : Wired s) {ws : ℕ} (hlive : s.Live ws)
    (topic : τ) : (s.subscribe topic).remaining = s.remaining := by
  cases htask : s.task with
  | none =>
    have hws := h.ws_eq
    rw [h.idle htask, hlive.1] at hws
    simp at hws
  | some n => simp [State.remaining, State.subscribe, State.startRun, htask]

/-- `_run` takes the topics of the table as subscribed. -/
lemma mem_opened {s : State τ} {t : τ} : t ∈ s.opened.subscribedTopics ↔ t ∈ s.queues := by
  rw [AList.mem_keys]
  exact List.mem_toFinset

/-- The topics that may be asked for in a step: in the middle of a resubscription those it has
still to send, in an `unsubscribe` the one it drops, otherwise those of the table. -/
def State.asks (s : State τ) (t : τ) : Event τ → Prop
  | .subscribe _ => False
  | .resubscribed _ => t ∈ s.remaining
  | .unsubscribe topic _ => t = topic
  | _ => t ∈ s.queues

/-- The frames that a step sends name topics it may ask for. -/
lemma frames_of_step {P : Payloads τ} {s s' : State τ} (hheld : Held s) {e : Event τ}
    (hstep : step P s e = some s') :
    ∀ entry ∈ s'.wire.drop s.wire.length, ∀ t ∈ entry.2.topics, s.asks t e := by
  have hkeep : s'.wire = s.wire →
      ∀ entry ∈ s'.wire.drop s.wire.length, ∀ t ∈ entry.2.topics, s.asks t e := by
    intro hwire entry hentry
    rw [hwire, List.drop_length] at hentry
    exact absurd hentry List.not_mem_nil
  cases e with
  | subscribe topic =>
    apply hkeep
    rw [← Option.some.inj hstep]
    rfl
  | proceed i =>
    obtain ⟨call, hcall, hphase, rfl⟩ := step_proceed hstep
    by_cases hmem : call.topic ∈ s.subscribedTopics
    · apply hkeep
      rw [State.proceed, if_pos hmem]
      rfl
    · intro entry hentry t ht
      rw [State.proceed, if_neg hmem] at hentry
      dsimp only [State.setPhase] at hentry
      have hsent := topics_of_sent (fun _ => rfl)
        (sendPayloads_topics s .subscribe (P.subscribe [call.topic])) entry hentry t ht
      rw [P.subscribe_one, List.flatten_singleton, List.mem_singleton] at hsent
      show t ∈ s.queues
      rw [hsent]
      exact hheld.mem_queues hcall (by rw [hphase]; rfl)
  | timeout i =>
    obtain ⟨call, -, -, rfl⟩ := step_timeout hstep
    exact hkeep rfl
  | sent i =>
    obtain ⟨call, job, hcall, hphase, rfl⟩ := step_sent hstep
    apply hkeep
    have hrest := ((hheld.calls i call hcall).added job hphase).2
    simp [State.sent, State.setPhase, hrest, State.sendNext]
  | unsubscribe topic q =>
    obtain ⟨call, -, -, rfl⟩ := step_unsubscribe hstep
    unfold State.unsubscribe
    intro entry hentry t ht
    split at hentry
    · rw [List.drop_length] at hentry
      exact absurd hentry List.not_mem_nil
    · dsimp only at hentry
      split at hentry
      · have hsent := topics_of_sent (fun _ => rfl)
          (sendPayloads_topics s .unsubscribe (P.unsubscribe [topic])) entry hentry t ht
        rw [P.unsubscribe_one, List.flatten_singleton] at hsent
        exact List.mem_singleton.mp hsent
      · rw [List.drop_length] at hentry
        exact absurd hentry List.not_mem_nil
  | unsubscribeSent j =>
    obtain ⟨job, hjob, rfl⟩ := step_unsubscribeSent hstep
    apply hkeep
    have hrest := hheld.unsubs job (List.mem_of_getElem? hjob)
    simp [State.unsubscribeSent, hrest, State.sendNext]
  | connect k =>
    obtain ⟨-, rfl⟩ := step_connect hstep
    obtain ⟨payloads, hpayloads, heq⟩ := connect_eq P s k
    intro entry hentry t ht
    rw [heq, wire_afterResubscribe] at hentry
    have hsent := topics_of_sent (fun _ => rfl)
      (sendNext_topics s.opened s.sockets.length .subscribe payloads).1 entry hentry t ht
    exact (hpayloads t).mp hsent
  | connectFails k =>
    obtain ⟨-, rfl⟩ := step_connectFails hstep
    exact hkeep rfl
  | resubscribed k =>
    obtain ⟨job, hk, rfl⟩ := step_resubscribed hstep
    intro entry hentry t ht
    rw [State.resubscribed, wire_afterResubscribe] at hentry
    have hsent := topics_of_sent (fun _ => rfl)
      (sendNext_topics s job.ws .subscribe job.rest).1 entry hentry t ht
    show t ∈ s.remaining
    exact List.mem_flatMap.mpr ⟨_, List.mem_of_getElem? hk, hsent⟩
  | disconnected k =>
    obtain ⟨ws, -, rfl⟩ := step_disconnected hstep
    exact hkeep rfl
  | retry k =>
    obtain ⟨-, rfl⟩ := step_retry hstep
    exact hkeep rfl
  | drop ws =>
    apply hkeep
    rw [← Option.some.inj hstep]

/-- A topic comes into the table with a `subscribe` only. -/
lemma queues_of_step {P : Payloads τ} {s s' : State τ} {e : Event τ}
    (hstep : step P s e = some s') {t : τ} (ht : t ∈ s'.queues) :
    t ∈ s.queues ∨ e = .subscribe t := by
  cases e with
  | subscribe topic =>
    rw [← Option.some.inj hstep] at ht
    rcases (AList.mem_insert _).mp ht with rfl | hold
    · exact Or.inr rfl
    · exact Or.inl hold
  | proceed i =>
    obtain ⟨call, -, -, rfl⟩ := step_proceed hstep
    left
    unfold State.proceed at ht
    split at ht <;> exact ht
  | timeout i =>
    obtain ⟨call, -, -, rfl⟩ := step_timeout hstep
    exact Or.inl ht
  | sent i =>
    obtain ⟨call, job, -, -, rfl⟩ := step_sent hstep
    exact Or.inl ht
  | unsubscribe topic q =>
    obtain ⟨call, -, -, rfl⟩ := step_unsubscribe hstep
    left
    unfold State.unsubscribe at ht
    split at ht
    · next hne =>
      rcases (AList.mem_insert _).mp ht with rfl | hold
      · rw [← AList.lookup_isSome]
        by_contra hnone
        rw [Option.not_isSome_iff_eq_none] at hnone
        exact hne (by simp [State.others, State.queuesOf, hnone])
      · exact hold
    · exact (AList.mem_erase.mp ht).2
  | unsubscribeSent j =>
    obtain ⟨job, -, rfl⟩ := step_unsubscribeSent hstep
    exact Or.inl ht
  | connect k =>
    obtain ⟨-, rfl⟩ := step_connect hstep
    obtain ⟨payloads, -, heq⟩ := connect_eq P s k
    rw [heq, queues_afterResubscribe] at ht
    exact Or.inl ht
  | connectFails k =>
    obtain ⟨-, rfl⟩ := step_connectFails hstep
    exact Or.inl ht
  | resubscribed k =>
    obtain ⟨job, -, rfl⟩ := step_resubscribed hstep
    rw [State.resubscribed, queues_afterResubscribe] at ht
    exact Or.inl ht
  | disconnected k =>
    obtain ⟨ws, -, rfl⟩ := step_disconnected hstep
    exact Or.inl ht
  | retry k =>
    obtain ⟨-, rfl⟩ := step_retry hstep
    exact Or.inl ht
  | drop ws =>
    rw [← Option.some.inj hstep] at ht
    exact Or.inl ht

/-- What a resubscription has still to send is of the topics the connection found, or was
still to be sent. -/
lemma remaining_of_step {P : Payloads τ} {s s' : State τ} (hwired : Wired s) {e : Event τ}
    (hstep : step P s e = some s') {t : τ} (ht : t ∈ s'.remaining) :
    (∃ k, e = .connect k ∧ t ∈ s.queues) ∨ (∀ k, e ≠ .connect k) ∧ t ∈ s.remaining := by
  have hruns : s'.runs = s.runs → (∀ k, e ≠ .connect k) →
      (∃ k, e = .connect k ∧ t ∈ s.queues) ∨ (∀ k, e ≠ .connect k) ∧ t ∈ s.remaining := by
    intro hruns hne
    rw [State.remaining, hruns] at ht
    exact Or.inr ⟨hne, ht⟩
  have hidle : ∀ k phase, s' = s.setRun k phase → phase.remaining = [] →
      (∀ k, e ≠ .connect k) →
      (∃ k, e = .connect k ∧ t ∈ s.queues) ∨ (∀ k, e ≠ .connect k) ∧ t ∈ s.remaining := by
    intro k phase heq hnil hne
    rw [heq] at ht
    have hold := (mem_remaining_setRun ht).resolve_left (by simp [hnil])
    exact Or.inr ⟨hne, hold⟩
  cases e with
  | subscribe topic =>
    rw [← Option.some.inj hstep] at ht
    refine Or.inr ⟨by simp, ?_⟩
    simp only [State.remaining, State.subscribe, State.startRun] at ht ⊢
    cases htask : s.task with
    | none =>
      -- a new task has nothing to send yet
      rw [htask] at ht
      simpa [RunPhase.remaining] using ht
    | some n =>
      rw [htask] at ht
      exact ht
  | proceed i =>
    obtain ⟨call, -, -, rfl⟩ := step_proceed hstep
    apply hruns _ (by simp)
    unfold State.proceed
    split <;> rfl
  | timeout i =>
    obtain ⟨call, -, -, rfl⟩ := step_timeout hstep
    exact hruns rfl (by simp)
  | sent i =>
    obtain ⟨call, job, -, -, rfl⟩ := step_sent hstep
    exact hruns rfl (by simp)
  | unsubscribe topic q =>
    obtain ⟨call, -, -, rfl⟩ := step_unsubscribe hstep
    apply hruns _ (by simp)
    unfold State.unsubscribe
    split <;> rfl
  | unsubscribeSent j =>
    obtain ⟨job, -, rfl⟩ := step_unsubscribeSent hstep
    exact hruns rfl (by simp)
  | connect k =>
    obtain ⟨hconnecting, rfl⟩ := step_connect hstep
    obtain ⟨payloads, hpayloads, heq⟩ := connect_eq P s k
    have htopics := (sendNext_topics s.opened s.sockets.length .subscribe payloads).2
    rw [heq] at ht
    left
    refine ⟨k, rfl, ?_⟩
    rcases mem_remaining_afterResubscribe ht with hnew | hold
    · exact (hpayloads t).mp (htopics hnew)
    · -- the one task there is was connecting
      obtain ⟨-, hphase, -⟩ := hwired.fields hconnecting
      have hnil : s.remaining = [] := by rw [State.remaining, hphase]; rfl
      have hold' : t ∈ s.remaining := hold
      rw [hnil] at hold'
      exact absurd hold' List.not_mem_nil
  | connectFails k =>
    obtain ⟨-, heq⟩ := step_connectFails hstep
    exact hidle k _ heq rfl (by simp)
  | resubscribed k =>
    obtain ⟨job, hk, rfl⟩ := step_resubscribed hstep
    refine Or.inr ⟨by simp, ?_⟩
    have htopics := (sendNext_topics s job.ws .subscribe job.rest).2
    rcases mem_remaining_afterResubscribe ht with hnew | hold
    · exact List.mem_flatMap.mpr ⟨_, List.mem_of_getElem? hk, htopics hnew⟩
    · exact hold
  | disconnected k =>
    obtain ⟨ws, -, rfl⟩ := step_disconnected hstep
    refine Or.inr ⟨by simp, ?_⟩
    exact (mem_remaining_setRun ht).resolve_left List.not_mem_nil
  | retry k =>
    obtain ⟨-, heq⟩ := step_retry hstep
    exact hidle k _ heq rfl (by simp)
  | drop ws =>
    rw [← Option.some.inj hstep] at ht
    exact Or.inr ⟨by simp, ht⟩

/-! ## The topics of a live socket -/

/-- `_subscribed_topics` is what the live socket was sent or is still to be sent. -/
def Mirrored (s : State τ) : Prop :=
  ∀ ws, s.Live ws → ∀ t, t ∈ s.subscribedTopics ↔ t ∈ upstream s.wire ws ∨ t ∈ s.remaining

/-- On a live socket, a topic of the table is taken as subscribed, or the call that opened it is in
one of the phases `W`. -/
def Covered (W : Phase τ → Bool) (s : State τ) : Prop :=
  ∀ ws, s.Live ws → ∀ t ∈ s.queues, t ∈ s.subscribedTopics ∨
    ∃ i call, s.Opener t i ∧ s.calls[i]? = some call ∧ W call.phase = true

/-- What the hub knows of the topics of its socket. -/
structure SyncedAt (s : State τ) (ws : ℕ) : Prop where
  mem_iff : ∀ t, t ∈ s.subscribedTopics ↔ t ∈ upstream s.wire ws ∨ t ∈ s.remaining
  covered : ∀ t ∈ s.queues, t ∈ s.subscribedTopics ∨
    ∃ i call, s.Opener t i ∧ s.calls[i]? = some call ∧ call.phase.isWaiting = true

/-- The hub and its live socket agree. -/
def Synced (s : State τ) : Prop := ∀ ws, s.Live ws → SyncedAt s ws

lemma synced_iff {s : State τ} : Synced s ↔ Mirrored s ∧ Covered Phase.isWaiting s :=
  ⟨fun h => ⟨fun ws hlive => (h ws hlive).mem_iff, fun ws hlive => (h ws hlive).covered⟩,
    fun h ws hlive => ⟨h.1 ws hlive, h.2 ws hlive⟩⟩

omit [DecidableEq τ] in
/-- A socket that is up is not one that went down. -/
lemma State.Live.of_drop {s : State τ} {ws dropped : ℕ}
    (h : State.Live { s with sockets := s.sockets.set dropped false } ws) : s.Live ws := by
  refine ⟨h.1, ?_⟩
  have hup := h.2
  simp only [State.isUp, List.getD_eq_getElem?_getD, List.getElem?_set] at hup ⊢
  split at hup
  · split at hup <;> simp at hup
  · exact hup

/-! ### What has been sent -/

lemma Mirrored.subscribe {s : State τ} (h : Mirrored s) (hwired : Wired s) (topic : τ) :
    Mirrored (s.subscribe topic) := by
  intro ws hlive
  rw [hwired.remaining_subscribe hlive]
  exact h ws hlive

lemma Mirrored.proceed {P : Payloads τ} {s : State τ} (h : Mirrored s) (i : ℕ)
    (call : Call τ) : Mirrored (s.proceed P i call) := by
  unfold State.proceed
  split
  · exact h
  · intro ws hlive t
    have hlive : s.Live ws := hlive
    show t ∈ insert call.topic s.subscribedTopics ↔
      t ∈ upstream (s.sendPayloads .subscribe (P.subscribe [call.topic])).1 ws ∨ t ∈ s.remaining
    rw [P.subscribe_one, sendPayloads_live hlive, mem_upstream_subscribe, Finset.mem_insert,
      h ws hlive t, List.mem_singleton]
    tauto

/-- An `unsubscribe` that drops the topic sends an UNSUBSCRIBE if the hub is connected, and else
the topic was not taken as subscribed. -/
lemma Mirrored.unsubscribe {P : Payloads τ} {s : State τ} (h : Mirrored s) (hwired : Wired s)
    {topic : τ} {q : ℕ} (hnot : s.missed (.unsubscribe topic q) = false) :
    Mirrored (s.unsubscribe P topic q) := by
  unfold State.unsubscribe
  split
  · exact h
  · next hnone =>
    rw [not_not] at hnone
    intro ws hlive t
    have hlive : s.Live ws := hlive
    show t ∈ s.subscribedTopics.erase topic ↔
      t ∈ upstream (if s.connected = true then _ else _ : List (ℕ × Frame τ) × _).1 ws ∨
        t ∈ s.remaining
    split
    · next hconnected =>
      rw [P.unsubscribe_one, sendPayloads_live hlive, mem_upstream_unsubscribe,
        Finset.mem_erase, h ws hlive t, hwired.remaining_eq_nil hconnected, List.mem_singleton]
      simp only [List.not_mem_nil, or_false]
      exact and_comm
    · next hconnected =>
      -- no UNSUBSCRIBE goes out, and none is due
      have habsent : topic ∉ s.subscribedTopics := by
        intro hmem
        simp [State.missed, hlive.isLive, hconnected, hmem, hnone] at hnot
      rw [Finset.erase_eq_of_notMem habsent]
      exact h ws hlive t

/-- The resubscription goes on, or ends. -/
lemma Mirrored.afterResubscribe {s : State τ} {ws : ℕ} {out : Option (Sending τ)}
    (hruns : ∃ phase, s.runs = [phase]) (hws : s.ws = some ws)
    (h : s.Live ws → ∀ t, t ∈ s.subscribedTopics ↔
      t ∈ upstream s.wire ws ∨ t ∈ StreamHub.remaining out) :
    Mirrored (s.afterResubscribe 0 ws out) := by
  intro ws' hlive
  have hlive := live_afterResubscribe.mp hlive
  obtain rfl : ws = ws' := Option.some.inj (hws.symm.trans hlive.1)
  obtain ⟨phase, hruns⟩ := hruns
  rw [remaining_afterResubscribe hruns]
  cases out <;> exact h hlive

/-- A new socket has been sent nothing, and all topics of the table are to be sent on it. -/
lemma Mirrored.connect {P : Payloads τ} {s : State τ} (hwired : Wired s) {k : ℕ}
    (hk : s.runs[k]? = some .connecting) : Mirrored (s.connect P k) := by
  obtain ⟨rfl, hruns, -⟩ := hwired.fields hk
  obtain ⟨payloads, hpayloads, heq⟩ := connect_eq P s 0
  rw [heq]
  have hunused : upstream s.opened.wire s.sockets.length = ∅ :=
    upstream_of_unused fun entry hentry => (hwired.numbered entry hentry).ne
  refine Mirrored.afterResubscribe ⟨_, hruns⟩ rfl ?_
  intro _ t
  show t ∈ s.opened.subscribedTopics ↔ _
  rw [mem_upstream_sendNext (isUp_opened s), hunused, hpayloads, mem_opened]
  simp

/-- A resubscription that goes on, or ends. -/
lemma Mirrored.resubscribed {s : State τ} (h : Mirrored s) (hwired : Wired s) {k : ℕ}
    {job : Sending τ} (hk : s.runs[k]? = some (.resubscribing job)) :
    Mirrored (s.resubscribed k job) := by
  obtain ⟨rfl, hruns, -, hws, -⟩ := hwired.fields hk
  unfold State.resubscribed
  refine Mirrored.afterResubscribe ⟨_, hruns⟩ hws ?_
  intro hlive t
  have hlive : s.Live job.ws := hlive
  show t ∈ s.subscribedTopics ↔ _
  rw [mem_upstream_sendNext hlive.2, h job.ws hlive t]
  simp [State.remaining, hruns, RunPhase.remaining]

/-- Every step keeps it but an `unsubscribe` that `missed` names. -/
lemma Mirrored.step {P : Payloads τ} {s s' : State τ} {e : Event τ} (h : Mirrored s)
    (hwired : Wired s) (hheld : Held s)
    (hnot : ∀ topic q, e = .unsubscribe topic q → s.missed e = false)
    (hstep : StreamHub.step P s e = some s') : Mirrored s' := by
  cases e with
  | subscribe topic =>
    obtain rfl := Option.some.inj hstep
    exact h.subscribe hwired topic
  | proceed i =>
    obtain ⟨call, -, -, rfl⟩ := step_proceed hstep
    exact h.proceed i call
  | timeout i =>
    obtain ⟨call, -, -, rfl⟩ := step_timeout hstep
    exact h
  | sent i =>
    obtain ⟨call, job, hcall, hphase, rfl⟩ := step_sent hstep
    rw [hheld.sent_eq hcall hphase]
    exact h
  | unsubscribe topic q =>
    obtain ⟨holder, -, -, rfl⟩ := step_unsubscribe hstep
    exact h.unsubscribe hwired (hnot topic q rfl)
  | unsubscribeSent j =>
    obtain ⟨job, hjob, rfl⟩ := step_unsubscribeSent hstep
    rw [hheld.unsubscribeSent_eq hjob]
    exact h
  | connect k =>
    obtain ⟨hk, rfl⟩ := step_connect hstep
    exact .connect hwired hk
  | connectFails k =>
    obtain ⟨hk, rfl⟩ := step_connectFails hstep
    exact fun ws hlive => absurd hlive (hwired.not_live hk rfl)
  | resubscribed k =>
    obtain ⟨job, hk, rfl⟩ := step_resubscribed hstep
    exact h.resubscribed hwired hk
  | disconnected k =>
    obtain ⟨ws, -, rfl⟩ := step_disconnected hstep
    exact fun ws' hlive => absurd hlive (not_live_disconnected s k ws)
  | retry k =>
    obtain ⟨hk, rfl⟩ := step_retry hstep
    exact fun ws hlive => absurd hlive (hwired.not_live hk rfl)
  | drop ws =>
    obtain rfl := Option.some.inj hstep
    exact fun ws' hlive => h ws' hlive.of_drop

/-! ### What is still to be sent by a call -/

section

variable {W : Phase τ → Bool}

/-- The call that opens the topic waits. -/
lemma Covered.subscribe {s : State τ} (h : Covered W s) (hwaits : ∀ b, W (.waiting b) = true)
    (topic : τ) : Covered W (s.subscribe topic) := by
  intro ws hlive t ht
  have hold : t ∈ s.queues → t ∈ s.subscribedTopics ∨ ∃ i call,
      (s.subscribe topic).Opener t i ∧ (s.subscribe topic).calls[i]? = some call ∧
        W call.phase = true := by
    intro hmem
    refine (h ws hlive t hmem).imp_right ?_
    rintro ⟨i, call, hopener, hcall, hphase⟩
    refine ⟨i, call, hopener.subscribe hmem topic, ?_, hphase⟩
    exact (List.getElem?_append_left (List.getElem?_eq_some_iff.mp hcall).1).trans hcall
  rcases (AList.mem_insert _).mp ht with rfl | hmem
  · cases hlookup : s.queues.lookup t with
    | none =>
      refine Or.inr ⟨_, _, opener_subscribe_self hlookup, List.getElem?_concat_length, ?_⟩
      simp [hlookup, hwaits]
    | some qs =>
      apply hold
      rw [← AList.lookup_isSome, hlookup]
      rfl
  · exact hold hmem

/-- A call moves on to another of the phases, or its topic is taken as subscribed. -/
lemma Covered.setPhase {s : State τ} (h : Covered W s) {i : ℕ} {call : Call τ} {phase : Phase τ}
    (hcall : s.calls[i]? = some call)
    (hmoves : ∀ ws, s.Live ws → W call.phase = true →
      W phase = true ∨ call.topic ∈ s.subscribedTopics) : Covered W (s.setPhase i call phase) := by
  intro ws hlive t ht
  rcases h ws hlive t ht with hold | hother
  · exact Or.inl hold
  · rcases exists_opener_setPhase phase hcall hother with ⟨rfl, hopener, hphase⟩ | hstill
    · rcases hmoves ws hlive hphase with hnext | hmem
      · refine Or.inr ⟨i, { call with phase := phase },
          hopener.of_table (openings_setPhase phase hcall) (fun _ => id), ?_, hnext⟩
        exact List.getElem?_set_self (List.getElem?_eq_some_iff.mp hcall).1
      · exact Or.inl hmem
    · exact Or.inr hstill

/-- A call that goes on has its topic among the subscribed ones. -/
lemma Covered.proceed {P : Payloads τ} {s : State τ} (h : Covered W s) {i : ℕ} {call : Call τ}
    (hcall : s.calls[i]? = some call) : Covered W (s.proceed P i call) := by
  unfold State.proceed
  split
  · next hmem => exact h.setPhase hcall fun _ _ _ => Or.inr hmem
  · have hadded : Covered W { s with
        subscribedTopics := insert call.topic s.subscribedTopics
        wire := (s.sendPayloads .subscribe (P.subscribe [call.topic])).1 } :=
      fun ws hlive t ht => (h ws hlive t ht).imp_left Finset.mem_insert_of_mem
    exact hadded.setPhase hcall fun _ _ _ => Or.inr (Finset.mem_insert_self _ _)

/-- An `unsubscribe` keeps the table's other topics, and its own while it has a queue. -/
lemma Covered.unsubscribe {P : Payloads τ} {s : State τ} (h : Covered W s) (topic : τ) (q : ℕ) :
    Covered W (s.unsubscribe P topic q) := by
  have hqueues : ∀ t, (s.unsubscribe P topic q).queuesOf t ⊆ s.queuesOf t := by
    intro t
    rw [queuesOf_unsubscribe]
    split
    · next heq => exact heq ▸ List.filter_subset_self _
    · exact List.Subset.refl _
  intro ws hlive t ht
  have hkept : s.Live ws ∧ t ∈ s.queues ∧
      (t ∈ s.subscribedTopics → t ∈ (s.unsubscribe P topic q).subscribedTopics) := by
    unfold State.unsubscribe at hlive ht ⊢
    split at hlive
    · next hothers =>
      simp only [hothers, ne_eq, not_false_eq_true, if_true] at ht ⊢
      refine ⟨hlive, ?_, id⟩
      rcases (AList.mem_insert _).mp ht with rfl | hold
      · obtain ⟨other, hmem⟩ := List.exists_mem_of_ne_nil _ hothers
        exact mem_queues_of_mem_getD (List.mem_filter.mp hmem).1
      · exact hold
    · next hothers =>
      simp only [hothers, if_false] at ht ⊢
      obtain ⟨hne, hold⟩ := AList.mem_erase.mp ht
      exact ⟨hlive, hold, fun hmem => Finset.mem_erase.mpr ⟨hne, hmem⟩⟩
  obtain ⟨hbefore, hmem, hsubscribed⟩ := hkept
  have hcalls : (s.unsubscribe P topic q).calls = s.calls := calls_unsubscribe s topic q
  refine (h ws hbefore t hmem).imp hsubscribed ?_
  rintro ⟨i, call, hopener, hcall, hphase⟩
  exact ⟨i, call, hopener.of_table (by rw [hcalls]) (hqueues t), hcalls ▸ hcall, hphase⟩

/-- The calls that wait are woken at most. -/
lemma Covered.afterResubscribe {s : State τ} (h : Covered W s)
    (hwaits : ∀ b, W (.waiting b) = true) (k ws : ℕ) (out : Option (Sending τ)) :
    Covered W (s.afterResubscribe k ws out) := by
  intro ws' hlive t ht
  have hlive := live_afterResubscribe.mp hlive
  cases out with
  | some job => exact h ws' hlive t ht
  | none =>
    refine (h ws' hlive t ht).imp_right ?_
    rintro ⟨i, call, hopener, hcall, hphase⟩
    obtain ⟨-, -, -, hwaiting, hsame⟩ := wake_eq call
    refine ⟨i, call.wake, hopener.of_table (openings_wake s.calls) (fun _ => id), ?_, ?_⟩
    · exact (List.getElem?_map).trans (congrArg (Option.map Call.wake) hcall)
    · by_cases hw : call.phase.isWaiting = true
      · rw [Call.wake, if_pos hw]
        exact hwaits true
      · rw [hsame (Bool.eq_false_iff.mpr hw)]
        exact hphase

/-- `_run` takes all topics of the table as subscribed. -/
lemma Covered.connect {P : Payloads τ} {s : State τ} (hwaits : ∀ b, W (.waiting b) = true)
    (k : ℕ) : Covered W (s.connect P k) := by
  obtain ⟨payloads, -, heq⟩ := connect_eq P s k
  rw [heq]
  apply Covered.afterResubscribe _ hwaits
  intro ws hlive t ht
  exact Or.inl (mem_opened.mpr ht)

/-- Every step keeps it when calls wait in one of the phases and time out to another, or to
none where `missed` does not name it. -/
lemma Covered.step {P : Payloads τ} {s s' : State τ} {e : Event τ} (h : Covered W s)
    (hwired : Wired s) (hheld : Held s) (hwaits : ∀ b, W (.waiting b) = true)
    (hnot : ∀ i, e = .timeout i → W .timedOut = true ∨ s.missed e = false)
    (hstep : StreamHub.step P s e = some s') : Covered W s' := by
  cases e with
  | subscribe topic =>
    obtain rfl := Option.some.inj hstep
    exact h.subscribe hwaits topic
  | proceed i =>
    obtain ⟨call, hcall, -, rfl⟩ := step_proceed hstep
    exact h.proceed hcall
  | timeout i =>
    obtain ⟨call, hcall, -, rfl⟩ := step_timeout hstep
    refine h.setPhase hcall fun ws hlive _ => (hnot i rfl).imp_right fun hmissed => ?_
    simpa [State.missed, hlive.isLive, hcall] using hmissed
  | sent i =>
    obtain ⟨call, job, hcall, hphase, rfl⟩ := step_sent hstep
    rw [hheld.sent_eq hcall hphase]
    -- a call at its send has taken its topic as subscribed
    exact h.setPhase hcall fun _ _ _ => Or.inr ((hheld.calls i call hcall).added job hphase).1
  | unsubscribe topic q =>
    obtain ⟨holder, -, -, rfl⟩ := step_unsubscribe hstep
    exact h.unsubscribe topic q
  | unsubscribeSent j =>
    obtain ⟨job, hjob, rfl⟩ := step_unsubscribeSent hstep
    rw [hheld.unsubscribeSent_eq hjob]
    exact h
  | connect k =>
    obtain ⟨-, rfl⟩ := step_connect hstep
    exact .connect hwaits k
  | connectFails k =>
    obtain ⟨hk, rfl⟩ := step_connectFails hstep
    exact fun ws hlive => absurd hlive (hwired.not_live hk rfl)
  | resubscribed k =>
    obtain ⟨job, -, rfl⟩ := step_resubscribed hstep
    have hsent : Covered W { s with wire := (s.sendNext job.ws .subscribe job.rest).1 } := h
    exact hsent.afterResubscribe hwaits k job.ws _
  | disconnected k =>
    obtain ⟨ws, -, rfl⟩ := step_disconnected hstep
    exact fun ws' hlive => absurd hlive (not_live_disconnected s k ws)
  | retry k =>
    obtain ⟨hk, rfl⟩ := step_retry hstep
    exact fun ws hlive => absurd hlive (hwired.not_live hk rfl)
  | drop ws =>
    obtain rfl := Option.some.inj hstep
    exact fun ws' hlive => h ws' hlive.of_drop

end

/-- What a step that is not `missed` keeps. -/
lemma Synced.step {P : Payloads τ} {s s' : State τ} {e : Event τ} (h : Synced s)
    (hwired : Wired s) (hheld : Held s) (hnot : s.missed e = false)
    (hstep : StreamHub.step P s e = some s') : Synced s' := by
  obtain ⟨hmirrored, hcovered⟩ := synced_iff.mp h
  apply synced_iff.mpr
  exact ⟨hmirrored.step hwired hheld (fun _ _ _ => hnot) hstep,
    hcovered.step hwired hheld (fun _ => rfl) (fun _ _ => Or.inr hnot) hstep⟩

/-- At rest and connected, the socket has the topics of the table. -/
lemma Synced.upstream_eq {s : State τ} (h : Synced s) (hwired : Wired s) (hheld : Held s)
    {ws : ℕ} (hlive : s.Live ws) (hconnected : s.connected = true) (hquiet : s.Quiet) :
    upstream s.wire ws = s.queues.keys.toFinset := by
  have hsynced := h ws hlive
  ext t
  have hupstream := hsynced.mem_iff t
  rw [hwired.remaining_eq_nil hconnected] at hupstream
  simp only [List.not_mem_nil, or_false] at hupstream
  rw [← hupstream, List.mem_toFinset, ← AList.mem_keys]
  constructor
  · exact hheld.subscribed t
  · intro ht
    refine (hsynced.covered t ht).resolve_right ?_
    -- no call waits in a hub at rest
    rintro ⟨i, call, -, hcall, hwaiting⟩
    have hdone := hquiet.1 call (List.mem_of_getElem? hcall)
    rw [Phase.inFlight_of_isWaiting hwaiting] at hdone
    exact Bool.noConfusion hdone

/-! ## Runs -/

/-- In a run without a missed step there is one task at most and no empty list, and a hub at
rest with a live socket has subscribed the topics that have a queue. -/
theorem upstream_eq_live_topics (P : Payloads τ) (es : List (Event τ)) (s : State τ)
    (hrun : run (step P) {} es = some s)
    (hmeets : Meets (step P) (fun s e => s.missed e = false) {} es) :
    s.runs.length ≤ 1 ∧ (∀ t, s.queues.lookup t ≠ some []) ∧
      ∀ ws, s.Live ws → s.connected = true → s.Quiet →
        upstream s.wire ws = s.queues.keys.toFinset := by
  have hpres : ∀ s e s', Wired s ∧ Held s ∧ Synced s → s.missed e = false → step P s e = some s' →
      Wired s' ∧ Held s' ∧ Synced s' := by
    rintro s e s' ⟨hwired, hheld, hsynced⟩ hmissed hstep
    exact ⟨hwired.step hstep, hheld.step hstep, hsynced.step hwired hheld hmissed hstep⟩
  have hinit : Wired ({} : State τ) ∧ Held ({} : State τ) ∧ Synced ({} : State τ) :=
    ⟨wired_init, held_init, fun ws hlive => absurd hlive.1 (by simp)⟩
  obtain ⟨hwired, hheld, hsynced⟩ := invariant_of_meets hpres hinit hmeets hrun
  exact ⟨hwired.runs_le, hheld.nonempty,
    fun ws hlive hconnected hquiet => hsynced.upstream_eq hwired hheld hlive hconnected hquiet⟩

/-- A topic is dropped and another opened on a connected hub. -/
def sampleRun : List (Event String) :=
  [.subscribe "a", .connect 0, .resubscribed 0, .proceed 0, .subscribe "b", .proceed 1, .sent 1,
    .unsubscribe "a" 0, .unsubscribeSent 0]

/-- The topic that is left is the one upstream. -/
theorem upstream_eq_live_topics_sample :
    ∃ s, run (step (.batched String)) {} sampleRun = some s ∧
      upstream s.wire 0 = s.queues.keys.toFinset ∧ s.queues.keys = ["b"] :=
  ⟨_, rfl, (upstream_eq_live_topics (.batched String) sampleRun _ rfl (by decide)).2.2 0
    ⟨rfl, rfl⟩ rfl ⟨by decide, rfl, by decide⟩, rfl⟩

/-- The connection comes back, and while it is resubscribed the consumer leaves. -/
theorem topic_left_during_resubscription :
    ∃ s, run (step (.batched String)) {}
        [.subscribe "a", .connect 0, .resubscribed 0, .proceed 0, .drop 0, .disconnected 0,
          .retry 0, .connect 0, .unsubscribe "a" 0, .resubscribed 0] = some s ∧
      s.Live 1 ∧ s.connected = true ∧ s.Quiet ∧ upstream s.wire 1 = {"a"} ∧ s.queues.keys = [] :=
  ⟨_, rfl, ⟨rfl, rfl⟩, rfl, ⟨by decide, rfl, by decide⟩, by decide, rfl⟩

end StreamHub
end ExchangeRouter
