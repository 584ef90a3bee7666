import ExchangeRouter.Consumers
import ExchangeRouter.Lib.Dict
import ExchangeRouter.StreamHubTable
import ExchangeRouter.StreamHubTheorems

/-!
# Who holds a queue

Each hub of an adapter makes the steps of a hub, whatever its consumers do, and every queue of
a table has one consumer that holds it (`Owned`). Both hold in every run, cancellations
included.
-/

namespace ExchangeRouter
namespace Consumers

open Transition

/-! ## What each step does -/

section

variable {κ τ : Type*}

@[simp] lemma hubs_setStage (s : State κ τ) (i : ℕ) (c : Consumer κ τ) (stage : Stage) :
    (s.setStage i c stage).hubs = s.hubs := rfl

/-- The consumers after one of them moved on. -/
lemma get_setStage {s : State κ τ} {i : ℕ} {c : Consumer κ τ} (hc : s.consumers[i]? = some c)
    (stage : Stage) (j : ℕ) :
    (s.setStage i c stage).consumers[j]? =
      if j = i then some { c with stage := stage } else s.consumers[j]? :=
  Dict.get_set hc _ j

/-- The awaits where a cancellation is no send, and what it makes of each. -/
lemma cancelled_cases {s : State κ τ} {c : Consumer κ τ} {stage : Stage}
    (h : s.cancelled c = some stage) :
    (c.stage = .entering ∧ stage = .cancelled none) ∨
    (∃ q, c.stage = .subscribed q ∧ s.inFlight c.hub q = true ∧ stage = .cancelled (some q)) ∨
    (∃ q, c.stage = .subscribed q ∧ s.inFlight c.hub q = false ∧ stage = .leaving q) ∨
    (∃ q, c.stage = .leaving q ∧ stage = .cancelled (some q)) := by
  unfold State.cancelled at h
  split at h
  · next hstage => exact Or.inl ⟨hstage, (Option.some.inj h).symm⟩
  · next q hstage =>
    split at h
    · next hflight => exact Or.inr (Or.inl ⟨q, hstage, hflight, (Option.some.inj h).symm⟩)
    · next hflight =>
      have hreads := Bool.eq_false_iff.mpr hflight
      exact Or.inr (Or.inr (Or.inl ⟨q, hstage, hreads, (Option.some.inj h).symm⟩))
  · next q hstage => exact Or.inr (Or.inr (Or.inr ⟨q, hstage, (Option.some.inj h).symm⟩))
  · cases h

/-- A cancellation moves no queue. -/
lemma queue_of_cancelled {s : State κ τ} {c : Consumer κ τ} {stage : Stage}
    (h : s.cancelled c = some stage) : stage.queue = c.stage.queue := by
  rcases cancelled_cases h with ⟨hstage, rfl⟩ | ⟨q, hstage, -, rfl⟩ | ⟨q, hstage, -, rfl⟩ |
    ⟨q, hstage, rfl⟩ <;> rw [hstage] <;> rfl

variable [DecidableEq κ]

@[simp] lemma consumers_setHub (s : State κ τ) (k : κ) (hub : StreamHub.State τ) :
    (s.setHub k hub).consumers = s.consumers := rfl

@[simp] lemma hubs_setHub_self (s : State κ τ) (k : κ) (hub : StreamHub.State τ) :
    (s.setHub k hub).hubs k = hub := Function.update_self ..

lemma hubs_setHub_ne (s : State κ τ) {k k' : κ} (hub : StreamHub.State τ) (h : k' ≠ k) :
    (s.setHub k hub).hubs k' = s.hubs k' := Function.update_of_ne h ..

variable [DecidableEq τ] {P : κ → StreamHub.Payloads τ} {s s' : State κ τ}

lemma stepHub_eq {k : κ} {e : StreamHub.Event τ} (h : s.stepHub P k e = some s') :
    ∃ hub, StreamHub.step (P k) (s.hubs k) e = some hub ∧ s' = s.setHub k hub := by
  obtain ⟨hub, hstep, rfl⟩ := Option.map_eq_some_iff.mp h
  exact ⟨hub, hstep, rfl⟩

/-- What `enter` does: the hub's `subscribe`, up to its wait. -/
lemma step_enter {i : ℕ} (h : step P s (.enter i) = some s') :
    ∃ c, s.consumers[i]? = some c ∧ c.stage = .entering ∧
      s' = (s.setHub c.hub ((s.hubs c.hub).subscribe c.topic)).setStage i c
        (.subscribed (s.hubs c.hub).calls.length) := by
  cases hc : s.consumers[i]? with
  | none => simp [step, hc] at h
  | some c =>
    simp only [step, hc, State.enter] at h
    split at h
    · next hstage =>
      obtain ⟨t, ht, rfl⟩ := Option.map_eq_some_iff.mp h
      obtain ⟨hub, hhub, rfl⟩ := stepHub_eq ht
      rw [← Option.some.inj hhub]
      exact ⟨c, rfl, hstage, rfl⟩
    · simp at h

/-- What `hub` does: a step of that hub, which no consumer has to take itself. -/
lemma step_hub {k : κ} {e : StreamHub.Event τ} (h : step P s (.hub k e) = some s') :
    s.mayRun k e = true ∧ ∃ hub, StreamHub.step (P k) (s.hubs k) e = some hub ∧
      s' = s.setHub k hub := by
  simp only [step] at h
  split at h
  · next hmay => exact ⟨hmay, stepHub_eq h⟩
  · simp at h

/-- What `leave` does: the hub's `unsubscribe`, up to its send. -/
lemma step_leave {i : ℕ} (h : step P s (.leave i) = some s') :
    ∃ c q hub stage, s.consumers[i]? = some c ∧ c.stage = .leaving q ∧
      StreamHub.step (P c.hub) (s.hubs c.hub) (.unsubscribe c.topic q) = some hub ∧
      (stage = .dropping ∨ stage = .released) ∧
      s' = (s.setHub c.hub hub).setStage i c stage := by
  cases hc : s.consumers[i]? with
  | none => simp [step, hc] at h
  | some c =>
    simp only [step, hc] at h
    split at h
    · next q hstage =>
      obtain ⟨t, ht, rfl⟩ := Option.map_eq_some_iff.mp h
      obtain ⟨hub, hhub, rfl⟩ := stepHub_eq ht
      refine ⟨c, q, hub, _, rfl, hstage, hhub, ?_, rfl⟩
      split
      · exact Or.inl rfl
      · exact Or.inr rfl
    · simp at h

/-- What `left` does: the send of an unsubscription ends. -/
lemma step_left {i j : ℕ} (h : step P s (.left i j) = some s') :
    ∃ c hub, s.consumers[i]? = some c ∧ c.stage = .dropping ∧
      StreamHub.step (P c.hub) (s.hubs c.hub) (.unsubscribeSent j) = some hub ∧
      s' = (s.setHub c.hub hub).setStage i c .released := by
  cases hc : s.consumers[i]? with
  | none => simp [step, hc] at h
  | some c =>
    simp only [step, hc] at h
    split at h
    · next hstage =>
      obtain ⟨t, ht, rfl⟩ := Option.map_eq_some_iff.mp h
      obtain ⟨hub, hhub, rfl⟩ := stepHub_eq ht
      exact ⟨c, hub, rfl, hstage, hhub, rfl⟩
    · simp at h

/-- What `cancel` asks for: a consumer at an await. -/
lemma step_cancel {i : ℕ} (h : step P s (.cancel i) = some s') :
    ∃ c stage, s.consumers[i]? = some c ∧ s.cancelled c = some stage ∧
      s' = s.setStage i c stage := by
  cases hc : s.consumers[i]? with
  | none => simp [step, hc] at h
  | some c =>
    simp only [step, hc] at h
    obtain ⟨stage, hstage, rfl⟩ := Option.map_eq_some_iff.mp h
    exact ⟨c, stage, rfl, hstage, rfl⟩

/-- What `cancelSend` asks for: a consumer whose unsubscription is being sent. -/
lemma step_cancelSend {i j : ℕ} (h : step P s (.cancelSend i j) = some s') :
    ∃ c, s.consumers[i]? = some c ∧ c.stage = .dropping ∧
      j < (s.hubs c.hub).unsubs.length ∧ s' = s.cancelSend i j c := by
  cases hc : s.consumers[i]? with
  | none => simp [step, hc] at h
  | some c =>
    simp only [step, hc] at h
    split at h
    · next hguard => exact ⟨c, rfl, hguard.1, hguard.2, (Option.some.inj h).symm⟩
    · simp at h

omit [DecidableEq τ] in
/-- A hub's own stretch is not one of a consumer that comes or goes. -/
lemma isOwn_of_mayRun {k : κ} {e : StreamHub.Event τ} (h : s.mayRun k e = true) :
    e.isOwn = true := by
  cases e <;> first | rfl | simp [State.mayRun] at h

end

/-! ## Each hub makes the steps of a hub -/

section

variable {κ τ : Type*} [DecidableEq κ] [DecidableEq τ] {P : κ → StreamHub.Payloads τ}
  {s s' : State κ τ}

/-- What the hubs keep in every run. -/
structure HubsKept (s : State κ τ) : Prop where
  wired : ∀ k, StreamHub.Wired (s.hubs k)
  held : ∀ k, StreamHub.Held (s.hubs k)

/-- A hub that was written made a step of its own machine. -/
lemma setHub_eq_or_step {k : κ} {e : StreamHub.Event τ} {hub : StreamHub.State τ}
    (h : StreamHub.step (P k) (s.hubs k) e = some hub) (k' : κ) :
    (s.setHub k hub).hubs k' = s.hubs k' ∨
      (k' = k ∧ StreamHub.step (P k') (s.hubs k') e = some ((s.setHub k hub).hubs k')) := by
  by_cases hk : k' = k
  · subst hk
    right
    rw [hubs_setHub_self]
    exact ⟨rfl, h⟩
  · left
    exact hubs_setHub_ne s hub hk

/-- In a step each hub stays or makes one step, which `missed` names only where the step
strands something. -/
lemma hub_eq_or_step {e : Event κ τ} (hkept : HubsKept s) (hstep : step P s e = some s') (k : κ) :
    s'.hubs k = s.hubs k ∨ ∃ he, StreamHub.step (P k) (s.hubs k) he = some (s'.hubs k) ∧
      ∀ topic q, he = .unsubscribe topic q → s.strands e = false →
        (s.hubs k).missed he = false := by
  cases e with
  | start k' topic =>
    obtain rfl := Option.some.inj hstep
    exact Or.inl rfl
  | enter i =>
    obtain ⟨c, -, -, rfl⟩ := step_enter hstep
    rcases setHub_eq_or_step (P := P) (e := .subscribe c.topic) rfl k with h | ⟨-, h⟩
    · exact Or.inl h
    · exact Or.inr ⟨_, h, fun _ _ heq => by cases heq⟩
  | hub k' he =>
    obtain ⟨hmay, hub, hhub, rfl⟩ := step_hub hstep
    rcases setHub_eq_or_step hhub k with h | ⟨-, h⟩
    · exact Or.inl h
    · refine Or.inr ⟨_, h, fun _ _ heq => ?_⟩
      rw [heq] at hmay
      simp [State.mayRun] at hmay
  | leave i =>
    obtain ⟨c, q, hub, stage, hc, hstage, hhub, -, rfl⟩ := step_leave hstep
    rcases setHub_eq_or_step hhub k with h | ⟨rfl, h⟩
    · exact Or.inl h
    · refine Or.inr ⟨_, h, fun _ _ _ hstrands => ?_⟩
      simpa [State.strands, hc, hstage] using hstrands
  | left i j =>
    obtain ⟨c, hub, -, -, hhub, rfl⟩ := step_left hstep
    rcases setHub_eq_or_step hhub k with h | ⟨-, h⟩
    · exact Or.inl h
    · exact Or.inr ⟨_, h, fun _ _ heq => by cases heq⟩
  | cancel i =>
    obtain ⟨c, stage, -, -, rfl⟩ := step_cancel hstep
    exact Or.inl rfl
  | cancelSend i j =>
    obtain ⟨c, -, -, hj, rfl⟩ := step_cancelSend hstep
    -- the send has nothing left to do, so it ends as one that returns
    have hjob : (s.hubs c.hub).unsubs[j]? = some (s.hubs c.hub).unsubs[j] :=
      List.getElem?_eq_getElem hj
    have hhub : StreamHub.step (P c.hub) (s.hubs c.hub) (.unsubscribeSent j) =
        some { s.hubs c.hub with unsubs := (s.hubs c.hub).unsubs.eraseIdx j } := by
      simp only [StreamHub.step, hjob, (hkept.held c.hub).unsubscribeSent_eq hjob]
    rcases setHub_eq_or_step hhub k with h | ⟨-, h⟩
    · exact Or.inl h
    · exact Or.inr ⟨_, h, fun _ _ heq => by cases heq⟩

lemma HubsKept.step {e : Event κ τ} (h : HubsKept s) (hstep : Consumers.step P s e = some s') :
    HubsKept s' := by
  constructor
  · intro k
    rcases hub_eq_or_step h hstep k with heq | ⟨he, hhub, -⟩
    · rw [heq]
      exact h.wired k
    · exact (h.wired k).step hhub
  · intro k
    rcases hub_eq_or_step h hstep k with heq | ⟨he, hhub, -⟩
    · rw [heq]
      exact h.held k
    · exact (h.held k).step hhub

/-- A call that waits for the connection, or gave up on it. -/
def unsettled : StreamHub.Phase τ → Bool
  | .waiting _ => true
  | .timedOut => true
  | _ => false

/-- What the sockets of the hubs have, in a run that strands nothing. -/
structure SocketsKept (s : State κ τ) : Prop where
  mirrored : ∀ k, StreamHub.Mirrored (s.hubs k)
  covered : ∀ k, StreamHub.Covered unsettled (s.hubs k)

lemma SocketsKept.step {e : Event κ τ} (h : SocketsKept s) (hkept : HubsKept s)
    (hnot : s.strands e = false) (hstep : Consumers.step P s e = some s') : SocketsKept s' := by
  constructor
  · intro k
    rcases hub_eq_or_step hkept hstep k with heq | ⟨he, hhub, hmissed⟩
    · rw [heq]
      exact h.mirrored k
    · exact (h.mirrored k).step (hkept.wired k) (hkept.held k)
        (fun topic q heq => hmissed topic q heq hnot) hhub
  · intro k
    rcases hub_eq_or_step hkept hstep k with heq | ⟨he, hhub, -⟩
    · rw [heq]
      exact h.covered k
    · exact (h.covered k).step (hkept.wired k) (hkept.held k) (fun _ => rfl)
        (fun _ _ => Or.inl rfl) hhub

end

/-! ## Who holds a queue -/

section

variable {κ τ : Type*}

/-- Consumer `i` has queue `q` in the list of the topic on hub `k`. -/
def State.Holds (s : State κ τ) (i : ℕ) (k : κ) (t : τ) (q : ℕ) : Prop :=
  ∃ c, s.consumers[i]? = some c ∧ c.hub = k ∧ c.topic = t ∧ c.stage.queue = some q

/-- Only the consumer that moves holds something else. -/
lemma holds_setStage {s : State κ τ} {i : ℕ} {c : Consumer κ τ} (hc : s.consumers[i]? = some c)
    (stage : Stage) (j : ℕ) (k : κ) (t : τ) (q : ℕ) :
    (s.setStage i c stage).Holds j k t q ↔
      if j = i then c.hub = k ∧ c.topic = t ∧ stage.queue = some q else s.Holds j k t q := by
  unfold State.Holds
  by_cases hj : j = i
  · rw [if_pos hj, get_setStage hc, if_pos hj]
    constructor
    · rintro ⟨d, hd, hhub, htopic, hqueue⟩
      rw [← Option.some.inj hd] at hhub htopic hqueue
      exact ⟨hhub, htopic, hqueue⟩
    · intro h
      exact ⟨_, rfl, h⟩
  · rw [if_neg hj, get_setStage hc, if_neg hj]

/-- A consumer that goes on with its queue holds what it held. -/
lemma holds_setStage_of_queue {s : State κ τ} {i : ℕ} {c : Consumer κ τ}
    (hc : s.consumers[i]? = some c) {stage : Stage} (hqueue : stage.queue = c.stage.queue)
    (j : ℕ) (k : κ) (t : τ) (q : ℕ) :
    (s.setStage i c stage).Holds j k t q ↔ s.Holds j k t q := by
  rw [holds_setStage hc, hqueue]
  by_cases hj : j = i
  · rw [if_pos hj, hj]
    constructor
    · exact fun h => ⟨c, hc, h⟩
    · rintro ⟨d, hd, hheld⟩
      rw [hc] at hd
      rwa [← Option.some.inj hd] at hheld
  · rw [if_neg hj]

variable [DecidableEq τ]

/-- The queues in the tables are those the consumers hold, each of one consumer and made by a
call for its topic. A consumer that leaves has had its queue from that call. -/
structure Owned (s : State κ τ) : Prop where
  owners : ∀ k t q, q ∈ (s.hubs k).queuesOf t ↔ ∃ i, s.Holds i k t q
  distinct : ∀ i j k t t' q, s.Holds i k t q → s.Holds j k t' q → i = j
  calls : ∀ i k t q, s.Holds i k t q → ((s.hubs k).calls.map StreamHub.Call.topic)[q]? = some t
  done : ∀ (i : ℕ) (c : Consumer κ τ) (q : ℕ), s.consumers[i]? = some c →
    c.stage = .leaving q → s.inFlight c.hub q = false

/-- The calls are numbered, so the next one makes a queue that no consumer holds. -/
lemma Owned.lt_length {s : State κ τ} (h : Owned s) {i : ℕ} {k : κ} {t : τ} {q : ℕ}
    (hholds : s.Holds i k t q) : q < (s.hubs k).calls.length := by
  have hlt := (List.getElem?_eq_some_iff.mp (h.calls i k t q hholds)).1
  rwa [List.length_map] at hlt

/-- A consumer goes on with its queue. -/
lemma Owned.setStage {s : State κ τ} (h : Owned s) {i : ℕ} {c : Consumer κ τ}
    (hc : s.consumers[i]? = some c) {stage : Stage} (hqueue : stage.queue = c.stage.queue)
    (hdone : ∀ q, stage = .leaving q → s.inFlight c.hub q = false) :
    Owned (s.setStage i c stage) := by
  have hholds := holds_setStage_of_queue hc hqueue
  refine ⟨?_, ?_, ?_, ?_⟩
  · intro k t q
    simp only [hholds]
    exact h.owners k t q
  · intro j j' k t t' q hj hj'
    rw [hholds] at hj hj'
    exact h.distinct j j' k t t' q hj hj'
  · intro j k t q hj
    rw [hholds] at hj
    exact h.calls j k t q hj
  · intro j d q hd hleaving
    rw [get_setStage hc] at hd
    by_cases hji : j = i
    · rw [if_pos hji, Option.some.injEq] at hd
      rw [← hd] at hleaving ⊢
      exact hdone q hleaving
    · rw [if_neg hji] at hd
      exact h.done j d q hd hleaving

/-- A new consumer holds none. -/
lemma Owned.start {s : State κ τ} (h : Owned s) (k : κ) (topic : τ) :
    Owned { s with consumers := s.consumers ++ [⟨k, topic, .entering⟩] } := by
  have hholds : ∀ j k' t q,
      State.Holds { s with consumers := s.consumers ++ [⟨k, topic, .entering⟩] } j k' t q ↔
        s.Holds j k' t q := by
    intro j k' t q
    unfold State.Holds
    simp only [Dict.get_append]
    by_cases hj : j = s.consumers.length
    · rw [if_pos hj, hj, List.getElem?_eq_none le_rfl]
      simp [Stage.queue]
    · rw [if_neg hj]
  refine ⟨?_, ?_, ?_, ?_⟩
  · intro k' t q
    simp only [hholds]
    exact h.owners k' t q
  · intro i j k' t t' q hi hj
    rw [hholds] at hi hj
    exact h.distinct i j k' t t' q hi hj
  · intro i k' t q hi
    rw [hholds] at hi
    exact h.calls i k' t q hi
  · intro i c q hc hleaving
    simp only [Dict.get_append] at hc
    by_cases hi : i = s.consumers.length
    · rw [if_pos hi, Option.some.injEq] at hc
      rw [← hc] at hleaving
      cases hleaving
    · rw [if_neg hi] at hc
      exact h.done i c q hc hleaving

variable [DecidableEq κ]

/-- A hub makes a stretch that keeps its table. -/
lemma Owned.setHub {s : State κ τ} (h : Owned s) {k : κ} {hub : StreamHub.State τ}
    (hkeeps : StreamHub.KeepsTable (s.hubs k) hub) : Owned (s.setHub k hub) := by
  have hqueues : ∀ k' t, ((s.setHub k hub).hubs k').queuesOf t = (s.hubs k').queuesOf t := by
    intro k' t
    by_cases hk : k' = k
    · rw [hk, hubs_setHub_self, StreamHub.State.queuesOf, hkeeps.queues]
      rfl
    · rw [hubs_setHub_ne s hub hk]
  refine ⟨?_, h.distinct, ?_, ?_⟩
  · intro k' t q
    rw [hqueues]
    exact h.owners k' t q
  · intro i k' t q hholds
    have hcall := h.calls i k' t q hholds
    by_cases hk : k' = k
    · rw [hk, hubs_setHub_self, hkeeps.topics]
      rwa [hk] at hcall
    · rwa [hubs_setHub_ne s hub hk]
  · intro i c q hc hleaving
    have hdone := h.done i c q hc hleaving
    unfold State.inFlight at hdone ⊢
    by_cases hk : c.hub = k
    · rw [hk] at hdone ⊢
      rw [hubs_setHub_self]
      cases hcall : hub.calls[q]? with
      | none => rfl
      | some call' =>
        -- a call that is in flight now was so before
        by_contra hflight
        have hflight : call'.phase.inFlight = true := by simpa using hflight
        obtain ⟨call, hold, hbefore⟩ := hkeeps.flight q call' hcall hflight
        rw [hold] at hdone
        simp [hbefore] at hdone
    · rwa [hubs_setHub_ne s hub hk]

/-- The queues after a call has put its own at the end of the topic's list. -/
lemma mem_queuesOf_subscribe {s : State κ τ} {k : κ} {topic : τ} (k' : κ) (t : τ) (q : ℕ) :
    q ∈ ((s.setHub k ((s.hubs k).subscribe topic)).hubs k').queuesOf t ↔
      q ∈ (s.hubs k').queuesOf t ∨ (k' = k ∧ t = topic ∧ q = (s.hubs k).calls.length) := by
  by_cases hk : k' = k
  · rw [hk, hubs_setHub_self, StreamHub.queuesOf_subscribe]
    by_cases ht : t = topic
    · rw [if_pos ht, ht]
      simp
    · simp [ht]
  · rw [hubs_setHub_ne s _ hk]
    simp [hk]

/-- The queues after an `unsubscribe` has taken its own. -/
lemma mem_queuesOf_unsubscribe {P : StreamHub.Payloads τ} {s : State κ τ} {k : κ} {topic : τ}
    {q : ℕ} (k' : κ) (t : τ) (q' : ℕ) :
    q' ∈ ((s.setHub k ((s.hubs k).unsubscribe P topic q)).hubs k').queuesOf t ↔
      q' ∈ (s.hubs k').queuesOf t ∧ ¬ (k' = k ∧ t = topic ∧ q' = q) := by
  by_cases hk : k' = k
  · rw [hk, hubs_setHub_self, StreamHub.queuesOf_unsubscribe]
    by_cases ht : t = topic
    · rw [if_pos ht, ht]
      simp [StreamHub.State.others]
    · simp [ht]
  · rw [hubs_setHub_ne s _ hk]
    simp [hk]

omit [DecidableEq τ] in
/-- The calls of a hub that another hub's write leaves alone, or that only gets one more. -/
lemma getElem?_setHub {s : State κ τ} {k k' : κ} {hub : StreamHub.State τ} {q : ℕ}
    (hcalls : ∃ new, hub.calls = (s.hubs k).calls ++ new) (hlt : q < (s.hubs k').calls.length) :
    ((s.setHub k hub).hubs k').calls[q]? = (s.hubs k').calls[q]? := by
  by_cases hk : k' = k
  · subst hk
    obtain ⟨new, hcalls⟩ := hcalls
    rw [hubs_setHub_self, hcalls, List.getElem?_append_left hlt]
  · rw [hubs_setHub_ne s hub hk]

/-- What a consumer that keeps its queue knows of its call, after another consumer's write. -/
lemma Owned.calls_setHub {s : State κ τ} (h : Owned s) {k : κ} {hub : StreamHub.State τ}
    (hcalls : ∃ new, hub.calls = (s.hubs k).calls ++ new) {j : ℕ} {k' : κ} {t : τ} {q : ℕ}
    (hj : s.Holds j k' t q) :
    (((s.setHub k hub).hubs k').calls.map StreamHub.Call.topic)[q]? = some t := by
  rw [List.getElem?_map, getElem?_setHub hcalls (h.lt_length hj), ← List.getElem?_map]
  exact h.calls j k' t q hj

lemma Owned.done_setHub {s : State κ τ} (h : Owned s) {k : κ} {hub : StreamHub.State τ}
    (hcalls : ∃ new, hub.calls = (s.hubs k).calls ++ new) {j : ℕ} {d : Consumer κ τ} {q : ℕ}
    (hd : s.consumers[j]? = some d) (hleaving : d.stage = .leaving q) :
    (s.setHub k hub).inFlight d.hub q = false := by
  have hholds : s.Holds j d.hub d.topic q := ⟨d, hd, rfl, rfl, by rw [hleaving]; rfl⟩
  rw [State.inFlight, getElem?_setHub hcalls (h.lt_length hholds)]
  exact h.done j d q hd hleaving

/-- A consumer's call puts its queue at the end of the topic's list. -/
lemma Owned.enter {s : State κ τ} (h : Owned s) {i : ℕ} {c : Consumer κ τ}
    (hc : s.consumers[i]? = some c) (hstage : c.stage = .entering) :
    Owned ((s.setHub c.hub ((s.hubs c.hub).subscribe c.topic)).setStage i c
      (.subscribed (s.hubs c.hub).calls.length)) := by
  have hmore : ∃ new, ((s.hubs c.hub).subscribe c.topic).calls = (s.hubs c.hub).calls ++ new :=
    ⟨_, rfl⟩
  have hnone : ∀ k t q, ¬ s.Holds i k t q := by
    rintro k t q ⟨d, hd, -, -, hqueue⟩
    rw [hc] at hd
    rw [← Option.some.inj hd, hstage] at hqueue
    cases hqueue
  have hc' : (s.setHub c.hub ((s.hubs c.hub).subscribe c.topic)).consumers[i]? = some c := hc
  have hholds : ∀ j k t q, ((s.setHub c.hub ((s.hubs c.hub).subscribe c.topic)).setStage i c
      (.subscribed (s.hubs c.hub).calls.length)).Holds j k t q ↔
        s.Holds j k t q ∨
          (j = i ∧ k = c.hub ∧ t = c.topic ∧ q = (s.hubs c.hub).calls.length) := by
    intro j k t q
    rw [holds_setStage hc']
    by_cases hj : j = i
    · rw [if_pos hj, hj]
      simp only [Stage.queue, Option.some.injEq, hnone, true_and, false_or, eq_comm]
    · rw [if_neg hj]
      simp only [hj, false_and, or_false]
      exact Iff.rfl
  refine ⟨?_, ?_, ?_, ?_⟩
  · intro k t q
    rw [hubs_setStage, mem_queuesOf_subscribe, h.owners]
    simp only [hholds]
    constructor
    · rintro (⟨j, hj⟩ | hnew)
      · exact ⟨j, Or.inl hj⟩
      · exact ⟨i, Or.inr ⟨rfl, hnew⟩⟩
    · rintro ⟨j, hj | ⟨-, hnew⟩⟩
      · exact Or.inl ⟨j, hj⟩
      · exact Or.inr hnew
  · intro j j' k t t' q hj hj'
    rw [hholds] at hj hj'
    -- the new queue's number is past those that are held
    rcases hj with hj | ⟨rfl, rfl, -, rfl⟩ <;> rcases hj' with hj' | ⟨rfl, hk, -, hq⟩
    · exact h.distinct j j' k t t' q hj hj'
    · have := h.lt_length hj
      rw [hk] at this
      omega
    · have := h.lt_length hj'
      omega
    · rfl
  · intro j k t q hj
    rw [hholds] at hj
    rw [hubs_setStage]
    rcases hj with hj | ⟨-, rfl, rfl, rfl⟩
    · exact h.calls_setHub hmore hj
    · rw [hubs_setHub_self, StreamHub.topics_subscribe, List.getElem?_append_right (by simp)]
      simp
  · intro j d q hd hleaving
    rw [get_setStage hc'] at hd
    by_cases hji : j = i
    · rw [if_pos hji, Option.some.injEq] at hd
      rw [← hd] at hleaving
      cases hleaving
    · rw [if_neg hji] at hd
      exact h.done_setHub hmore hd hleaving

/-- A consumer's `unsubscribe` takes its queue from the topic's list. -/
lemma Owned.leave {P : StreamHub.Payloads τ} {s : State κ τ} (h : Owned s) {i : ℕ}
    {c : Consumer κ τ} {q : ℕ} {stage : Stage} (hc : s.consumers[i]? = some c)
    (hstage : c.stage = .leaving q) (hqueue : stage.queue = none) :
    Owned ((s.setHub c.hub ((s.hubs c.hub).unsubscribe P c.topic q)).setStage i c stage) := by
  have hsame : ∃ new, ((s.hubs c.hub).unsubscribe P c.topic q).calls =
      (s.hubs c.hub).calls ++ new := by
    refine ⟨[], ?_⟩
    rw [StreamHub.calls_unsubscribe, List.append_nil]
  have hmine : s.Holds i c.hub c.topic q := ⟨c, hc, rfl, rfl, by rw [hstage]; rfl⟩
  have hc' : (s.setHub c.hub ((s.hubs c.hub).unsubscribe P c.topic q)).consumers[i]? = some c := hc
  have hholds : ∀ j k t q', ((s.setHub c.hub ((s.hubs c.hub).unsubscribe P c.topic q)).setStage i c
      stage).Holds j k t q' ↔ j ≠ i ∧ s.Holds j k t q' := by
    intro j k t q'
    rw [holds_setStage hc', hqueue]
    by_cases hj : j = i
    · simp [hj]
    · rw [if_neg hj]
      exact ⟨fun hold => ⟨hj, hold⟩, fun hold => hold.2⟩
  -- of what the consumers hold, its own is the queue that goes
  have hother : ∀ j k t q', s.Holds j k t q' →
      (j = i ↔ k = c.hub ∧ t = c.topic ∧ q' = q) := by
    intro j k t q' hj
    constructor
    · rintro rfl
      obtain ⟨d, hd, rfl, rfl, hqueue'⟩ := hj
      rw [hc] at hd
      obtain rfl := Option.some.inj hd
      rw [hstage] at hqueue'
      exact ⟨rfl, rfl, (Option.some.inj hqueue').symm⟩
    · rintro ⟨rfl, rfl, rfl⟩
      exact h.distinct j i c.hub c.topic c.topic q' hj hmine
  refine ⟨?_, ?_, ?_, ?_⟩
  · intro k t q'
    rw [hubs_setStage, mem_queuesOf_unsubscribe, h.owners]
    simp only [hholds]
    constructor
    · rintro ⟨⟨j, hj⟩, hne⟩
      exact ⟨j, fun heq => hne ((hother j k t q' hj).mp heq), hj⟩
    · rintro ⟨j, hne, hj⟩
      exact ⟨⟨j, hj⟩, fun heq => hne ((hother j k t q' hj).mpr heq)⟩
  · intro j j' k t t' q' hj hj'
    rw [hholds] at hj hj'
    exact h.distinct j j' k t t' q' hj.2 hj'.2
  · intro j k t q' hj
    rw [hholds] at hj
    exact h.calls_setHub hsame hj.2
  · intro j d q' hd hleaving
    rw [get_setStage hc'] at hd
    by_cases hji : j = i
    · rw [if_pos hji, Option.some.injEq] at hd
      rw [← hd] at hleaving
      have hleaving : stage = .leaving q' := hleaving
      rw [hleaving] at hqueue
      cases hqueue
    · rw [if_neg hji] at hd
      exact h.done_setHub hsame hd hleaving

/-- Every step keeps the owners. -/
lemma Owned.step {P : κ → StreamHub.Payloads τ} {s s' : State κ τ} {e : Event κ τ} (h : Owned s)
    (hstep : Consumers.step P s e = some s') : Owned s' := by
  cases e with
  | start k topic =>
    obtain rfl := Option.some.inj hstep
    exact h.start k topic
  | enter i =>
    obtain ⟨c, hc, hstage, rfl⟩ := step_enter hstep
    exact h.enter hc hstage
  | hub k e =>
    obtain ⟨hmay, hub, hhub, rfl⟩ := step_hub hstep
    exact h.setHub (StreamHub.keepsTable_of_step (isOwn_of_mayRun hmay) hhub)
  | leave i =>
    obtain ⟨c, q, hub, stage, hc, hstage, hhub, hafter, rfl⟩ := step_leave hstep
    obtain ⟨-, -, -, rfl⟩ := StreamHub.step_unsubscribe hhub
    apply h.leave hc hstage
    rcases hafter with rfl | rfl <;> rfl
  | left i j =>
    obtain ⟨c, hub, hc, hstage, hhub, rfl⟩ := step_left hstep
    have hsent := h.setHub (StreamHub.keepsTable_of_step rfl hhub)
    apply hsent.setStage hc
    · rw [hstage]
      rfl
    · intro q hleaving
      cases hleaving
  | cancel i =>
    obtain ⟨c, stage, hc, hcancelled, rfl⟩ := step_cancel hstep
    apply h.setStage hc (queue_of_cancelled hcancelled)
    rintro q rfl
    rcases cancelled_cases hcancelled with ⟨-, heq⟩ | ⟨q', -, -, heq⟩ | ⟨q', -, hreads, heq⟩ |
      ⟨q', -, heq⟩
    · cases heq
    · cases heq
    · cases heq
      exact hreads
    · cases heq
  | cancelSend i j =>
    obtain ⟨c, hc, hstage, -, rfl⟩ := step_cancelSend hstep
    have hsent : Owned (s.setHub c.hub
        { s.hubs c.hub with unsubs := (s.hubs c.hub).unsubs.eraseIdx j }) :=
      h.setHub (.of_eq rfl rfl)
    apply hsent.setStage hc
    · rw [hstage]
      rfl
    · intro q hleaving
      cases hleaving

end

end Consumers
end ExchangeRouter
