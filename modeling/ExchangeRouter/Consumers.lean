import ExchangeRouter.Errors
import ExchangeRouter.StreamHub
import Mathlib.Data.Finset.Card
import Mathlib.Logic.Function.Basic

/-!
# The consumers of the hubs

A consumer is one `_ws_connect` generator. It gets a hub, calls `hub.subscribe(topic)`, reads
its queue inside a `try`, and calls `hub.unsubscribe(topic, q)` in the `finally`. Every await
of it is a place where it may be cancelled, so its stretches are those between two awaits, and
`cancel` strikes it at the await where it stands.

Five adapters choose a hub by a key, such as the market type or the address. Hyperliquid
assigns a topic to a hub on the first use and counts the consumers that refer to it. Its hubs
are those of its slots, and its machine moves the consumers of the other one.

A generator is listed from the moment it got its hub; before that it has changed nothing here.
-/

namespace ExchangeRouter
namespace Consumers

/-- The await a generator stands at. A queue is named by the number of the `subscribe` call
that made it. -/
inductive Stage where
  /-- `async with self._lock` of `subscribe`. -/
  | entering
  /-- Inside `subscribe` while that call is in flight, and then at `q.get()` or the `yield`. -/
  | subscribed (q : ℕ)
  /-- `async with self._lock` of `unsubscribe`. -/
  | leaving (q : ℕ)
  /-- The send of `unsubscribe`. -/
  | dropping
  /-- `unsubscribe` has returned. -/
  | released
  | ended
  /-- Cancelled ahead of the `try` or inside the `finally`, and the queue it left. -/
  | cancelled (left : Option ℕ)
deriving DecidableEq, Repr

/-- The generator has nothing more to do, once `unsubscribe` has returned. -/
def Stage.isOver : Stage → Bool
  | released => true
  | ended => true
  | cancelled _ => true
  | _ => false

/-- The queue that the generator has in the table. -/
def Stage.queue : Stage → Option ℕ
  | subscribed q => some q
  | leaving q => some q
  | cancelled left => left
  | _ => none

/-- A `_consume` generator: its hub, its topic and where it stands. -/
structure Consumer (κ τ : Type*) where
  hub : κ
  topic : τ
  stage : Stage
deriving DecidableEq, Repr

/-- The hubs of an adapter by their key, and its generators in the order they got a hub. A hub
that was not made yet is as a new one. -/
structure State (κ τ : Type*) where
  hubs : κ → StreamHub.State τ := fun _ => {}
  consumers : List (Consumer κ τ) := []

/-- The stretches of consumer `i`, those of a hub's `_run` and of the calls on it, and a
cancellation. `j` is the place of a send among the hub's. -/
inductive Event (κ τ : Type*) where
  | start (k : κ) (topic : τ)
  | enter (i : ℕ)
  | hub (k : κ) (e : StreamHub.Event τ)
  | leave (i : ℕ)
  | left (i j : ℕ)
  | cancel (i : ℕ)
  | cancelSend (i j : ℕ)
deriving DecidableEq, Repr

section

variable {κ τ : Type*}

/-- The call that made the queue has not returned. -/
def State.inFlight (s : State κ τ) (k : κ) (q : ℕ) : Bool :=
  (s.hubs k).calls[q]?.any fun call => call.phase.inFlight

/-- Consumer `i` comes to `stage`. -/
def State.setStage (s : State κ τ) (i : ℕ) (c : Consumer κ τ) (stage : Stage) : State κ τ :=
  { s with consumers := s.consumers.set i { c with stage := stage } }

/-- Where a cancellation takes the generator: what is before the `try` and what is in the
`finally` have no handler. -/
def State.cancelled (s : State κ τ) (c : Consumer κ τ) : Option Stage :=
  match c.stage with
  | .entering => some (.cancelled none)
  | .subscribed q => if s.inFlight c.hub q then some (.cancelled (some q)) else some (.leaving q)
  | .leaving q => some (.cancelled (some q))
  | _ => none

variable [DecidableEq κ]

/-- The hub under a key after a step of its own. -/
def State.setHub (s : State κ τ) (k : κ) (hub : StreamHub.State τ) : State κ τ :=
  { s with hubs := Function.update s.hubs k hub }

/-- The consumer is past `subscribe`'s first lock on hub `k`, with queue `q`. -/
def Consumer.reads (c : Consumer κ τ) (k : κ) (q : ℕ) : Bool :=
  decide (c.hub = k ∧ c.stage = .subscribed q)

/-- The stretches a hub makes for itself, and those of a call whose consumer is still in it. -/
def State.mayRun (s : State κ τ) (k : κ) : StreamHub.Event τ → Bool
  | .subscribe _ => false
  | .unsubscribe _ _ => false
  | .unsubscribeSent _ => false
  | .proceed q => s.consumers.any fun c => c.reads k q
  | .timeout q => s.consumers.any fun c => c.reads k q
  | .sent q => s.consumers.any fun c => c.reads k q
  | _ => true

variable [DecidableEq τ]

/-- The hub makes a stretch. -/
def State.stepHub (P : κ → StreamHub.Payloads τ) (s : State κ τ) (k : κ)
    (e : StreamHub.Event τ) : Option (State κ τ) :=
  (StreamHub.step (P k) (s.hubs k) e).map (s.setHub k)

/-- `hub.subscribe(topic)` up to its first wait, or to its return. -/
def State.enter (P : κ → StreamHub.Payloads τ) (s : State κ τ) (i : ℕ) (c : Consumer κ τ) :
    Option (State κ τ) :=
  (s.stepHub P c.hub (.subscribe c.topic)).map fun s' =>
    s'.setStage i c (.subscribed (s.hubs c.hub).calls.length)

/-- `hub.unsubscribe(topic, q)` past its lock, up to its send or to its return. -/
def State.leave (P : κ → StreamHub.Payloads τ) (s : State κ τ) (i : ℕ) (c : Consumer κ τ)
    (q : ℕ) : Option (State κ τ) :=
  (s.stepHub P c.hub (.unsubscribe c.topic q)).map fun s' =>
    s'.setStage i c
      (if (s.hubs c.hub).unsubs.length < (s'.hubs c.hub).unsubs.length then .dropping
        else .released)

/-- The send of `unsubscribe` ends by a cancellation: its payload has gone out. -/
def State.cancelSend (s : State κ τ) (i j : ℕ) (c : Consumer κ τ) : State κ τ :=
  let hub := s.hubs c.hub
  (s.setHub c.hub { hub with unsubs := hub.unsubs.eraseIdx j }).setStage i c (.cancelled none)

/-- A step of the consumers and their hubs, `none` where the event cannot happen. -/
def step (P : κ → StreamHub.Payloads τ) (s : State κ τ) : Event κ τ → Option (State κ τ)
  | .start k topic => some { s with consumers := s.consumers ++ [⟨k, topic, .entering⟩] }
  | .enter i =>
    match s.consumers[i]? with
    | some c => if c.stage = .entering then s.enter P i c else none
    | none => none
  | .hub k e => if s.mayRun k e then s.stepHub P k e else none
  | .leave i =>
    match s.consumers[i]? with
    | some c =>
      match c.stage with
      | .leaving q => s.leave P i c q
      | _ => none
    | none => none
  | .left i j =>
    match s.consumers[i]? with
    | some c =>
      if c.stage = .dropping then
        (s.stepHub P c.hub (.unsubscribeSent j)).map fun s' => s'.setStage i c .released
      else none
    | none => none
  | .cancel i =>
    match s.consumers[i]? with
    | some c => (s.cancelled c).map (s.setStage i c)
    | none => none
  | .cancelSend i j =>
    match s.consumers[i]? with
    | some c =>
      if c.stage = .dropping ∧ j < (s.hubs c.hub).unsubs.length then some (s.cancelSend i j c)
      else none
    | none => none

/-! ## What is left behind -/

/-- The steps that leave something behind: a cancellation inside `subscribe` after the queue is
in the table, one at the lock of `unsubscribe`, and an `unsubscribe` that `StreamHub` misses,
when the last consumer of a topic goes while the hub resubscribes it. -/
def State.strands (s : State κ τ) : Event κ τ → Bool
  | .cancel i =>
    match s.consumers[i]? with
    | some c => match s.cancelled c with
      | some (.cancelled (some _)) => true
      | _ => false
    | none => false
  | .leave i =>
    match s.consumers[i]? with
    | some c => match c.stage with
      | .leaving q => (s.hubs c.hub).missed (.unsubscribe c.topic q)
      | _ => false
    | none => false
  | _ => false

/-- All generators are over. -/
def State.Over (s : State κ τ) : Prop := ∀ c ∈ s.consumers, c.stage.isOver = true

/-- Nothing was left behind: no queue once all consumers are over, on no socket a topic without
a consumer, and on a connected hub no reader whose topic was not sent. Such a reader has another
consumer that is about to send it, or the call that opened the topic's entry in the table, with the
reader's queue in it, gave up on the connection. -/
structure State.LeakFree (s : State κ τ) : Prop where
  queues : s.Over → ∀ k, (s.hubs k).queues = ∅
  upstream : ∀ k ws, (s.hubs k).Live ws → ∀ t ∈ StreamHub.upstream (s.hubs k).wire ws,
    ∃ c ∈ s.consumers, c.hub = k ∧ c.topic = t ∧ c.stage.isOver = false
  served : ∀ c ∈ s.consumers, ∀ q, c.stage = .subscribed q → s.inFlight c.hub q = false →
    ∀ ws, (s.hubs c.hub).Live ws → (s.hubs c.hub).connected = true →
      c.topic ∈ StreamHub.upstream (s.hubs c.hub).wire ws ∨
      (∃ d ∈ s.consumers, d.hub = c.hub ∧ d.topic = c.topic ∧
        ∃ q', d.stage = .subscribed q' ∧ s.inFlight c.hub q' = true) ∨
      ∃ i call, (s.hubs c.hub).Opener c.topic i ∧ (s.hubs c.hub).calls[i]? = some call ∧
        call.phase = .timedOut

end

/-! ## Hyperliquid -/

namespace Hyperliquid

/-- `_MAX_SUBS_PER_HUB`. -/
def maxSubsPerHub : ℕ := 900

/-- `_MAX_HUBS`. -/
def maxHubs : ℕ := 10

/-- The adapter's tables beside its hubs: the topics of each slot, and for each topic its hub,
its argument and how many consumers refer to it. A hub is named by its slot's place. -/
structure State (τ α : Type*) where
  base : Consumers.State ℕ τ := {}
  slots : List (Finset τ) := []
  topicHub : AList (fun _ : τ => ℕ) := ∅
  topicArgs : AList (fun _ : τ => α) := ∅
  topicRefs : AList (fun _ : τ => ℤ) := ∅

/-- The stretches: a generator's `_acquire_topic`, those of the generators up to the return of
`hub.unsubscribe`, the rest of `_release_topic`, and a cancellation at its lock. -/
inductive Event (τ α : Type*) where
  | acquire (topic : τ) (subArg : α)
  | inner (e : Consumers.Event ℕ τ)
  | release (i : ℕ)
  | cancelRelease (i : ℕ)
deriving DecidableEq, Repr

section

variable {τ α : Type*} [DecidableEq τ]

/-- The slot of `_acquire_topic` for a topic without a hub: the first with room, or a new
one. -/
def State.freeSlot (s : State τ α) : Except Fault (List (Finset τ) × ℕ) :=
  match s.slots.findIdx? fun topics => topics.card < maxSubsPerHub with
  | some k => .ok (s.slots, k)
  | none =>
    if maxHubs ≤ s.slots.length then
      .error (.upstreamUnavailable "Hyperliquid WS subscription capacity reached" none)
    else .ok (s.slots ++ [∅], s.slots.length)

/-- The part of `_acquire_topic` that finds the hub. -/
def State.assign (s : State τ α) (topic : τ) : Except Fault (State τ α × ℕ) :=
  match s.topicHub.lookup topic with
  | some k => .ok (s, k)
  | none =>
    match s.freeSlot with
    | .ok (slots, k) =>
      .ok ({ s with
        slots := slots.modify k (insert topic)
        topicHub := s.topicHub.insert topic k }, k)
    | .error e => .error e

/-- `_acquire_topic`. -/
def State.acquireTopic (s : State τ α) (topic : τ) (subArg : α) :
    Except Fault (State τ α × ℕ) :=
  match s.assign topic with
  | .ok (s', k) =>
    .ok ({ s' with
      topicArgs := s'.topicArgs.insert topic subArg
      topicRefs := s'.topicRefs.insert topic ((s'.topicRefs.lookup topic).getD 0 + 1) }, k)
  | .error e => .error e

/-- `_release_topic` past `hub.unsubscribe`. -/
def State.releaseTopic (s : State τ α) (topic : τ) : State τ α :=
  let refs := (s.topicRefs.lookup topic).getD 1 - 1
  if refs ≤ 0 then
    { s with
      topicRefs := s.topicRefs.erase topic
      topicArgs := s.topicArgs.erase topic
      topicHub := s.topicHub.erase topic
      slots :=
        match s.topicHub.lookup topic with
        | some k => s.slots.modify k fun topics => topics.erase topic
        | none => s.slots }
  else { s with topicRefs := s.topicRefs.insert topic refs }

/-- `_sub_payload` and `_unsub_payload`: the arguments of the topics that have one. -/
def State.subPayload (s : State τ α) (topics : List τ) : List α :=
  topics.filterMap fun t => s.topicArgs.lookup t

/-- Consumer `i` ends; the adapter's tables stay. -/
def State.endConsumer (s : State τ α) (i : ℕ) (c : Consumer ℕ τ) (stage : Stage) : State τ α :=
  { s with base := s.base.setStage i c stage }

/-- A generator that `_acquire_topic` refuses ends there. The hubs send one payload a topic, as
`_sub_payload` does for topics that have an argument. -/
def step (s : State τ α) : Event τ α → Option (State τ α)
  | .acquire topic subArg =>
    match s.acquireTopic topic subArg with
    | .ok (s', k) =>
      some { s' with base.consumers := s.base.consumers ++ [⟨k, topic, .entering⟩] }
    | .error _ => some s
  | .inner (.start _ _) => none
  | .inner e =>
    (Consumers.step (fun _ => .perTopic τ) s.base e).map fun base => { s with base := base }
  | .release i =>
    match s.base.consumers[i]? with
    | some c =>
      if c.stage = .released then some ((s.releaseTopic c.topic).endConsumer i c .ended) else none
    | none => none
  | .cancelRelease i =>
    match s.base.consumers[i]? with
    | some c =>
      if c.stage = .released then some (s.endConsumer i c (.cancelled none)) else none
    | none => none

/-- The steps that leave something behind: those of the consumers, and any other cancellation
between the assignment of the topic and the `try`, or inside the `finally`. -/
def State.strands (s : State τ α) : Event τ α → Bool
  | .inner (.cancel i) =>
    match s.base.consumers[i]? with
    | some c => match s.base.cancelled c with
      | some (.cancelled _) => true
      | _ => false
    | none => false
  | .inner (.cancelSend _ _) => true
  | .inner e => s.base.strands e
  | .cancelRelease _ => true
  | _ => false

/-- All generators are over. -/
def State.Over (s : State τ α) : Prop :=
  ∀ c ∈ s.base.consumers, c.stage = .ended ∨ ∃ left, c.stage = .cancelled left

/-- The tables have nothing left in them. -/
structure State.TablesEmpty (s : State τ α) : Prop where
  refs : s.topicRefs = ∅
  args : s.topicArgs = ∅
  hubs : s.topicHub = ∅
  slots : ∀ topics ∈ s.slots, topics = ∅

end

end Hyperliquid

end Consumers
end ExchangeRouter
