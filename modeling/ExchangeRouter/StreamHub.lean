import ExchangeRouter.Lib.Transition
import Mathlib.Data.Finset.Dedup
import Mathlib.Data.Finset.Basic
import Mathlib.Data.List.AList
import Mathlib.Data.Nat.Notation

/-!
# `StreamHub`

The hub is one event loop's coroutines over shared fields: the `subscribe` and `unsubscribe`
calls and the `_run` task. No coroutine awaits while it holds `_lock`, so what runs between
two awaits runs alone, and one event is one such stretch. The awaits are `_connect`, the wait
for `_connected`, each `ws.send`, the receive loop, and the closing and sleeping before a
reconnect.

Sockets are numbered in the order they are opened, and the frames that went out on an open
socket are kept in one log, in the order they were sent. `close` is not modelled, so a `_run`
task never ends.
-/

namespace ExchangeRouter
namespace StreamHub

/-- A frame the hub sends, by the topics it names. -/
inductive Frame (τ : Type*) where
  | subscribe (topics : List τ)
  | unsubscribe (topics : List τ)
deriving DecidableEq, Repr

/-- The callbacks `subscribe_payload` and `unsubscribe_payload`: the topics each of their
payloads names. An adapter batches or sends one payload a topic. -/
structure Payloads (τ : Type*) where
  subscribe : List τ → List (List τ)
  unsubscribe : List τ → List (List τ)
  mem_subscribe : ∀ topics t, t ∈ (subscribe topics).flatten ↔ t ∈ topics
  subscribe_one : ∀ t, subscribe [t] = [[t]]
  unsubscribe_one : ∀ t, unsubscribe [t] = [[t]]

/-- One payload for all topics, as Binance, Bybit and OKX send. -/
def Payloads.batched (τ : Type*) : Payloads τ where
  subscribe := fun topics => [topics]
  unsubscribe := fun topics => [topics]
  mem_subscribe := by simp
  subscribe_one := fun _ => rfl
  unsubscribe_one := fun _ => rfl

/-- One payload for each topic, as Hyperliquid, Kraken and KuCoin send. -/
def Payloads.perTopic (τ : Type*) : Payloads τ where
  subscribe := fun topics => topics.map fun t => [t]
  unsubscribe := fun topics => topics.map fun t => [t]
  mem_subscribe := by simp
  subscribe_one := fun _ => rfl
  unsubscribe_one := fun _ => rfl

/-- A coroutine at `ws.send` in `_send_payloads`: its socket, and the payloads after the one
that is on its way. -/
structure Sending (τ : Type*) where
  ws : ℕ
  rest : List (List τ)
deriving DecidableEq, Repr

/-- Where a `subscribe` call stands. A waiting call is woken by `_connected.set()`, and stays
so when `_connected` is cleared before it runs. -/
inductive Phase (τ : Type*) where
  | waiting (woken : Bool)
  | sending (job : Sending τ)
  | returned
  | timedOut
deriving DecidableEq, Repr

/-- The call waits for `_connected`. -/
def Phase.isWaiting {τ : Type*} : Phase τ → Bool
  | waiting _ => true
  | _ => false

/-- The call has its queue in the table and has not handed it out. -/
def Phase.inFlight {τ : Type*} : Phase τ → Bool
  | waiting _ => true
  | sending _ => true
  | _ => false

/-- The call as `_send_payloads` awaits or returns. -/
def Phase.ofSending {τ : Type*} : Option (Sending τ) → Phase τ
  | some job => sending job
  | none => returned

/-- A `subscribe` call. `registeredAt` is how many frames had been sent when it put its queue
in the table. -/
structure Call (τ : Type*) where
  topic : τ
  isNewTopic : Bool
  registeredAt : ℕ
  phase : Phase τ
deriving DecidableEq, Repr

/-- `_connected.set()`, for one call. -/
def Call.wake {τ : Type*} (call : Call τ) : Call τ :=
  if call.phase.isWaiting then { call with phase := .waiting true } else call

/-- Where a `_run` task stands. `closing` is from the `finally` to the next `_connect`. -/
inductive RunPhase (τ : Type*) where
  | connecting
  | resubscribing (job : Sending τ)
  | receiving (ws : ℕ)
  | closing
deriving DecidableEq, Repr

/-- `_run` resends the subscriptions. -/
def RunPhase.isResubscribing {τ : Type*} : RunPhase τ → Bool
  | resubscribing _ => true
  | _ => false

/-- The hub, its calls and its sockets. A queue is named by the number of the call that made
it. `unsubs` are the `unsubscribe` calls at their send, and `sockets` says of each socket
whether it is up. -/
structure State (τ : Type*) where
  queues : AList (fun _ : τ => List ℕ) := ∅
  subscribedTopics : Finset τ := ∅
  connected : Bool := false
  ws : Option ℕ := none
  task : Option ℕ := none
  runs : List (RunPhase τ) := []
  calls : List (Call τ) := []
  unsubs : List (Sending τ) := []
  sockets : List Bool := []
  wire : List (ℕ × Frame τ) := []

/-- The stretches: those of `subscribe`, those of `unsubscribe`, those of `_run`, and a socket
going down. -/
inductive Event (τ : Type*) where
  | subscribe (topic : τ)
  | proceed (i : ℕ)
  | timeout (i : ℕ)
  | sent (i : ℕ)
  | unsubscribe (topic : τ) (q : ℕ)
  | unsubscribeSent (j : ℕ)
  | connect (k : ℕ)
  | connectFails (k : ℕ)
  | resubscribed (k : ℕ)
  | disconnected (k : ℕ)
  | retry (k : ℕ)
  | drop (ws : ℕ)
deriving DecidableEq, Repr

section

variable {τ : Type*}

/-! ## Sending -/

/-- The socket is open. -/
def State.isUp (s : State τ) (ws : ℕ) : Bool := s.sockets.getD ws false

/-- `ws.send`: the log after it. A frame goes out when the socket is up. -/
def State.transmit (s : State τ) (ws : ℕ) (frame : Frame τ) : List (ℕ × Frame τ) :=
  if s.isUp ws then s.wire ++ [(ws, frame)] else s.wire

/-- The loop of `_send_payloads` up to its next await: the log after it, and where the
coroutine waits. A send on a socket that is down raises, and the loop returns. -/
def State.sendNext (s : State τ) (ws : ℕ) (frame : List τ → Frame τ) :
    List (List τ) → List (ℕ × Frame τ) × Option (Sending τ)
  | [] => (s.wire, none)
  | topics :: rest =>
    (s.transmit ws (frame topics), some ⟨ws, if s.isUp ws then rest else []⟩)

/-- `_send_payloads` up to its first await. -/
def State.sendPayloads (s : State τ) (frame : List τ → Frame τ) (payloads : List (List τ)) :
    List (ℕ × Frame τ) × Option (Sending τ) :=
  match s.ws with
  | none => (s.wire, none)
  | some ws => s.sendNext ws frame payloads

/-! ## `subscribe` and `unsubscribe` -/

/-- Call `i` comes to `phase`. -/
def State.setPhase (s : State τ) (i : ℕ) (call : Call τ) (phase : Phase τ) : State τ :=
  { s with calls := s.calls.set i { call with phase := phase } }

/-- The tasks after `create_task(self._run())`, if there was none. -/
def State.startRun (s : State τ) : List (RunPhase τ) :=
  match s.task with
  | none => s.runs ++ [.connecting]
  | some _ => s.runs

variable [DecidableEq τ]

/-- `_queues.get(topic) or []`. -/
def State.queuesOf (s : State τ) (topic : τ) : List ℕ := (s.queues.lookup topic).getD []

/-- `subscribe` up to the wait for `_connected`, or to its return. -/
def State.subscribe (s : State τ) (topic : τ) : State τ :=
  let isNewTopic := !(s.queues.lookup topic).isSome
  let call : Call τ :=
    { topic := topic
      isNewTopic := isNewTopic
      registeredAt := s.wire.length
      phase := if isNewTopic then .waiting s.connected else .returned }
  { s with
    queues := s.queues.insert topic (s.queuesOf topic ++ [s.calls.length])
    calls := s.calls ++ [call]
    task := some (s.task.getD s.runs.length)
    runs := s.startRun }

/-- `subscribe` past the wait. -/
def State.proceed (P : Payloads τ) (s : State τ) (i : ℕ) (call : Call τ) : State τ :=
  -- another call or the resubscription has taken the topic
  if call.topic ∈ s.subscribedTopics then s.setPhase i call .returned
  else
    let out := s.sendPayloads .subscribe (P.subscribe [call.topic])
    { s with
      subscribedTopics := insert call.topic s.subscribedTopics
      wire := out.1 }.setPhase i call (.ofSending out.2)

/-- `subscribe` as its `ws.send` returns. -/
def State.sent (s : State τ) (i : ℕ) (call : Call τ) (job : Sending τ) : State τ :=
  let out := s.sendNext job.ws .subscribe job.rest
  { s with wire := out.1 }.setPhase i call (.ofSending out.2)

/-- The queues of the topic but `q`. -/
def State.others (s : State τ) (topic : τ) (q : ℕ) : List ℕ :=
  (s.queuesOf topic).filter (· ≠ q)

/-- `unsubscribe` up to its send, or to its return. -/
def State.unsubscribe (P : Payloads τ) (s : State τ) (topic : τ) (q : ℕ) : State τ :=
  if s.others topic q ≠ [] then { s with queues := s.queues.insert topic (s.others topic q) }
  else
    let out :=
      -- `if drop_topic and self._connected.is_set()`
      if s.connected then s.sendPayloads .unsubscribe (P.unsubscribe [topic])
      else (s.wire, none)
    { s with
      queues := s.queues.erase topic
      subscribedTopics := s.subscribedTopics.erase topic
      wire := out.1
      unsubs := s.unsubs ++ out.2.toList }

/-- `unsubscribe` as its `ws.send` returns. -/
def State.unsubscribeSent (s : State τ) (j : ℕ) (job : Sending τ) : State τ :=
  let out := s.sendNext job.ws .unsubscribe job.rest
  { s with wire := out.1, unsubs := s.unsubs.eraseIdx j ++ out.2.toList }

/-! ## `_run` -/

/-- Task `k` comes to `phase`. -/
def State.setRun (s : State τ) (k : ℕ) (phase : RunPhase τ) : State τ :=
  { s with runs := s.runs.set k phase }

/-- `_run` as `_send_payloads` awaits, or returns: `_connected.set()` wakes the waiting calls
and the receive loop begins. -/
def State.afterResubscribe (s : State τ) (k : ℕ) (ws : ℕ) : Option (Sending τ) → State τ
  | some job => s.setRun k (.resubscribing job)
  | none => { s with connected := true, calls := s.calls.map Call.wake }.setRun k (.receiving ws)

/-- The hub with the socket that `_connect` returned, and its topics taken as subscribed. -/
def State.opened (s : State τ) : State τ :=
  { s with
    sockets := s.sockets ++ [true]
    ws := some s.sockets.length
    subscribedTopics := s.queues.keys.toFinset }

/-- `_run` as `_connect` returns a socket. -/
def State.connect (P : Payloads τ) (s : State τ) (k : ℕ) : State τ :=
  let topics := s.queues.keys
  let out :=
    -- the payloads name every topic of the table at this moment
    if topics.isEmpty then (s.wire, none)
    else s.opened.sendPayloads .subscribe (P.subscribe topics)
  { s.opened with wire := out.1 }.afterResubscribe k s.sockets.length out.2

/-- `_run` as a `ws.send` of the resubscription returns. -/
def State.resubscribed (s : State τ) (k : ℕ) (job : Sending τ) : State τ :=
  let out := s.sendNext job.ws .subscribe job.rest
  { s with wire := out.1 }.afterResubscribe k job.ws out.2

/-- The receive loop ends or raises: the `finally` clears the event and the socket, and closes
the socket. -/
def State.disconnected (s : State τ) (k : ℕ) (ws : ℕ) : State τ :=
  { s with connected := false, ws := none, sockets := s.sockets.set ws false }.setRun k .closing

/-! ## The step -/

/-- A call that is `waiting` has passed its wait once it is woken, and may time out before
that or as it is woken. `unsubscribe` gets a queue that a `subscribe` has handed out. -/
def step (P : Payloads τ) (s : State τ) : Event τ → Option (State τ)
  | .subscribe topic => some (s.subscribe topic)
  | .proceed i =>
    match s.calls[i]? with
    | some call => if call.phase = .waiting true then some (s.proceed P i call) else none
    | none => none
  | .timeout i =>
    match s.calls[i]? with
    | some call => if call.phase.isWaiting then some (s.setPhase i call .timedOut) else none
    | none => none
  | .sent i =>
    match s.calls[i]? with
    | some call =>
      match call.phase with
      | .sending job => some (s.sent i call job)
      | _ => none
    | none => none
  | .unsubscribe topic q =>
    match s.calls[q]? with
    | some call => if call.phase.inFlight then none else some (s.unsubscribe P topic q)
    | none => none
  | .unsubscribeSent j =>
    match s.unsubs[j]? with
    | some job => some (s.unsubscribeSent j job)
    | none => none
  | .connect k => if s.runs[k]? = some .connecting then some (s.connect P k) else none
  | .connectFails k =>
    if s.runs[k]? = some .connecting then some (s.setRun k .closing) else none
  | .resubscribed k =>
    match s.runs[k]? with
    | some (.resubscribing job) => some (s.resubscribed k job)
    | _ => none
  | .disconnected k =>
    match s.runs[k]? with
    | some (.receiving ws) => some (s.disconnected k ws)
    | _ => none
  | .retry k => if s.runs[k]? = some .closing then some (s.setRun k .connecting) else none
  | .drop ws => some { s with sockets := s.sockets.set ws false }

/-! ## Who opened a topic -/

/-- The topic of a call, and whether it found no queue of it. -/
def Call.opening (call : Call τ) : τ × Bool := (call.topic, call.isNewTopic)

/-- Call `i` made the topic's entry in the table: it found none, no call since did, and no queue of
the topic in the table is older. -/
def State.Opener (s : State τ) (topic : τ) (i : ℕ) : Prop :=
  (s.calls.map Call.opening)[i]? = some (topic, true) ∧
    (∀ j, i < j → (s.calls.map Call.opening)[j]? ≠ some (topic, true)) ∧
    ∀ q ∈ s.queuesOf topic, i ≤ q

/-! ## What is subscribed upstream -/

/-- What a frame does to the topics subscribed on the socket it is sent on. -/
def Frame.apply (topics : Finset τ) : Frame τ → Finset τ
  | subscribe ts => topics ∪ ts.toFinset
  | unsubscribe ts => topics \ ts.toFinset

/-- The topics subscribed on a socket after the frames of the log. -/
def upstream (wire : List (ℕ × Frame τ)) (ws : ℕ) : Finset τ :=
  ((wire.filter fun entry => entry.1 = ws).map Prod.snd).foldl Frame.apply ∅

/-- The hub's socket, up. -/
def State.Live (s : State τ) (ws : ℕ) : Prop := s.ws = some ws ∧ s.isUp ws = true

/-- The hub has a socket, and it is open. -/
def State.isLive (s : State τ) : Bool := s.ws.any s.isUp

/-- No call is between its registration and its end, and `_run` sends nothing. -/
def State.Quiet (s : State τ) : Prop :=
  (∀ call ∈ s.calls, call.phase.inFlight = false) ∧ s.unsubs = [] ∧
    ∀ phase ∈ s.runs, phase.isResubscribing = false

/-- The steps that leave a live socket out of step with the table. A resubscription is under
way and the last queue of a topic it took is dropped: no UNSUBSCRIBE follows. Or a call times
out whose topic came after the resubscription took the topics: no SUBSCRIBE follows. -/
def State.missed (s : State τ) : Event τ → Bool
  | .unsubscribe topic q =>
    s.isLive && !s.connected && decide (topic ∈ s.subscribedTopics) && (s.others topic q).isEmpty
  | .timeout i => s.isLive && s.calls[i]?.any fun call => decide (call.topic ∉ s.subscribedTopics)
  | _ => false

/-- A SUBSCRIBE for the topic went out on the socket, as frame number `n` of the log or
later. -/
def SubscribedSince (wire : List (ℕ × Frame τ)) (ws : ℕ) (n : ℕ) (t : τ) : Prop :=
  ∃ ts, (ws, Frame.subscribe ts) ∈ wire.drop n ∧ t ∈ ts

end

end StreamHub
end ExchangeRouter
