import ExchangeRouter.Lib.Transition
import Mathlib.Data.List.AList
import Mathlib.Data.Nat.Notation

/-!
# `StreamManager`

The service's fan-out: one `_upstream_handler` task for each key with clients. Tasks and
clients are numbered in the order they are made, so a number stands for a `uuid4()` or a task
object and is never given twice. `_lock` guards no await, so a `subscribe`, an `unsubscribe` and
each stretch of a handler between two awaits run alone, and one event is one of them.

A cancelled task that has not run yet ends without running; one at an await gets a
`CancelledError` there, which the adapters' streams let through. `shutdown` is not modelled.
-/

namespace ExchangeRouter
namespace StreamManager

/-- Where an `_upstream_handler` task stands: not yet run, at the next item of the stream, at
the `gather` of a fan-out, at the closing of the clients it detached, or ended. -/
inductive Phase where
  | created
  | streaming
  | sending (clientItems : List ℕ)
  | closing
  | done
deriving DecidableEq, Repr

/-- The task has not come to its `finally`. -/
def Phase.beforeExit : Phase → Bool
  | created => true
  | streaming => true
  | sending _ => true
  | closing => false
  | done => false

/-- A task of `_stream_handler`: its key, its channel, and where it stands. -/
structure Handler (κ : Type*) where
  key : κ
  channel : String
  cancelled : Bool := false
  phase : Phase := .created
deriving DecidableEq, Repr

/-- A client by the key it subscribed to. `task` is the task that was registered under the key
when it was attached: no code reads it, the theorems tell one bucket of a key from the next
by it. -/
structure Client (κ : Type*) where
  key : κ
  task : Option ℕ
deriving DecidableEq, Repr

/-- The two dictionaries, the tasks and the clients ever made, and what was sent and closed:
the items that `send_text` was called with, by client, and the clients whose closing was
spawned, with the reason. -/
structure State (κ ι : Type*) where
  activeStreams : AList (fun _ : κ => List ℕ) := ∅
  upstreamTasks : AList (fun _ : κ => ℕ) := ∅
  handlers : List (Handler κ) := []
  clients : List (Client κ) := []
  sends : List (ℕ × ι) := []
  closes : List (ℕ × String) := []

/-- The stretches: the two calls, and those of a handler (`i` is its number). `item`,
`upstreamEnds` and `sent` resume it at its await, `failed` being the clients whose send raised
or timed out, and `cancelled` resumes it with a `CancelledError`. -/
inductive Event (κ ι : Type*) where
  | subscribe (key : κ) (channel : String)
  | unsubscribe (key : κ) (clientId : ℕ)
  | start (i : ℕ)
  | item (i : ℕ) (item : ι)
  | upstreamEnds (i : ℕ)
  | sent (i : ℕ) (failed : List ℕ)
  | cancelled (i : ℕ)
  | closed (i : ℕ)
deriving DecidableEq, Repr

/-- The handler whose stretch the event is. -/
def Event.handler? {κ ι : Type*} : Event κ ι → Option ℕ
  | subscribe _ _ => none
  | unsubscribe _ _ => none
  | start i => some i
  | item i _ => some i
  | upstreamEnds i => some i
  | sent i _ => some i
  | cancelled i => some i
  | closed i => some i

/-- The channels that `_upstream_handler` has a stream for. -/
def channels : List String :=
  ["ticker", "book_ticker", "mark_price", "agg_trades", "trades", "orderbook", "liquidations"]

section

variable {κ ι : Type*} [DecidableEq κ]

/-- Handler `i` is replaced. -/
def State.setHandler (s : State κ ι) (i : ℕ) (h : Handler κ) : State κ ι :=
  { s with handlers := s.handlers.set i h }

/-- `active_streams.pop(key, None)` and `upstream_tasks.pop(key, None)`. -/
def State.drop (s : State κ ι) (key : κ) : State κ ι :=
  { s with activeStreams := s.activeStreams.erase key, upstreamTasks := s.upstreamTasks.erase key }

/-- The clients under a key. -/
def State.attached (s : State κ ι) (key : κ) : List ℕ := (s.activeStreams.lookup key).getD []

/-! ## `subscribe` and `unsubscribe` -/

/-- A new client under the key, and a new task where it is the first. -/
def State.subscribe (s : State κ ι) (key : κ) (channel : String) : State κ ι :=
  let clientId := s.clients.length
  match s.activeStreams.lookup key with
  | none =>
    { s with
      activeStreams := s.activeStreams.insert key [clientId]
      upstreamTasks := s.upstreamTasks.insert key s.handlers.length
      handlers := s.handlers ++ [{ key := key, channel := channel }]
      clients := s.clients ++ [⟨key, some s.handlers.length⟩] }
  | some bucket =>
    { s with
      activeStreams := s.activeStreams.insert key (bucket ++ [clientId])
      clients := s.clients ++ [⟨key, s.upstreamTasks.lookup key⟩] }

/-- `task.cancel()`. -/
def State.cancel (s : State κ ι) (task : Option ℕ) : State κ ι :=
  match task with
  | none => s
  | some i =>
    match s.handlers[i]? with
    | none => s
    | some h => s.setHandler i { h with cancelled := true }

/-- `unsubscribe`, the wait for the cancelled task left out: nothing follows it. -/
def State.unsubscribe (s : State κ ι) (key : κ) (clientId : ℕ) : State κ ι :=
  match s.activeStreams.lookup key with
  | none => s
  | some bucket =>
    let rest := bucket.erase clientId
    if rest = [] then (s.drop key).cancel (s.upstreamTasks.lookup key)
    else { s with activeStreams := s.activeStreams.insert key rest }

/-! ## `_upstream_handler` -/

/-- The `finally` clause up to its await, or to the end. -/
def State.exit (s : State κ ι) (i : ℕ) (h : Handler κ) : State κ ι :=
  if s.upstreamTasks.lookup h.key = some i then
    let bucket := s.attached h.key
    { s.drop h.key with
      closes := s.closes ++ bucket.map fun client => (client, "Upstream disconnected") }.setHandler
        i { h with phase := if bucket = [] then .done else .closing }
  else s.setHandler i { h with phase := .done }

/-- The first stretch: the stream of the channel, or `return`. -/
def State.start (s : State κ ι) (i : ℕ) (h : Handler κ) : State κ ι :=
  if h.channel ∈ channels then s.setHandler i { h with phase := .streaming } else s.exit i h

/-- An item of the stream, up to the `gather`. -/
def State.item (s : State κ ι) (i : ℕ) (h : Handler κ) (item : ι) : State κ ι :=
  let bucket := s.attached h.key
  -- `if not bucket: break`
  if bucket = [] then s.exit i h
  else
    { s with sends := s.sends ++ bucket.map fun client => (client, item) }.setHandler i
      { h with phase := .sending bucket }

/-- The clients whose send failed taken out of the bucket under the key, and the key with its
last one. Says whether it was. -/
def State.dropDead (s : State κ ι) (key : κ) (dead : List ℕ) : State κ ι × Bool :=
  match s.activeStreams.lookup key with
  | none => (s, false)
  | some current =>
    let rest := current.filter (· ∉ dead)
    if rest = [] then (s.drop key, true)
    else ({ s with activeStreams := s.activeStreams.insert key rest }, false)

/-- The `gather` returned: from the dead clients to the next item, or out of the loop. -/
def State.sent (s : State κ ι) (i : ℕ) (h : Handler κ) (clientItems failed : List ℕ) :
    State κ ι :=
  let dead := clientItems.filter (· ∈ failed)
  if dead = [] then s.setHandler i { h with phase := .streaming }
  else
    let out := { s with
      closes := s.closes ++ dead.map fun client => (client, "Send timeout") }.dropDead h.key dead
    -- `if emptied: break`
    if out.2 then out.1.exit i h else out.1.setHandler i { h with phase := .streaming }

/-- A task resumed with a `CancelledError`. -/
def State.cancelled (s : State κ ι) (i : ℕ) (h : Handler κ) : State κ ι :=
  if h.phase = .created then s.setHandler i { h with phase := .done } else s.exit i h

/-! ## The step -/

/-- A cancelled handler is resumed with its `CancelledError` and not with what it waited for. -/
def step (s : State κ ι) : Event κ ι → Option (State κ ι)
  | .subscribe key channel => some (s.subscribe key channel)
  | .unsubscribe key clientId => some (s.unsubscribe key clientId)
  | .start i =>
    match s.handlers[i]? with
    | some h => if h.phase = .created ∧ h.cancelled = false then some (s.start i h) else none
    | none => none
  | .item i item =>
    match s.handlers[i]? with
    | some h => if h.phase = .streaming ∧ h.cancelled = false then some (s.item i h item) else none
    | none => none
  | .upstreamEnds i =>
    match s.handlers[i]? with
    | some h => if h.phase = .streaming ∧ h.cancelled = false then some (s.exit i h) else none
    | none => none
  | .sent i failed =>
    match s.handlers[i]? with
    | some h =>
      match h.phase with
      | .sending clientItems =>
        if h.cancelled = false then some (s.sent i h clientItems failed) else none
      | _ => none
    | none => none
  | .cancelled i =>
    match s.handlers[i]? with
    | some h =>
      if h.phase.beforeExit = true ∧ h.cancelled = true then some (s.cancelled i h) else none
    | none => none
  | .closed i =>
    match s.handlers[i]? with
    | some h => if h.phase = .closing then some (s.setHandler i { h with phase := .done }) else none
    | none => none

end

end StreamManager
end ExchangeRouter
