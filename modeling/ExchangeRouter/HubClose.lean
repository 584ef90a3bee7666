import ExchangeRouter.StreamHub

/-!
# Closing a hub

`StreamHub.lean` leaves out `close` and the keepalive loop. Here is the machine with both. `close`
cancels the `_run` task, which gets a `CancelledError` at whatever await it stands, and waits for
its end. A connection's keepalive loop begins with `_connected.set()` and is cancelled in the
`finally` of `_run`.

`close` sets `_task` to `None`. No later code reads it, since `subscribe` looks at `_closed` first,
so `hub.task` goes on naming the task that was made.
-/

namespace ExchangeRouter
namespace HubClose

open StreamHub (Payloads RunPhase)

/-- What became of the `_run` task. It is `cancelled` from `task.cancel()` until it is resumed, and
`leaving` while its `finally` closes the socket. -/
inductive Fate where
  | running
  | cancelled
  | leaving
  | done
deriving DecidableEq, Repr

/-- A `_keepalive_loop` and its socket. It is `live` until it is cancelled or its send raises. -/
structure Keepalive where
  ws : ℕ
  live : Bool := true
deriving DecidableEq, Repr

/-- The hub, `_closed`, the loops, and the sockets that the pings went out on. -/
structure State (τ : Type*) where
  hub : StreamHub.State τ := {}
  closed : Bool := false
  fate : Fate := .running
  keepalives : List Keepalive := []
  pings : List ℕ := []

/-- The stretches of the hub, and those of `close`, of a cancelled `_run` task and of a keepalive
loop. -/
inductive Event (τ : Type*) where
  | base (e : StreamHub.Event τ)
  | close
  | cancelled
  | left
  | ping (j : ℕ)
deriving DecidableEq, Repr

/-- A stretch of the `_run` task that is not cancelled. -/
def ofRun {τ : Type*} : StreamHub.Event τ → Bool
  | .connect _ => true
  | .connectFails _ => true
  | .resubscribed _ => true
  | .disconnected _ => true
  | .retry _ => true
  | _ => false

section

variable {τ : Type*}

/-- `ka_task.cancel()` of the loop on a socket. -/
def stop (ws : ℕ) (keepalives : List Keepalive) : List Keepalive :=
  keepalives.map fun ka => if ka.ws = ws then { ka with live := false } else ka

/-- The loops once the hub has made a stretch: a new one when it has connected, and the one of
the old socket cancelled when it no longer is. -/
def State.keepalivesAfter (keepalive : Bool) (s : State τ) (hub : StreamHub.State τ) :
    List Keepalive :=
  if hub.connected && !s.hub.connected then
    s.keepalives ++ if keepalive then hub.ws.toList.map fun ws => ⟨ws, true⟩ else []
  else if s.hub.connected && !hub.connected then
    s.hub.ws.elim s.keepalives fun ws => stop ws s.keepalives
  else s.keepalives

/-- `close` up to its `await task`. A second call finds no task. -/
def State.close (s : State τ) : State τ :=
  if s.closed then s
  else { s with closed := true, fate := if s.hub.task.isSome then .cancelled else .running }

/-- `close` has no task left to wait for. -/
def State.closeReturned (s : State τ) : Bool :=
  s.closed && (decide (s.fate = .done) || s.hub.task.isNone)

/-- The `finally` of `_run` on a connection that the cancelled task leaves. -/
def State.leave (s : State τ) (ws : ℕ) : State τ :=
  { s with hub := s.hub.disconnected 0 ws, keepalives := stop ws s.keepalives, fate := .leaving }

/-- The `_run` task resumed with a `CancelledError`. -/
def State.cancelled (s : State τ) : RunPhase τ → State τ
  | .connecting => { s with fate := .done }
  | .resubscribing job => s.leave job.ws
  | .receiving ws => s.leave ws
  -- in the `finally` and in the sleep nothing catches it
  | .closing => { s with fate := .done }

/-- A turn of a keepalive loop. A send on a socket that is down raises, and the loop returns. -/
def State.ping (s : State τ) (j : ℕ) (ka : Keepalive) : State τ :=
  if s.hub.isUp ka.ws then { s with pings := s.pings ++ [ka.ws] }
  else { s with keepalives := s.keepalives.set j { ka with live := false } }

variable [DecidableEq τ]

/-- `subscribe` up to its wait. A closed hub makes no task. -/
def State.subscribe (s : State τ) (topic : τ) : State τ :=
  if s.closed then
    { s with hub := { s.hub.subscribe topic with task := s.hub.task, runs := s.hub.runs } }
  else { s with hub := s.hub.subscribe topic }

/-- A step of the hub. A task that is to end takes no step of `_run`. -/
def step (P : Payloads τ) (keepalive : Bool) (s : State τ) : Event τ → Option (State τ)
  | .base (.subscribe topic) => some (s.subscribe topic)
  | .base e =>
    if ofRun e && decide (s.fate ≠ .running) then none
    else
      (StreamHub.step P s.hub e).map fun hub =>
        { s with hub := hub, keepalives := s.keepalivesAfter keepalive hub }
  | .close => some s.close
  | .cancelled => if s.fate = .cancelled then s.hub.runs.head?.map s.cancelled else none
  | .left => if s.fate = .leaving then some { s with fate := .done } else none
  | .ping j =>
    match s.keepalives[j]? with
    | some ka => if ka.live then some (s.ping j ka) else none
    | none => none

end

end HubClose
end ExchangeRouter
