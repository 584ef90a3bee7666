import ExchangeRouter.Lib.Transition
import Mathlib.Data.Nat.Notation

/-!
# `FallbackBackend`

A call picks its backend when it starts and then waits; the answers of the two backends
arrive in any order over the calls in flight. Between two awaits a call runs alone, so one
event is one such stretch: the start of a call, or the answer its backend gives it and
everything the call does with that answer up to its next await.
-/

namespace ExchangeRouter
namespace Fallback

/-- The two backends. -/
inductive Side where
  | primary
  | secondary
deriving DecidableEq, Repr

/-- The two methods. -/
inductive Kind where
  | fetch
  | stream
deriving DecidableEq, Repr

/-- What a backend raises, by the classes the two `except` clauses name. -/
inductive BackendFault where
  | routerUnreachable (message : String)
  | osError (message : String)
  | other (message : String)
deriving DecidableEq, Repr

/-- `except RouterUnreachable` in `fetch`, `except (RouterUnreachable, OSError)` in `stream`. -/
def catches : Kind → BackendFault → Bool
  | _, .routerUnreachable _ => true
  | .stream, .osError _ => true
  | _, _ => false

/-- What a backend answers: the body of a fetch or one message of a stream, the end of a
stream, or an exception. -/
inductive Answer (β : Type*) where
  | item (v : β)
  | done
  | fault (e : BackendFault)
deriving DecidableEq, Repr

/-- Where a call stands. `inTry` is whether the `except` clause is still above it. -/
inductive Phase where
  | waiting (side : Side) (inTry : Bool)
  | returned (side : Side)
  | raised (side : Side) (e : BackendFault)
deriving DecidableEq, Repr

/-- The backend that an ended call got its result or its exception from. -/
def Phase.endedBy : Phase → Option Side
  | waiting _ _ => none
  | returned side => some side
  | raised side _ => some side

/-- The call waits on the primary backend. -/
def Phase.onPrimary : Phase → Bool
  | waiting .primary _ => true
  | _ => false

/-- A call, with the backends it asked and the messages it handed on. -/
structure Call (β : Type*) where
  kind : Kind
  startedDegraded : Bool
  asked : List Side
  received : List β := []
  phase : Phase
deriving DecidableEq, Repr

/-- The backend pair and its calls, with the number of times the degradation was announced. -/
structure State (β : Type*) where
  degraded : Bool := false
  announced : ℕ := 0
  calls : List (Call β) := []
deriving DecidableEq, Repr

/-- A call starts, or a backend answers call `i`. -/
inductive Event (β : Type*) where
  | start (kind : Kind)
  | answer (i : ℕ) (a : Answer β)
deriving DecidableEq, Repr

section

variable {β : Type*}

/-- `_pick`. -/
def State.pick (s : State β) : Side := if s.degraded then .secondary else .primary

/-- `_degrade`. -/
def State.degrade (s : State β) : State β :=
  { s with degraded := true, announced := s.announced + 1 }

/-- The call as it starts. -/
def State.newCall (s : State β) (kind : Kind) : Call β where
  kind := kind
  startedDegraded := s.degraded
  asked := [s.pick]
  phase := .waiting s.pick true

/-- Call `i` is replaced. -/
def State.setCall (s : State β) (i : ℕ) (c : Call β) : State β :=
  { s with calls := s.calls.set i c }

/-- An exception reaches a call that waits on `side`: the `except` clause, if it is above
the call and names the class, and else the caller. -/
def State.onFault (s : State β) (i : ℕ) (c : Call β) (side : Side) (inTry : Bool)
    (e : BackendFault) : State β :=
  if inTry && catches c.kind e then
    -- another call has degraded the pair: `raise`
    if s.degraded then s.setCall i { c with phase := .raised side e }
    else
      s.degrade.setCall i
        { c with asked := c.asked ++ [.secondary], phase := .waiting .secondary false }
  else s.setCall i { c with phase := .raised side e }

/-- The step of a call that gets an answer. A fetch has one body and no end of stream. -/
def State.onAnswer (s : State β) (i : ℕ) (c : Call β) (side : Side) (inTry : Bool) :
    Answer β → Option (State β)
  | .item v =>
    match c.kind with
    | .fetch => some (s.setCall i { c with received := [v], phase := .returned side })
    | .stream => some (s.setCall i { c with received := c.received ++ [v] })
  | .done =>
    match c.kind with
    | .fetch => none
    | .stream => some (s.setCall i { c with phase := .returned side })
  | .fault e => some (s.onFault i c side inTry e)

/-- A step of the pair of backends, `none` where the event cannot happen. -/
def step (s : State β) : Event β → Option (State β)
  | .start kind => some { s with calls := s.calls ++ [s.newCall kind] }
  | .answer i a =>
    match s.calls[i]? with
    | none => none
    | some c =>
      match c.phase with
      | .waiting side inTry => s.onAnswer i c side inTry a
      | _ => none

end

end Fallback
end ExchangeRouter
