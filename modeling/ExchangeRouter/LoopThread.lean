import ExchangeRouter.Lib.Transition
import Mathlib.Data.List.Basic

/-!
# The loop thread of a sync router

A sync router has a thread of its own that runs an event loop. A method checks the closed flag,
posts its coroutine to the loop and waits for the result. `close` runs the core's `close` that way
and then stops the loop: it sets the flag, posts the loop's `stop` and joins the thread. The threads
that use the router may come between any two of these operations, and so may the loop.

The loop runs its callbacks in rounds: what is ready as a round begins is the batch of it, and the
loop is left after the round in which `stop` was called.
-/

namespace ExchangeRouter
namespace LoopThread

/-- A callback of the loop: the start of a call's coroutine, a step of it, the result that its
future gets, a step of a task that no call waits for, and the loop's `stop`. -/
inductive Handle where
  | start (n : ℕ)
  | resume (n : ℕ)
  | done (n : ℕ) (ok : Bool)
  | background
  | stop
deriving DecidableEq, Repr

/-- The call that a callback belongs to. -/
def Handle.call? : Handle → Option ℕ
  | start n => some n
  | resume n => some n
  | done n _ => some n
  | background => none
  | stop => none

/-- What a thread calls: a method of the router, or its `close`. -/
inductive Work where
  | call
  | close
deriving DecidableEq, Repr

/-- How a call ends: it returns, it raises what its coroutine raised, it raises that the router is
closed, or that the event loop is. -/
inductive Ending where
  | returned
  | raised
  | routerClosed
  | loopClosed
deriving DecidableEq, Repr

/-- Where a call is: before the check of `run`, before `run_coroutine_threadsafe`, in `result()`,
and, of a `close`, behind `run`, behind the check of `stop`, behind the flag and in `join`. -/
inductive Stage where
  | created
  | checked
  | waiting
  | ran
  | guarded
  | flagged
  | joining
  | ended (e : Ending)
deriving DecidableEq, Repr

/-- A call. `suspended`: its coroutine awaits something. -/
structure Call where
  work : Work
  stage : Stage
  suspended : Bool := false
deriving DecidableEq, Repr

/-- The router's loop and its callers. `flag` is `_closed`. -/
structure State where
  flag : Bool := false
  ready : List Handle := []
  batch : List Handle := []
  stopping : Bool := false
  running : Bool := true
  loopClosed : Bool := false
  calls : List Call := []
deriving DecidableEq, Repr

/-- A thread makes a call, and takes it past `_closed` and into the loop. The loop takes a batch,
runs its next callback, wakes a coroutine, gets a callback of its own, or comes out of
`run_forever`. The rest are the lines of `Router.close`. -/
inductive Event where
  | begin (w : Work)
  | check (n : ℕ)
  | submit (n : ℕ)
  | iterate
  | handle (outcome : Option Bool)
  | wake (n : ℕ)
  | post
  | halt
  | guard (n : ℕ)
  | flag (n : ℕ)
  | postStop (n : ℕ)
  | join (n : ℕ)
deriving DecidableEq, Repr

/-- The events of the loop itself. -/
def Event.isLoops : Event → Bool
  | iterate => true
  | handle _ => true
  | wake _ => true
  | _ => false

/-- A thread calls the router. -/
def Event.isBegin : Event → Bool
  | begin _ => true
  | _ => false

namespace State

/-- Where call `n` stands. -/
def stageOf (s : State) (n : ℕ) : Option Stage := (s.calls[n]?).map Call.stage

/-- Call `n` comes to `stage`. -/
def setStage (s : State) (n : ℕ) (stage : Stage) : State :=
  { s with calls := s.calls.modify n fun c => { c with stage := stage } }

/-- Whether the coroutine of call `n` awaits something. -/
def setSuspended (s : State) (n : ℕ) (suspended : Bool) : State :=
  { s with calls := s.calls.modify n fun c => { c with suspended := suspended } }

/-- `call_soon` of a loop that is not closed. -/
def push (s : State) (h : Handle) : State := { s with ready := s.ready ++ [h] }

end State

/-- The future has its result, if the call still waits for it. -/
def Call.finish (c : Call) (ok : Bool) : Call :=
  if c.stage = .waiting then
    { c with stage := match ok, c.work with
      | false, _ => .ended .raised
      | true, .call => .ended .returned
      | true, .close => .ran }
  else c

/-- A callback runs. `outcome`: a step of a coroutine ends in an await, or ends the coroutine, with
a value or not. -/
def State.callback (s : State) (outcome : Option Bool) : Handle → State
  | .start n => s.push (.resume n)
  | .resume n =>
    match outcome with
    | none => s.setSuspended n true
    | some ok => s.push (.done n ok)
  | .done n ok => { s with calls := s.calls.modify n fun c => c.finish ok }
  | .background => s
  | .stop => { s with stopping := true }

/-- The first stage of a call: `Router.close` returns at once where the flag is set. -/
def State.begun (s : State) : Work → Stage
  | .call => .created
  | .close => if s.flag then .ended .returned else .created

/-- A step of the threads and the loop, `none` where the event cannot happen. -/
def step (s : State) : Event → Option State
  | .begin w => some { s with calls := s.calls ++ [{ work := w, stage := s.begun w }] }
  | .check n =>
    if s.stageOf n = some .created then
      some (s.setStage n (if s.flag then .ended .routerClosed else .checked))
    else none
  | .submit n =>
    if s.stageOf n = some .checked then
      -- `call_soon_threadsafe` of a closed loop raises
      if s.loopClosed then some (s.setStage n (.ended .loopClosed))
      else some ((s.setStage n .waiting).push (.start n))
    else none
  | .iterate =>
    if s.running ∧ s.batch = [] ∧ s.stopping = false then
      some { s with batch := s.ready, ready := [] }
    else none
  | .handle outcome =>
    match s.batch with
    | [] => none
    | h :: rest =>
      if s.running then some (State.callback { s with batch := rest } outcome h) else none
  | .wake n =>
    if s.running ∧ (s.calls[n]?).any Call.suspended then
      some ((s.setSuspended n false).push (.resume n))
    else none
  | .post => if s.loopClosed then none else some (s.push .background)
  | .halt =>
    if s.running ∧ s.batch = [] ∧ s.stopping then some { s with running := false } else none
  | .guard n =>
    if s.stageOf n = some .ran then
      some (s.setStage n (if s.flag then .ended .returned else .guarded))
    else none
  | .flag n =>
    if s.stageOf n = some .guarded then some (State.setStage { s with flag := true } n .flagged)
    else none
  | .postStop n =>
    if s.stageOf n = some .flagged then
      if s.loopClosed then some (s.setStage n (.ended .loopClosed))
      else some ((s.setStage n .joining).push .stop)
    else none
  | .join n =>
    if s.stageOf n = some .joining then
      -- the thread is alive after the timeout, or the loop is closed and forgets what is ready
      if s.running then some (s.setStage n (.ended .returned))
      else some (State.setStage { s with loopClosed := true, ready := [] } n (.ended .returned))
    else none

end LoopThread
end ExchangeRouter
