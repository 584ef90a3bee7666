import ExchangeRouter.StreamManager

/-!
# Shutting the stream manager down

`StreamManager.lean` leaves out `shutdown`, and when the closings end that `_spawn_close` started.
Here is the machine with both. `shutdown` takes no lock: it clears the two dictionaries and cancels
the tasks in one stretch, waits for those tasks and then for the closings that have not ended by
that time, while `subscribe`, `unsubscribe` and other handlers go on.
-/

namespace ExchangeRouter
namespace ManagerShutdown

open StreamManager (Handler Phase)

/-- Where a `shutdown` call stands: at the `gather` of the tasks it cancelled, at that of the
closings, which go by their places in `closes`, or returned. -/
inductive Wait where
  | tasks (tasks : List ℕ)
  | closings (places : List ℕ)
  | returned
deriving DecidableEq, Repr

/-- The manager, the spawned closings that have ended, by their places in `closes`, and the
`shutdown` calls. -/
structure State (κ ι : Type*) where
  manager : StreamManager.State κ ι := {}
  ended : List ℕ := []
  calls : List Wait := []

/-- The stretches of the manager, the end of a spawned closing, and those of `shutdown` (`k` is
the number of the call). -/
inductive Event (κ ι : Type*) where
  | base (e : StreamManager.Event κ ι)
  | closingEnds (j : ℕ)
  | shutdown
  | resume (k : ℕ)
deriving DecidableEq, Repr

section

variable {κ ι : Type*}

/-- `list(self.upstream_tasks.values())`. -/
def tasksOf (manager : StreamManager.State κ ι) : List ℕ :=
  manager.upstreamTasks.entries.map fun entry => entry.2

/-- The places of the spawned closings that have not ended: `self._closing`. -/
def State.closing (s : State κ ι) : List ℕ :=
  (List.range s.manager.closes.length).filter fun j =>
    decide ((s.manager.closes[j]?).map Prod.snd = some "Send timeout") && decide (j ∉ s.ended)

/-- The task has ended. -/
def isDone (manager : StreamManager.State κ ι) (i : ℕ) : Bool :=
  (manager.handlers[i]?).any fun h => decide (h.phase = .done)

/-- `if self._closing: await asyncio.gather(...)`. -/
def State.waitClosings (s : State κ ι) : Wait :=
  if s.closing = [] then .returned else .closings s.closing

variable [DecidableEq κ]

/-- `for task in tasks: task.cancel()`, after the dictionaries are cleared. -/
def cancelAll (manager : StreamManager.State κ ι) : StreamManager.State κ ι :=
  (tasksOf manager).foldl (fun m i => m.cancel (some i))
    { manager with activeStreams := ∅, upstreamTasks := ∅ }

/-- `shutdown` up to its first await, or to its return. -/
def State.shutdown (s : State κ ι) : State κ ι :=
  { s with
    manager := cancelAll s.manager
    calls := s.calls ++
      [if tasksOf s.manager = [] then s.waitClosings else .tasks (tasksOf s.manager)] }

/-- A step of the manager and its shutdowns, `none` where the event cannot happen. -/
def step (s : State κ ι) : Event κ ι → Option (State κ ι)
  | .base e => (StreamManager.step s.manager e).map fun manager => { s with manager := manager }
  | .closingEnds j => if j ∈ s.closing then some { s with ended := s.ended ++ [j] } else none
  | .shutdown => some s.shutdown
  | .resume k =>
    match s.calls[k]? with
    | some (.tasks tasks) =>
      if tasks.all (isDone s.manager) then some { s with calls := s.calls.set k s.waitClosings }
      else none
    | some (.closings places) =>
      if places.all (· ∈ s.ended) then some { s with calls := s.calls.set k .returned } else none
    | _ => none

end

end ManagerShutdown
end ExchangeRouter
