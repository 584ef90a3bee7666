import ExchangeRouter.HubRoutes
import Mathlib.Logic.Function.Basic

/-!
# What goes through the queues of a hub

`offer` is the body of the loop over the queues in `StreamHub._run`, with the exceptions of
`asyncio.Queue` that it swallows. `History` keeps beside the hub which messages were routed to
which topic, and of each queue when it was registered, what it holds and what was taken from it.
A message goes by its place among those routed, so that two equal ones are told apart.
-/

namespace ExchangeRouter
namespace HubQueues

open HubRoutes (Hub RouteError Event queueSize)
open MakeRequest (Json)

/-! ## `asyncio.Queue` -/

/-- `asyncio.QueueFull` and `asyncio.QueueEmpty`. -/
inductive QueueError where
  | full
  | empty
deriving DecidableEq, Repr

section

variable {α : Type*}

/-- `put_nowait`. A queue without a maximum is never full. -/
def putNowait (maxsize : ℕ) (items : List α) (item : α) : Except QueueError (List α) :=
  if 0 < maxsize ∧ maxsize ≤ items.length then .error .full else .ok (items ++ [item])

/-- `get_nowait`: the item and those that stay. -/
def getNowait : List α → Except QueueError (α × List α)
  | [] => .error .empty
  | item :: rest => .ok (item, rest)

/-- The body of `for q in queues`. -/
def offer (maxsize : ℕ) (items : List α) (msg : α) : List α :=
  match putNowait maxsize items msg with
  | .ok items => items
  | .error _ =>
    -- `except asyncio.QueueEmpty: pass`, and `except asyncio.QueueFull: pass` below
    let items :=
      match getNowait items with
      | .ok (_, rest) => rest
      | .error _ => items
    match putNowait maxsize items msg with
    | .ok items => items
    | .error _ => items

/-- The loop over the queues of a topic. -/
def offerAll (maxsize : ℕ) (queues : List ℕ) (items : ℕ → List α) (msg : α) : ℕ → List α :=
  queues.foldl (fun items q => Function.update items q (offer maxsize (items q) msg)) items

end

/-! ## The history of a hub -/

/-- The topic and the message of a frame that is routed. -/
def routed (route : Json → Except RouteError (Option Json)) : Option Json → Option (String × Json)
  | none => none
  | some .null => none
  | some msg =>
    match route msg with
    | .ok (some (.str topic)) => some (topic, msg)
    | _ => none

/-- The hub, the messages routed so far, and of each queue how many had been routed when it
was registered, what it holds and what was taken from it. -/
structure History where
  hub : Hub := {}
  log : List (String × Json) := []
  since : ℕ → ℕ := fun _ => 0
  items : ℕ → List (Json × ℕ) := fun _ => []
  delivered : ℕ → List (Json × ℕ) := fun _ => []

/-- The messages routed to the topic since the queue was registered. -/
def History.offered (s : History) (topic : String) (q : ℕ) : List (Json × ℕ) :=
  ((s.log.zipIdx.drop (s.since q)).filter fun entry => entry.1.1 = topic).map
    fun entry => (entry.1.2, entry.2)

/-- The history once the hub has made a step. -/
def History.record (route : Json → Except RouteError (Option Json)) (s : History) (hub : Hub) :
    Event → History
  | .base (.subscribe _) =>
    { s with
      hub := hub
      since := Function.update s.since s.hub.base.calls.length s.log.length }
  | .base _ => { s with hub := hub }
  | .frame _ raw =>
    match routed route raw with
    | none => { s with hub := hub }
    | some (topic, msg) =>
      { s with
        hub := hub
        log := s.log ++ [(topic, msg)]
        items := offerAll queueSize (s.hub.base.queuesOf topic) s.items (msg, s.log.length) }
  | .get q =>
    match s.items q with
    | [] => { s with hub := hub }
    | item :: rest =>
      { s with
        hub := hub
        items := Function.update s.items q rest
        delivered := Function.update s.delivered q (s.delivered q ++ [item]) }

/-- The steps of the hub, with their history. -/
def step (P : StreamHub.Payloads String) (route : Json → Except RouteError (Option Json))
    (s : History) (e : Event) : Option History :=
  (HubRoutes.step P route s.hub e).map fun hub => s.record route hub e

end HubQueues
end ExchangeRouter
