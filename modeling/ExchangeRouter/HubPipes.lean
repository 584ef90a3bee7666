import ExchangeRouter.HubQueues
import ExchangeRouter.Lib.DropQueue
import ExchangeRouter.Lib.Generator

/-!
# A queue of a hub as a pipe of its own

The book streams are proved right over a feed of messages and one bounded queue, the hub is a
machine of many queues that share a connection. `Mirrors` relates the two: seen from one of its
queues, the hub is a `DropQueue.Pipe` whose feed are the messages routed to the topic since the
queue was registered, and whose consumer is whatever loop body reads the queue.
-/

namespace ExchangeRouter
namespace HubQueues

open HubRoutes (RouteError Event queueSize)
open MakeRequest (Json)

section

variable {σ μ β : Type*} (read : Json → μ)

/-- The messages that a queue was offered, as its consumer reads them. -/
def History.feed (s : History) (topic : String) (q : ℕ) : List μ :=
  (s.offered topic q).map fun x => read x.1

/-- What was taken from a queue, as its consumer reads it. -/
def History.taken (s : History) (q : ℕ) : List (μ × ℕ) :=
  (s.delivered q).map fun x => (read x.1, x.2)

/-- What the consumer of a queue has yielded, each with the place of its message among all
those routed. -/
def History.yielded (body : σ → μ → List β × Option σ) (c : σ) (s : History) (q : ℕ) :
    List (β × ℕ) :=
  Generator.yields body c (s.taken read q)

/-- The same thing, tagged with the place of its message in the feed of a queue and with the
place among all those routed. -/
structure Placed {α : Type*} (offered : List (Json × ℕ)) (x y : α × ℕ) : Prop where
  fst : x.1 = y.1
  place : (offered[x.2]?).map Prod.snd = some y.2

variable (body : σ → μ → List β × Option σ) (c : σ)

/-- The pipe has yielded what the consumer of the queue has, and until that ends it holds what
the queue holds, up to the newest message while the queue is in the table. -/
structure Mirrors (s : History) (topic : String) (q : ℕ) (p : DropQueue.Pipe σ μ β) : Prop where
  sent_le : p.sent ≤ (s.offered topic q).length
  consumer : p.consumer = Generator.after body c (s.taken read q)
  out : List.Forall₂ (Placed (s.offered topic q)) p.out (s.yielded read body c q)
  queue : ∀ c', p.consumer = some c' → List.Forall₂ (Placed (s.offered topic q)) p.queue
    ((s.items q).map fun x => (read x.1, x.2))
  sent : ∀ c', p.consumer = some c' → q ∈ s.hub.base.queuesOf topic →
    p.sent = (s.offered topic q).length

/-- A message routed to the queue finds room, or leaves a consumer that can go on with what is
the oldest message then. -/
def Spares (route : Json → Except RouteError (Option Json)) (resync : σ → μ → Prop)
    (topic : String) (q : ℕ) (s : History) : Event → Prop
  | .frame _ raw => ∀ msg, routed route raw = some (topic, msg) →
      q ∈ s.hub.base.queuesOf topic →
      (s.items q).length < queueSize ∨ ∀ c' x, Generator.after body c (s.taken read q) = some c' →
        ((s.items q).tail ++ [(msg, s.log.length)]).head? = some x → resync c' (read x.1)
  | _ => True

end

end HubQueues
end ExchangeRouter
