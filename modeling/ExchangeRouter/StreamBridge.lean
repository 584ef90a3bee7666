import ExchangeRouter.Lib.Transition
import Mathlib.Data.List.Basic

/-!
# The bridge of a sync stream

`_LoopThread.iterate`: a pump on the loop's thread offers the messages of an async source to a
bounded buffer, then the error that ended the source, if one did, and then a sentinel. The caller's
thread takes them out. An offer to a full buffer is two operations on it, one that fails and one
that takes the oldest item out, and the caller may come between them. An event is one operation on
the buffer, or the source's next item.
-/

namespace ExchangeRouter
namespace Bridge

/-- `STREAM_BUFFER_MAX`. -/
def streamBufferMax : ℕ := 1024

/-- What crosses the buffer. -/
inductive Item (μ ε : Type*) where
  | message (m : μ)
  | error (e : ε)
  | sentinel
deriving DecidableEq, Repr

/-- Not a message. -/
def Item.isEnd {μ ε : Type*} : Item μ ε → Bool
  | message _ => false
  | error _ => true
  | sentinel => true

/-- Where the pump is: between two items, before `put_nowait` of an item, or in the handler of its
`Full`, before `get_nowait`. -/
inductive Pump (μ ε : Type*) where
  | idle
  | offering (item : Item μ ε)
  | evicting (item : Item μ ε)
deriving DecidableEq, Repr

/-- The pump has an item, puts it, or makes room for it; the caller takes one. -/
inductive Event where
  | next
  | put
  | evict
  | get
deriving DecidableEq, Repr

/-- How the pump ends, by what the source raised. -/
def endsOf {μ ε : Type*} : Option ε → List (Item μ ε)
  | some e => [.error e, .sentinel]
  | none => [.sentinel]

/-- What the pump of a source offers, in order. -/
def offers {μ ε : Type*} (messages : List μ) (failure : Option ε) : List (Item μ ε) :=
  messages.map .message ++ endsOf failure

/-- The bridge. `entered` is what was put into the buffer so far, and `evicted` the buffers that an
eviction found, each with the item that it took out as its head. -/
structure State (μ ε : Type*) where
  source : List (Item μ ε)
  pump : Pump μ ε := .idle
  items : List (Item μ ε) := []
  dropped : ℕ := 0
  received : List (Item μ ε) := []
  entered : List (Item μ ε) := []
  evicted : List (List (Item μ ε)) := []
deriving DecidableEq, Repr

section

variable {μ ε : Type*}

/-- `iterate` of a source that yields these messages, and then fails or not. -/
def start (messages : List μ) (failure : Option ε) : State μ ε :=
  { source := offers messages failure }

namespace State

/-- The caller has left its loop: it got the error or the sentinel. -/
def hasLeft (s : State μ ε) : Bool := s.received.any Item.isEnd

/-- A step of the bridge, `none` where the event cannot happen. -/
def step (s : State μ ε) : Event → Option (State μ ε)
  | .next =>
    match s.pump, s.source with
    | .idle, item :: rest => some { s with pump := .offering item, source := rest }
    | _, _ => none
  | .put =>
    match s.pump with
    | .offering item =>
      if s.items.length < streamBufferMax then
        some { s with pump := .idle, items := s.items ++ [item], entered := s.entered ++ [item] }
      else some { s with pump := .evicting item }
    | _ => none
  | .evict =>
    match s.pump, s.items with
    -- `queue.Empty`: the caller has taken everything since
    | .evicting item, [] => some { s with pump := .offering item }
    | .evicting item, oldest :: rest =>
      some { s with
        pump := .offering item
        items := rest
        dropped := s.dropped + 1
        evicted := s.evicted ++ [oldest :: rest] }
    | _, _ => none
  | .get =>
    if s.hasLeft then none
    else
      match s.items with
      | [] => none
      | item :: rest => some { s with items := rest, received := s.received ++ [item] }

end State

end

end Bridge
end ExchangeRouter
