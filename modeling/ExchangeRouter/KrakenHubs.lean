import ExchangeRouter.StreamHub

/-!
# Kraken's hubs and their payload table

One `StreamHub` for each subscription shape, found by `_hub_key`, and one table
`_topic_payloads` for all of them, by `_topic_key`. The callbacks `_sub` and `_unsub` look the
topics they are asked for up in the table at that moment, and the hub sends what they return.

A hub's state and its steps are those of `StreamHub`, one frame a topic. `taken` is the table
as `_sub` last read it for the topics of a new connection, whose payloads are sent one at a
time after that.
-/

namespace ExchangeRouter
namespace Kraken

open StreamHub (Frame Payloads)

/-- The `params` of a Spot payload. -/
structure Params where
  channel : Option String := none
  symbol : List String := []
  eventTrigger : Option String := none
  depth : Option ℤ := none
  snapshot : Option Bool := none
deriving DecidableEq, Repr

/-- A payload of the Spot socket (v2) or of the Futures socket (v1). -/
inductive Payload where
  | spot (method : String) (params : Params)
  | futures (event : String) (feed : Option String) (productIds : List String)
deriving DecidableEq, Repr

/-- `payload.get("params") or \x7b\x7d`. -/
def Payload.params : Payload → Params
  | spot _ params => params
  | futures _ _ _ => {}

/-- The text of `payload.get('feed', '')` in an f-string. -/
def Payload.feedText : Payload → String
  | spot _ _ => ""
  | futures _ feed _ => feed.getD "None"

/-- `payload.get("product_ids", [])`. -/
def Payload.productIds : Payload → List String
  | spot _ _ => []
  | futures _ _ productIds => productIds

/-- `str` of a `bool`. -/
def strBool (b : Bool) : String := if b then "True" else "False"

/-- `_hub_key`; `v2` says whether the URL has "/v2" in it. -/
def hubKey (v2 : Bool) (payload : Payload) : String :=
  if v2 then
    let params := payload.params
    "spot:" ++ ":".intercalate
      [params.channel.getD "", params.eventTrigger.getD "",
        (params.depth.map toString).getD "", (params.snapshot.map strBool).getD ""]
  else "fut:" ++ payload.feedText

/-- `_topic_key`. -/
def topicKey (v2 : Bool) (payload : Payload) : String :=
  if v2 then
    let params := payload.params
    params.channel.getD "" ++ ":" ++ params.symbol.headD ""
  else payload.feedText ++ ":" ++ payload.productIds.headD ""

/-- The payload that `_unsub` makes of the one in the table. -/
def unsubPayload (v2 : Bool) (payload : Payload) : Payload :=
  if v2 then .spot "unsubscribe" payload.params
  else
    match payload with
    | .spot _ _ => .futures "unsubscribe" none []
    | .futures _ feed productIds => .futures "unsubscribe" feed productIds

/-- The adapter's streams. The ticker, book ticker and mark price streams of the Futures socket
have one payload. -/
inductive Stream where
  | ticker (wsSym : String)
  | bookTicker (wsSym : String)
  | orderbook (wsSym : String) (depth : ℤ)
  | trades (wsSym : String)
  | futuresTicker (apiSymbol : String)
  | futuresOrderbook (apiSymbol : String)
  | futuresTrades (apiSymbol : String)
deriving DecidableEq, Repr

/-- Whether the stream is opened at `spot_ws_url`, the URL with "/v2" in it. -/
def Stream.v2 : Stream → Bool
  | ticker _ => true
  | bookTicker _ => true
  | orderbook _ _ => true
  | trades _ => true
  | futuresTicker _ => false
  | futuresOrderbook _ => false
  | futuresTrades _ => false

/-- `req_depth`. -/
def reqDepth (depth : ℤ) : ℤ := if depth ≤ 10 then 10 else if depth ≤ 25 then 25 else 100

/-- The payload a stream gives to `_ws_connect`. -/
def Stream.payload : Stream → Payload
  | ticker wsSym => .spot "subscribe" { channel := some "ticker", symbol := [wsSym] }
  | bookTicker wsSym =>
    .spot "subscribe" { channel := some "ticker", symbol := [wsSym], eventTrigger := some "bbo" }
  | orderbook wsSym depth =>
    .spot "subscribe" { channel := some "book", symbol := [wsSym], depth := some (reqDepth depth) }
  | trades wsSym =>
    .spot "subscribe" { channel := some "trade", symbol := [wsSym], snapshot := some true }
  | futuresTicker apiSymbol => .futures "subscribe" (some "ticker") [apiSymbol]
  | futuresOrderbook apiSymbol => .futures "subscribe" (some "book") [apiSymbol]
  | futuresTrades apiSymbol => .futures "subscribe" (some "trade") [apiSymbol]

/-- The hub that the stream's payload is sent over. -/
def Stream.hubKey (stream : Stream) : String := Kraken.hubKey stream.v2 stream.payload

/-- The topic that the stream subscribes to. -/
def Stream.topicKey (stream : Stream) : String := Kraken.topicKey stream.v2 stream.payload

/-! ## The adapter's state -/

/-- The payload kept for each topic. -/
abbrev PayloadTable := AList fun _ : String => Payload

/-- A hub, and whether it connects to the Spot socket. -/
structure Hub where
  v2 : Bool
  hub : StreamHub.State String := {}
  taken : PayloadTable := ∅

/-- `_hubs`, `_topic_payloads`, and the payloads that went out, by the key of the hub that sent
them. -/
structure State where
  hubs : AList (fun _ : String => Hub) := ∅
  topicPayloads : PayloadTable := ∅
  sent : List (String × Payload) := []

/-- A stream is opened, a stream's consumer closes its queue `q`, and what a hub does by
itself: the calls and the task going on, and a socket going down. -/
inductive Event where
  | openStream (stream : Stream)
  | closeStream (key : String) (q : ℕ)
  | hub (key : String) (e : StreamHub.Event String)
deriving DecidableEq, Repr

/-- The hub's own steps: not a call's first. -/
def internal : StreamHub.Event String → Bool
  | .subscribe _ => false
  | .unsubscribe _ _ => false
  | _ => true

/-- What `_sub` and `_unsub` return for the topics of a frame. -/
def render (v2 : Bool) (table : PayloadTable) : Frame String → List Payload
  | .subscribe topics => topics.filterMap fun t => table.lookup t
  | .unsubscribe topics => topics.filterMap fun t => (table.lookup t).map (unsubPayload v2)

/-- The table a frame's payload comes from: the one of now, or, in the middle of a
resubscription, the one it began with. -/
def tableFor (now taken : PayloadTable) : StreamHub.Event String → PayloadTable
  | .resubscribed _ => taken
  | _ => now

/-- The table that the payloads still to be sent on the new connection come from. -/
def takenAfter (now taken : PayloadTable) : StreamHub.Event String → PayloadTable
  | .connect _ => now
  | _ => taken

/-- A step of one hub, and what it sends. -/
def State.advance (s : State) (key : String) (h : Hub) (e : StreamHub.Event String) :
    Option State :=
  (StreamHub.step (Payloads.perTopic String) h.hub e).map fun hub' =>
    { s with
      hubs := s.hubs.insert key
        { h with hub := hub', taken := takenAfter s.topicPayloads h.taken e }
      sent := s.sent ++ (hub'.wire.drop h.hub.wire.length).flatMap fun entry =>
        (render h.v2 (tableFor s.topicPayloads h.taken e) entry.2).map fun p => (key, p) }

/-- `_ws_connect` up to the first await of `hub.subscribe`. -/
def State.openStream (s : State) (stream : Stream) : Option State :=
  let hub := (s.hubs.lookup stream.hubKey).getD { v2 := stream.v2 }
  { s with topicPayloads := s.topicPayloads.insert stream.topicKey stream.payload }.advance
    stream.hubKey hub (.subscribe stream.topicKey)

/-- A consumer has its queue once `subscribe` has returned, and hands it back once. -/
def step (s : State) : Event → Option State
  | .openStream stream => s.openStream stream
  | .closeStream key q =>
    match s.hubs.lookup key with
    | none => none
    | some h =>
      match h.hub.calls[q]? with
      | none => none
      | some call =>
        if q ∈ h.hub.queuesOf call.topic then s.advance key h (.unsubscribe call.topic q) else none
  | .hub key e =>
    match s.hubs.lookup key with
    | none => none
    | some h => if internal e = true then s.advance key h e else none

/-- Hubs of another shape that have a queue for the topic of a stream to be opened. -/
def State.clashes (s : State) (stream : Stream) : Bool :=
  s.hubs.keys.any fun key => decide (key ≠ stream.hubKey) &&
    ((s.hubs.lookup key).any fun h => decide (stream.topicKey ∈ h.hub.queues))

end Kraken
end ExchangeRouter
