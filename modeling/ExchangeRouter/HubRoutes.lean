import ExchangeRouter.Lib.DropQueue
import ExchangeRouter.MakeRequest
import ExchangeRouter.StreamHub
import Mathlib.Logic.Function.Basic

/-!
# The frames of a hub

The receive loop of `StreamHub._run` asks the adapter's `route` for the topic of a frame and puts
the frame into the queues of that topic. Whatever is raised on the way leaves the loop, and with
it the connection that every topic of the hub shares.

`Hub` is the hub of `StreamHub.lean` together with what lies in its queues. A frame is what
`_parse` makes of it, so it may be any JSON value, or nothing.
-/

namespace ExchangeRouter
namespace HubRoutes

open MakeRequest (Json)

/-! ## Values -/

/-- What is raised on a frame: the value that has no such attribute, the one that cannot be a
key of `_queues`, or a value nested too deep to be written out. -/
inductive RouteError where
  | attributeError (value : Json) (name : String)
  | unhashable (value : Json)
  | recursionError

/-- A list and a dictionary have no hash. -/
def hashable : Json → Bool
  | .arr _ => false
  | .obj _ => false
  | _ => true

/-- `msg.get(key)` of a dictionary. -/
def get (fields : List (String × Json)) (key : String) : Json :=
  ((fields.find? fun f => f.1 = key).map Prod.snd).getD .null

/-- `key in msg`. -/
def hasKey (fields : List (String × Json)) (key : String) : Bool :=
  (fields.find? fun f => f.1 = key).isSome

/-- `a or b`. -/
def orElse (a b : Json) : Json := if a.truthy then a else b

/-- A value that may be `None`. -/
def optional : Json → Option Json
  | .null => none
  | value => some value

/-- `str(value)` in an f-string, from the texts of the values that are none themselves. -/
def format (repr : Json → Option String) : Json → Except RouteError String
  | .str s => .ok s
  | value =>
    match repr value with
    | some s => .ok s
    | none => .error .recursionError

/-! ## The `route` callbacks -/

/-- The hubs, by the adapter and the feed they serve. -/
inductive Feed where
  | binance
  | bybit
  | kucoin
  | okx
  | hyperliquid
  | krakenSpot
  | krakenFutures
deriving DecidableEq, Repr

section

variable (repr : Json → Option String)

/-- The topic made of two values. -/
def joined (a b : Json) : Except RouteError (Option Json) := do
  let a ← format repr a
  let b ← format repr b
  return some (.str (a ++ ":" ++ b))

/-- `_route` of Binance's hub. -/
def Binance.route : Json → Except RouteError (Option Json)
  | .obj msg => .ok (optional (get msg "stream"))
  | _ => .ok none

/-- `_route` of Bybit's hub. -/
def Bybit.route : Json → Except RouteError (Option Json)
  | .obj msg => .ok (optional (get msg "topic"))
  | _ => .ok none

/-- `_route` of KuCoin's hub. -/
def Kucoin.route : Json → Except RouteError (Option Json)
  | .obj msg =>
    if (get msg "type").isStr "message" then .ok (optional (get msg "topic")) else .ok none
  | _ => .ok none

/-- `_topic_key_for_arg`. -/
def Okx.topicKeyForArg (arg : List (String × Json)) : Except RouteError (Option Json) :=
  let ch := if hasKey arg "channel" then get arg "channel" else .str ""
  let val := orElse (orElse (get arg "instId") (get arg "instType")) (.str "")
  joined repr ch val

/-- `_route` of OKX's hub. -/
def Okx.route : Json → Except RouteError (Option Json)
  | .obj msg =>
    match get msg "arg" with
    | .obj arg => if hasKey msg "data" then Okx.topicKeyForArg repr arg else .ok none
    | _ => .ok none
  | _ => .ok none

/-- The topic of a coin, where there is one. -/
def Hyperliquid.coinTopic (channel : Json) (data : List (String × Json)) :
    Except RouteError (Option Json) :=
  let coin := get data "coin"
  if coin.truthy then joined repr channel coin else .ok none

/-- `_route`, from the `channel` and the `data` of a message on. -/
def Hyperliquid.routeData (channel data : Json) : Except RouteError (Option Json) :=
  if channel.isStr "trades" then
    match data with
    | .arr (.obj trade :: _) => Hyperliquid.coinTopic repr channel trade
    -- `data[0].get("coin")` of anything but a dictionary
    | .arr (first :: _) => .error (.attributeError first "get")
    | _ => .ok none
  else if channel.isStr "candle" then
    match data with
    | .obj candle => do
      let s ← format repr (get candle "s")
      let i ← format repr (get candle "i")
      return some (.str ("candle:" ++ s ++ ":" ++ i))
    | _ => .ok none
  else
    match data with
    | .obj data => Hyperliquid.coinTopic repr channel data
    | _ => .ok none

/-- The channels of which no frame is routed. -/
def Hyperliquid.unrouted : Json → Bool
  | .null => true
  | .str s => decide (s = "subscriptionResponse" ∨ s = "pong")
  | _ => false

/-- `_route` of Hyperliquid's hub. -/
def Hyperliquid.route : Json → Except RouteError (Option Json)
  | .obj msg =>
    let channel := get msg "channel"
    if Hyperliquid.unrouted channel then .ok none
    else
      let channel := if channel.isStr "activeSpotAssetCtx" then .str "activeAssetCtx" else channel
      Hyperliquid.routeData repr channel (get msg "data")
  | _ => .ok none

/-- `_route` of a spot hub. -/
def Kraken.routeSpot : Json → Except RouteError (Option Json)
  | .obj msg =>
    let ch := get msg "channel"
    match get msg "data" with
    | .arr (.obj first :: _) =>
      let sym := get first "symbol"
      if ch.truthy && sym.truthy then joined repr ch sym else .ok none
    | _ => .ok none
  | _ => .ok none

/-- `feed[: -len("_snapshot")]` of a feed that ends so. -/
def Kraken.dropSnapshot (feed : String) : String :=
  if "_snapshot".toList <:+ feed.toList then
    String.ofList (feed.toList.take (feed.toList.length - "_snapshot".toList.length))
  else feed

/-- `_route` of a futures hub. -/
def Kraken.routeFutures : Json → Except RouteError (Option Json)
  | .obj msg =>
    let feed := get msg "feed"
    let pid := get msg "product_id"
    if feed.truthy && pid.truthy then
      match feed with
      | .str feed => joined repr (.str (Kraken.dropSnapshot feed)) pid
      | other => .error (.attributeError other "endswith")
    else .ok none
  | _ => .ok none

/-- The callback of a hub: the topic of a message, or `None`. -/
def Feed.route : Feed → Json → Except RouteError (Option Json)
  | .binance => Binance.route
  | .bybit => Bybit.route
  | .kucoin => Kucoin.route
  | .okx => Okx.route repr
  | .hyperliquid => Hyperliquid.route repr
  | .krakenSpot => Kraken.routeSpot repr
  | .krakenFutures => Kraken.routeFutures repr

end

/-! ## The receive loop -/

/-- `queue_size`, as every adapter leaves it. -/
def queueSize : ℕ := 1024

/-- `put_nowait` into a queue, which gives up its oldest item when it is full. -/
def put (items : List Json) (msg : Json) : List Json := DropQueue.put queueSize items msg

/-- A hub, what lies in its queues, and what the frames raised that ended a receive loop, as
`_run` logs it. -/
structure Hub where
  base : StreamHub.State String := {}
  queued : ℕ → List Json := fun _ => []
  dropped : List RouteError := []

/-- `self._queues.get(topic) or []`: the keys are texts. -/
def Hub.queuesOf (s : Hub) : Json → List ℕ
  | .str topic => s.base.queuesOf topic
  | _ => []

/-- The queues after the message was put into those of the topic. -/
def Hub.deliver (s : Hub) (topic msg : Json) : Hub :=
  { s with
    queued := (s.queuesOf topic).foldl
      (fun queued q => Function.update queued q (put (queued q) msg)) s.queued }

/-- One turn of the receive loop, or what it raises. -/
def Hub.receive (route : Json → Except RouteError (Option Json)) (s : Hub) :
    Option Json → Except RouteError Hub
  | none => .ok s
  | some .null => .ok s
  | some msg =>
    match route msg with
    | .error e => .error e
    | .ok none => .ok s
    | .ok (some topic) =>
      if hashable topic then .ok (s.deliver topic msg) else .error (.unhashable topic)

/-- A stretch of the hub, a frame for the `_run` task `k`, or an item taken from a queue. -/
inductive Event where
  | base (e : StreamHub.Event String)
  | frame (k : ℕ) (raw : Option Json)
  | get (q : ℕ)

/-- The machine of `StreamHub.lean` with the frames that come in. What is raised on a frame goes
to the `except` and the `finally` of `_run`. -/
def step (P : StreamHub.Payloads String) (route : Json → Except RouteError (Option Json))
    (s : Hub) : Event → Option Hub
  | .base e => (StreamHub.step P s.base e).map fun base => { s with base := base }
  | .frame k raw =>
    match s.base.runs[k]? with
    | some (.receiving ws) =>
      match s.receive route raw with
      | .ok s' => some s'
      | .error e =>
        some { s with base := s.base.disconnected k ws, dropped := s.dropped ++ [e] }
    | _ => none
  | .get q =>
    match s.queued q with
    | [] => none
    | _ :: rest => some { s with queued := Function.update s.queued q rest }

end HubRoutes
end ExchangeRouter
