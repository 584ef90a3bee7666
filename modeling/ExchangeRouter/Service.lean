import ExchangeRouter.Adapters
import ExchangeRouter.Lib.Url

/-!
# The service

The FastAPI application of `service/main.py`: the paths of the data routes, the constraints on
their parameters, their handlers, the exception handlers and the websocket endpoint. FastAPI
matches a path parameter against one path segment that is not empty, answers 422 when a
parameter fails its constraint, 404 when no path matches, and 307 when a path would match
without its closing slashes. A path is given by its segments, as they have arrived.
-/

namespace ExchangeRouter
namespace Service

/-! ## Responses -/

/-- The JSON of an error response. -/
structure ErrorBody where
  detail : String
  error : Option String
deriving DecidableEq, Repr

/-- An HTTP response. The redirect has no JSON; `retryAfter` is the header. `page` is a 200 that is
no JSON: the documentation that FastAPI serves. -/
inductive Response (J : Type) where
  | ok (body : Body J)
  | error (status : ℕ) (body : Option ErrorBody) (retryAfter : Option ℤ)
  | page
deriving DecidableEq, Repr

/-- What leaves a handler: an `HTTPException` or an exception of the adapter. -/
inductive Raised where
  | http (status : ℕ) (detail : String)
  | fault (e : Fault)
deriving DecidableEq, Repr

/-- `int()` of a number. -/
def truncate (q : ℚ) : ℤ := q.num.tdiv q.den

/-- The exception handlers, by the class closest to the exception's. -/
def exceptionHandler {J : Type} : Raised → Response J
  | .http status detail => .error status (some ⟨detail, none⟩) none
  | .fault (.upstreamUnavailable m retryAfter) =>
    .error 503 (some ⟨m, some "Upstream Unavailable"⟩)
      (retryAfter.map fun seconds => max (truncate seconds) 1)
  | .fault (.validationError m) => .error 502 (some ⟨m, some "Bad Upstream Response"⟩) none
  | .fault (.notImplemented m) => .error 501 (some ⟨m, some "Not Implemented"⟩) none
  | .fault (.valueError m) => .error 400 (some ⟨m, some "Invalid Request"⟩) none
  | .fault (.httpStatusError _ m) => .error 500 (some ⟨m, some "Internal Server Error"⟩) none
  | .fault (.other m) => .error 500 (some ⟨m, some "Internal Server Error"⟩) none

/-! ## Paths -/

/-- The routes whose path ends in a symbol, by the segment before it. -/
def symbolRoute : String → Option Route
  | "markets" => some .symbolInfo
  | "ticker" => some .ticker
  | "book_ticker" => some .bookTicker
  | "mark_price" => some .markPrice
  | "orderbook" => some .orderbook
  | "trades" => some .trades
  | "agg_trades" => some .aggTrades
  | "candles" => some .candles
  | "open_interest" => some .openInterest
  | "funding_rate" => some .fundingRate
  | "liquidations" => some .liquidations
  | "long_short_ratio" => some .longShortRatio
  | "margin_tiers" => some .marginTiers
  | _ => none

/-- A route and its path parameters. -/
structure Match where
  route : Route
  exchange : String
  marketType : String
  symbol : String
deriving DecidableEq, Repr

/-- The data route a path matches. -/
def matchRoute : List String → Option Match
  | [exchange, marketType, last] =>
    if last = "markets" ∧ exchange ≠ "" ∧ marketType ≠ "" then
      some ⟨.markets, exchange, marketType, ""⟩
    else none
  | [exchange, marketType, route, symbol] =>
    if exchange ≠ "" ∧ marketType ≠ "" ∧ symbol ≠ "" then
      (symbolRoute route).map fun r => ⟨r, exchange, marketType, symbol⟩
    else none
  | _ => none

/-- The answers of the routes without a market type and of FastAPI's own pages, by their path. -/
abbrev Pages (J : Type) : Type := List String → Option (Response J)

/-- The paths of these have at most two segments. -/
def pageAt {J : Type} (pages : Pages J) (path : List String) : Option (Response J) :=
  if path.length ≤ 2 then pages path else none

/-- The path ends in slashes, and matches without them. -/
def redirects {J : Type} (pages : Pages J) (path : List String) : Bool :=
  let bare := path.rdropWhile (· == "")
  path.getLast? == some "" && ((matchRoute bare).isSome || (pageAt pages bare).isSome)

/-- `Query(default, ge=1)` of the route's own parameters. -/
def numbersAccepted (params : Params) : Route → Bool
  | .orderbook => 1 ≤ params.depth.getD 20
  | .trades => 1 ≤ params.limit.getD 100
  | .aggTrades => 1 ≤ params.limit.getD 500
  | .candles => 1 ≤ params.limit.getD 100
  | .openInterest => 1 ≤ params.limit.getD 30
  | .fundingRate => 1 ≤ params.limit.getD 100
  | .liquidations => 1 ≤ params.limit.getD 100
  | .longShortRatio => 1 ≤ params.limit.getD 30
  | _ => true

/-- The constraints on a matched path and its parameters, `none` where a number is none. -/
def accepts (m : Match) (params : Option Params) : Bool :=
  (MarketType.ofString m.marketType).isSome && params.any fun params =>
    numbersAccepted params m.route

section

variable {J : Type}

/-! ## Handlers

Each begins with `validate_request`, which `handle` does for them. -/

/-- `validate_request`. -/
def validateRequest (registry : Registry J) (exchange : String) (marketType : MarketType) :
    Except Raised (Adapter J) :=
  match registry exchange with
  | none => .error (.http 404 s!"Exchange '{exchange}' not found or not enabled")
  | some adapter =>
    if marketType ∉ adapter.supportedMarketTypes then
      .error (.http 400 s!"Market type '{marketType.value}' not supported on {exchange}")
    else .ok adapter

variable (adapter : Adapter J) (marketType : MarketType)

/-- `get_markets`. -/
def getMarkets (exchange : String) : Except Fault (Body J) :=
  (fun infoList : List SymbolInfo => .markets exchange marketType.value infoList.length
    (infoList.map symbolInfoToLite)) <$> adapter.getExchangeInfo marketType

variable (symbol : String)

/-- `get_market_symbol`. -/
def getMarketSymbol : Except Fault (Body J) :=
  .record <$> adapter.getSymbolInfo marketType symbol

/-- `get_ticker`. -/
def getTicker : Except Fault (Body J) := .record <$> adapter.getTicker marketType symbol

/-- `get_book_ticker`. -/
def getBookTicker : Except Fault (Body J) := .record <$> adapter.getBookTicker marketType symbol

/-- `get_mark_price`. -/
def getMarkPrice : Except Fault (Body J) := .record <$> adapter.getMarkPrice marketType symbol

/-- `get_margin_tiers`. -/
def getMarginTiers : Except Fault (Body J) := .record <$> adapter.getMarginTiers marketType symbol

variable (params : Params)

/-- `get_orderbook`. -/
def getOrderbook : Except Fault (Body J) :=
  .record <$> adapter.getOrderbook marketType symbol (params.depth.getD 20)

/-- `get_trades`. -/
def getTrades : Except Fault (Body J) :=
  .rows <$> adapter.getTrades marketType symbol (params.limit.getD 100)

/-- `get_agg_trades`. -/
def getAggTrades : Except Fault (Body J) :=
  .rows <$> adapter.getAggTrades marketType symbol params.start (params.limit.getD 500)

/-- `get_candles`, whose interval is checked first. -/
def getCandles : Except Fault (Body J) := do
  let interval := params.interval.getD "1h"
  validateInterval adapter marketType "candles" "Interval" interval
  let rows ← adapter.getCandles marketType symbol interval params.start (params.limit.getD 100)
  return .candles rows

/-- `get_open_interest`, with the join of its candles. -/
def getOpenInterest : Except Fault (Body J) := do
  let period := params.period.getD "1h"
  let limit := params.limit.getD 30
  validateInterval adapter marketType "open_interest" "Period" period
  let oiRows ← adapter.getOpenInterest marketType symbol period params.start limit
  let rows ← joinOpenInterestBasis adapter marketType symbol period params.start limit oiRows
  return .openInterest rows

/-- `get_funding_rate`. -/
def getFundingRate : Except Fault (Body J) :=
  .rows <$> adapter.getFundingRate marketType symbol params.start (params.limit.getD 100)

/-- `get_liquidations`. -/
def getLiquidations : Except Fault (Body J) :=
  .rows <$> adapter.getLiquidations marketType symbol params.start (params.limit.getD 100)

/-- `get_long_short_ratio`. -/
def getLongShortRatio : Except Fault (Body J) := do
  let period := params.period.getD "5m"
  validateInterval adapter marketType "long_short_ratio" "Period" period
  let rows ←
    adapter.getLongShortRatio marketType symbol period params.start (params.limit.getD 30)
  return .rows rows

/-- The handler of a route, past `validate_request`. -/
def handler (exchange : String) : Route → Except Fault (Body J)
  | .markets => getMarkets adapter marketType exchange
  | .symbolInfo => getMarketSymbol adapter marketType symbol
  | .ticker => getTicker adapter marketType symbol
  | .bookTicker => getBookTicker adapter marketType symbol
  | .markPrice => getMarkPrice adapter marketType symbol
  | .orderbook => getOrderbook adapter marketType symbol params
  | .trades => getTrades adapter marketType symbol params
  | .aggTrades => getAggTrades adapter marketType symbol params
  | .candles => getCandles adapter marketType symbol params
  | .openInterest => getOpenInterest adapter marketType symbol params
  | .fundingRate => getFundingRate adapter marketType symbol params
  | .liquidations => getLiquidations adapter marketType symbol params
  | .longShortRatio => getLongShortRatio adapter marketType symbol params
  | .marginTiers => getMarginTiers adapter marketType symbol

end

section

variable {J : Type} (registry : Registry J)

/-- A matched request: `validate_request`, and then the handler. -/
def handle (m : Match) (marketType : MarketType) (params : Params) : Except Raised (Body J) := do
  let adapter ← validateRequest registry m.exchange marketType
  (handler adapter marketType m.symbol params m.exchange m.route).mapError .fault

/-- The response a handler's outcome is turned into. -/
def responseOf : Except Raised (Body J) → Response J
  | .ok body => .ok body
  | .error raised => exceptionHandler raised

/-- The answer to a request. `unprocessable` is FastAPI's text of the constraints that
failed. -/
def respond (unprocessable : Match → Option Params → String) (pages : Pages J)
    (path : List String) (params : Option Params) : Response J :=
  match matchRoute path with
  | none =>
    match pageAt pages path with
    | some response => response
    | none =>
      if redirects pages path then .error 307 none none
      else .error 404 (some ⟨"Not Found", none⟩) none
  | some m =>
    match MarketType.ofString m.marketType, params with
    | some marketType, some params' =>
      -- the constraints come before the handler
      if numbersAccepted params' m.route then responseOf (handle registry m marketType params')
      else .error 422 (some ⟨unprocessable m params, none⟩) none
    | _, _ => .error 422 (some ⟨unprocessable m params, none⟩) none

/-! ## The websocket endpoint -/

/-- `KNOWN_WS_CHANNELS`. -/
def knownWsChannels : List String :=
  ["ticker", "book_ticker", "mark_price", "agg_trades", "trades", "orderbook", "liquidations"]

/-- What the client of a websocket sees: a refused handshake, or items and then either silence
or a close. -/
inductive WsReply (J : Type) where
  | refused
  | opened (items : List J) (close : Option (ℕ × String))
deriving DecidableEq, Repr

/-- `StreamManager` of one client: the items of the adapter's stream, and a close with 1011
when the stream ends or raises. A channel the adapter has no method for raises. -/
def upstreamHandler (adapter : Adapter J) (marketType : MarketType) (channel symbol : String) :
    WsReply J :=
  match adapter.stream channel with
  | none => .opened [] (some (1011, "Upstream disconnected"))
  | some method =>
    let run := method marketType symbol
    .opened run.items
      (if run.ending = .pending then none else some (1011, "Upstream disconnected"))

/-- `websocket_endpoint`, past the handshake, with the client's first message. -/
def websocketSession (adapter : Adapter J) (exchange : String) (marketType : MarketType)
    (channel symbol : String) : WsReply J :=
  if channel = "" ∨ symbol = "" then .opened [] (some (1003, ""))
  else if channel ∉ knownWsChannels then .opened [] (some (1003, ""))
  else if (routeBlock adapter.getCapabilities marketType channel).ws = false then
    .opened []
      (some (1003, s!"channel '{channel}' not supported on {exchange}/{marketType.value}"))
  else upstreamHandler adapter marketType channel symbol

/-- The exchange that a path names, its adapter and the market, where the handshake is accepted. A
close before `accept`, a market type outside the enum and a path that does not match all refuse
it. -/
def admitted : List String → Option (String × Adapter J × MarketType)
  | ["ws", exchange, marketType] =>
    match MarketType.ofString marketType, registry exchange with
    | some market, some adapter =>
      if exchange = "" ∨ market ∉ adapter.supportedMarketTypes then none
      else some (exchange, adapter, market)
    | _, _ => none
  | _ => none

/-- `websocket_endpoint` behind its path. -/
def websocketEndpoint (path : List String) (channel symbol : String) : WsReply J :=
  match admitted registry path with
  | none => .refused
  | some (exchange, adapter, market) => websocketSession adapter exchange market channel symbol

end

end Service
end ExchangeRouter
