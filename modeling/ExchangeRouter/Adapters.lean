import ExchangeRouter.Errors
import ExchangeRouter.Models
import Mathlib.Data.List.DropRight

/-!
# Adapters

An adapter as its two callers see it: the market types it carries, its capability map, and
the reads and streams, each of which answers or raises. A record is kept as the fields that
modelled code reads and a value of `J` for its JSON. An adapter answers a repeated call alike,
so a read is a function of its arguments.
-/

namespace ExchangeRouter

/-! ## Records -/

/-- The fields of `SymbolInfo` that `symbol_info_to_lite` reads. -/
structure SymbolInfo where
  symbol : String
  baseAsset : String
  quoteAsset : String
  qtyUnit : QtyUnit
  contractSize : Option ℚ
  fundingKind : Option String
deriving DecidableEq, Repr

/-- A row of the markets body. -/
structure SymbolInfoLite where
  symbol : String
  baseAsset : String
  quoteAsset : String
  qtyUnit : QtyUnit
  contractSize : Option ℚ
  funding : Option String
deriving DecidableEq, Repr

/-- `symbol_info_to_lite`. -/
def symbolInfoToLite (info : SymbolInfo) : SymbolInfoLite where
  symbol := info.symbol
  baseAsset := info.baseAsset
  quoteAsset := info.quoteAsset
  qtyUnit := info.qtyUnit
  contractSize := info.contractSize
  funding := info.fundingKind

/-- `Candle`, by what the service reads of it; `json` is its dump. -/
structure Candle (J : Type) where
  timestamp : ℤ
  close : ℚ
  json : J
deriving DecidableEq, Repr

/-- `UsdBasis`, by its method. -/
inductive UsdBasis where
  | contractSize
  | candleClose (close : Option ℚ) (closeTs : Option ℤ)
deriving DecidableEq, Repr

/-- `OiValue`. -/
structure OiValue where
  native : ℚ
  unit : QtyUnit
  contractSize : Option ℚ
  usd : Option ℚ
  usdBasis : UsdBasis
deriving DecidableEq, Repr

/-- `OpenInterest`, by what the service reads of it; `json` is its dump. -/
structure OpenInterest (J : Type) where
  openInterest : OiValue
  timestamp : ℤ
  json : J
deriving DecidableEq, Repr

/-- `build_oi_value` with a candle. -/
def buildOiValue (native : ℚ) (oiUnit : QtyUnit) (contractSize : Option ℚ) (candleClose : ℚ)
    (candleCloseTs : ℤ) : Except Fault OiValue :=
  match oiUnit with
  | .contract =>
    match contractSize with
    | none => .error (.valueError
        "build_oi_value: contract_size is required when oi_unit == 'contract'")
    | some size => .ok ⟨native, .contract, some size, some (native * size), .contractSize⟩
  | .base => .ok ⟨native, .base, none, some (native * candleClose),
      .candleClose (some candleClose) (some candleCloseTs)⟩

/-! ## Capabilities -/

/-- The entries of a route's block that are looked up. A missing list of intervals and an
empty one are alike to the check. -/
structure RouteBlock where
  ws : Bool := false
  intervals : List String := []
deriving DecidableEq, Repr

/-- The blocks of a capability map; a market or a route may be missing. -/
def Capabilities : Type := MarketType → String → Option RouteBlock

/-- `route_block`. -/
def routeBlock (capabilities : Capabilities) (marketType : MarketType) (route : String) :
    RouteBlock :=
  (capabilities marketType route).getD {}

/-! ## Streams -/

/-- What ends a stream of an adapter early. `transport` is for the classes of
`STREAM_RETRYABLE`, by the close code they carry. -/
inductive StreamFault where
  | fault (e : Fault)
  | transport (code : Option ℕ) (message : String)
deriving DecidableEq, Repr

/-- How far a stream has come: still open, ended, or raised. -/
inductive StreamEnd where
  | pending
  | ended
  | raised (e : StreamFault)
deriving DecidableEq, Repr

/-- The items of a stream so far and how far it has come. -/
structure StreamRun (J : Type) where
  items : List J
  ending : StreamEnd
deriving DecidableEq, Repr

/-! ## The adapter -/

/-- What the service and the local backend call on an adapter. -/
structure Adapter (J : Type) where
  name : String
  supportedMarketTypes : List MarketType
  getCapabilities : Capabilities
  getExchangeInfo : MarketType → Except Fault (List SymbolInfo)
  getSymbolInfo : MarketType → String → Except Fault J
  getTicker : MarketType → String → Except Fault J
  getBookTicker : MarketType → String → Except Fault J
  getMarkPrice : MarketType → String → Except Fault J
  getOrderbook : MarketType → String → ℤ → Except Fault J
  getTrades : MarketType → String → ℤ → Except Fault (List J)
  getAggTrades : MarketType → String → Option ℤ → ℤ → Except Fault (List J)
  getCandles : MarketType → String → String → Option ℤ → ℤ → Except Fault (List (Candle J))
  getOpenInterest :
    MarketType → String → String → Option ℤ → ℤ → Except Fault (List (OpenInterest J))
  getFundingRate : MarketType → String → Option ℤ → ℤ → Except Fault (List J)
  getLiquidations : MarketType → String → Option ℤ → ℤ → Except Fault (List J)
  getLongShortRatio : MarketType → String → String → Option ℤ → ℤ → Except Fault (List J)
  getMarginTiers : MarketType → String → Except Fault J
  /-- `getattr(adapter, f"stream_{channel}", None)`. -/
  stream : String → Option (MarketType → String → StreamRun J)

/-- `EXCHANGE_REGISTRY`, as `get_adapter` reads it. -/
def Registry (J : Type) : Type := String → Option (Adapter J)

section

variable {J : Type}

/-- `validate_interval`. -/
def validateInterval (adapter : Adapter J) (marketType : MarketType) (route label value : String) :
    Except Fault Unit :=
  let intervals := (routeBlock adapter.getCapabilities marketType route).intervals
  if intervals ≠ [] ∧ value ∉ intervals then
    .error (.valueError
      s!"{label} '{value}' is not valid for {adapter.name} {marketType.value} {route}")
  else .ok ()

/-- The digits of `int()`, with single underscores between them. -/
def digitsValue : ℕ → List Char → Option ℕ
  | acc, [] => some acc
  | acc, '_' :: c :: cs =>
    if c.isDigit then digitsValue (acc * 10 + (c.toNat - '0'.toNat)) cs else none
  | acc, c :: cs =>
    if c.isDigit then digitsValue (acc * 10 + (c.toNat - '0'.toNat)) cs else none

/-- The digits after the sign: the first is no underscore. -/
def magnitude : List Char → Option ℕ
  | [] => none
  | c :: cs => if c.isDigit then digitsValue (c.toNat - '0'.toNat) cs else none

/-- `str.isspace` of an ASCII character. -/
def isSpace (c : Char) : Bool := c.toNat = 32 || (9 ≤ c.toNat && c.toNat ≤ 13) ||
  (28 ≤ c.toNat && c.toNat ≤ 31)

/-- `int(s)` of ASCII text, `none` where it raises `ValueError`. -/
def pyInt (s : String) : Option ℤ :=
  match (s.toList.dropWhile isSpace).rdropWhile isSpace with
  | '-' :: cs => (magnitude cs).map fun n => -(n : ℤ)
  | '+' :: cs => (magnitude cs).map fun n => (n : ℤ)
  | cs => (magnitude cs).map fun n => (n : ℤ)

example : ["4", " +1_0 ", "-3", "1__0", "_1", "4x", ""].map pyInt =
    [some 4, some 10, some (-3), none, none, none, none] := by decide

/-- `_PERIOD_MS`. -/
def periodMs : Char → Option ℤ
  | 'm' => some 60000
  | 'h' => some 3600000
  | 'd' => some 86400000
  | 'w' => some 604800000
  | _ => none

/-- `_period_to_ms`. -/
def periodToMs (period : String) : Option ℤ :=
  let cs := period.toList
  if cs.length < 2 then none
  else
    match cs.getLast?.bind periodMs with
    | none => none
    | some scale => (pyInt (String.ofList cs.dropLast)).map (· * scale)

/-- The last candle whose close is at `ts`: a later one replaces an earlier in the dictionary. -/
def closeAt (candles : List (Candle J)) (period ts : ℤ) : Option ℚ :=
  (candles.dropLast.reverse.find? fun c => c.timestamp + period = ts).map Candle.close

/-- The body of the loop of `join_open_interest_basis`. -/
def joinRow (candles : List (Candle J)) (period : ℤ) (row : OpenInterest J) :
    Except Fault (OpenInterest J) :=
  match closeAt candles period row.timestamp with
  | none => .ok row
  | some close =>
    (buildOiValue row.openInterest.native row.openInterest.unit row.openInterest.contractSize
      close row.timestamp).map fun value => { row with openInterest := value }

/-- `join_open_interest_basis`. -/
def joinOpenInterestBasis (adapter : Adapter J) (marketType : MarketType) (symbol period : String)
    (startTime : Option ℤ) (limit : ℤ) (oiRows : List (OpenInterest J)) :
    Except Fault (List (OpenInterest J)) :=
  if marketType ≠ .linear ∨ oiRows = [] then .ok oiRows
  else
    match adapter.getCandles marketType symbol period startTime (limit + 1) with
    -- a failed candle read leaves the rows as they are
    | .error _ => .ok oiRows
    | .ok (first :: second :: rest) =>
      let candles := first :: second :: rest
      let width := (periodToMs period).getD (second.timestamp - first.timestamp)
      oiRows.mapM (joinRow candles width)
    | .ok _ => .ok oiRows

/-! ## Requests and bodies -/

/-- The data routes. -/
inductive Route where
  | markets
  | symbolInfo
  | ticker
  | bookTicker
  | markPrice
  | orderbook
  | trades
  | aggTrades
  | candles
  | openInterest
  | fundingRate
  | liquidations
  | longShortRatio
  | marginTiers
deriving DecidableEq, Repr

/-- The name of the route in a call of `fetch`. -/
def Route.name : Route → String
  | markets => "markets"
  | symbolInfo => "symbol_info"
  | ticker => "ticker"
  | bookTicker => "book_ticker"
  | markPrice => "mark_price"
  | orderbook => "orderbook"
  | trades => "trades"
  | aggTrades => "agg_trades"
  | candles => "candles"
  | openInterest => "open_interest"
  | fundingRate => "funding_rate"
  | liquidations => "liquidations"
  | longShortRatio => "long_short_ratio"
  | marginTiers => "margin_tiers"

/-- The keyword arguments of a read, each of which may be left out. -/
structure Params where
  limit : Option ℤ := none
  depth : Option ℤ := none
  start : Option ℤ := none
  interval : Option String := none
  period : Option String := none
deriving DecidableEq, Repr

/-- A call of `fetch`. -/
structure Request where
  route : Route
  exchange : String
  marketType : String
  symbol : String
  params : Params := {}
deriving DecidableEq, Repr

/-- The JSON body of an answer. -/
inductive Body (J : Type) where
  | record (json : J)
  | rows (json : List J)
  | candles (rows : List (Candle J))
  | openInterest (rows : List (OpenInterest J))
  | markets (exchange marketType : String) (count : ℕ) (markets : List SymbolInfoLite)
deriving DecidableEq, Repr

end

end ExchangeRouter
