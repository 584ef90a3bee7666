import ExchangeRouter.Models
import ExchangeRouter.Paginate
import Mathlib.Data.List.AList

/-!
# The paged reads of the adapters

Every adapter method that ends in `_paginate_backwards`, from the point where the symbol is
resolved and the interval mapped. A method closes a `fetch` over its arguments and either
calls it once or hands it to the walk, by its `start_time`, its `limit` and its page size.
`PagedRead` holds what they differ in; OKX liquidations, whose fetch catches a refusal
itself, and OKX candles, which ask two endpoints, keep their own bodies.
-/

namespace ExchangeRouter

/-! ## Requests -/

/-- A value of a REST parameter. -/
inductive Param where
  | int (n : ℤ)
  | text (s : String)
deriving DecidableEq, Repr

/-- A REST request: its path and its parameters. -/
structure Query where
  path : String
  params : List (String × Param)
deriving DecidableEq, Repr

/-- What the venue answers to request number `n` of a call, before parsing. -/
abbrev Venue (ρ : Type*) := ℕ → Query → Except Fault ρ

/-- `if anchor: p[key] = …`, where zero is no anchor either. -/
def ifAnchor (a : Option ℤ) (param : ℤ → String × Param) : List (String × Param) :=
  match a with
  | none => []
  | some e => if e = 0 then [] else [param e]

/-- A read that has come to its end: the requests it sent and what it returned or raised. -/
structure ReadCall (α : Type*) where
  asked : List Query
  result : Except Fault (List α)

section

variable {ρ α κ : Type*} [DecidableEq κ] (timestamp : α → ℤ) (modelDumpJson : α → κ)
  (venue : Venue ρ) (parse : ρ → Except Fault (List α))

/-- `_parse(await self._make_request(…))`. -/
def fetchPage (query : ℕ → PageRequest → Query) : Upstream α := fun n request =>
  (venue n (query n request)).bind parse

/-! ## The common shape -/

/-- What a paged read is made of. -/
structure PagedRead where
  /-- The page size of the walk. -/
  perReq : ℤ
  /-- The test on `start_time` and `limit` that sends the call to the walk. -/
  paginates : Bool
  /-- Whether the single page is cut to `[-limit:]`. -/
  trims : Bool
  limit : ℤ
  query : ℕ → PageRequest → Query

/-- The requests of a walk, as the venue saw them. -/
def queries (query : ℕ → PageRequest → Query) (asked : List PageRequest) : List Query :=
  asked.mapIdx query

/-- `return await self._paginate_backwards(fetch, limit, per_req)`. -/
def walk (fetch : Upstream α) (query : ℕ → PageRequest → Query) (limit perReq : ℤ) :
    ReadCall α :=
  let call := paginateBackwards timestamp modelDumpJson fetch limit perReq
  ⟨queries query call.asked, call.result⟩

/-- `fetch(None, limit)`, cut to `[-limit:]` where the method does that. -/
def onePage (fetch : Upstream α) (query : ℕ → PageRequest → Query) (trims : Bool) (limit : ℤ) :
    ReadCall α :=
  ⟨[query 0 ⟨none, limit⟩],
    (fetch 0 ⟨none, limit⟩).map fun batch => if trims then sliceTail batch limit else batch⟩

/-- The last lines of a paged read, over its fetch. -/
def PagedRead.callWith (r : PagedRead) (fetch : Upstream α) : ReadCall α :=
  if r.paginates then walk timestamp modelDumpJson fetch r.query r.limit r.perReq
  else onePage fetch r.query r.trims r.limit

/-- A paged read whose fetch lets every fault through. -/
def PagedRead.call (r : PagedRead) : ReadCall α :=
  r.callWith timestamp modelDumpJson (fetchPage venue parse r.query)

end

/-! ## Binance -/

namespace Binance

/-- `get_agg_trades`. A `start_time` of zero is no start here. -/
def getAggTrades (marketType : MarketType) (apiSymbol : String) (startTime : Option ℤ)
    (limit : ℤ) : PagedRead where
  perReq := 1000
  paginates := startTime.any (fun s => decide (s ≠ 0)) || decide (1000 < limit)
  trims := false
  limit := limit
  query := fun _ r =>
    { path := match marketType with
        | .spot => "/api/v3/aggTrades"
        | .linear => "/fapi/v1/aggTrades"
        | .inverse => "/dapi/v1/aggTrades"
      params := [("symbol", .text apiSymbol), ("limit", .int r.limit)] ++
        ifAnchor (anchor r.endTs startTime) fun a => ("endTime", .int a) }

/-- `max_per_req` of `get_candles`. -/
def maxPerReq (marketType : MarketType) : ℤ := if marketType = .spot then 1000 else 1500

/-- `get_candles`. -/
def getCandles (marketType : MarketType) (apiSymbol interval : String) (startTime : Option ℤ)
    (limit : ℤ) : PagedRead where
  perReq := maxPerReq marketType
  paginates := startTime.isSome || decide (maxPerReq marketType < limit)
  trims := false
  limit := limit
  query := fun _ r =>
    { path := match marketType with
        | .spot => "/api/v3/klines"
        | .linear => "/fapi/v1/klines"
        | .inverse => "/dapi/v1/klines"
      params := [("symbol", .text apiSymbol), ("interval", .text interval),
          ("limit", .int r.limit)] ++
        ifAnchor (anchor r.endTs startTime) fun a => ("endTime", .int a) }

/-- `sym_key`: linear metrics are asked for by symbol, inverse ones by pair. -/
def symKey (marketType : MarketType) : String :=
  if marketType = .linear then "symbol" else "pair"

/-- `get_open_interest`. -/
def getOpenInterest (marketType : MarketType) (rawSymbol period : String) (startTime : Option ℤ)
    (limit : ℤ) : PagedRead where
  perReq := 500
  paginates := true
  trims := false
  limit := limit
  query := fun _ r =>
    { path := "/futures/data/openInterestHist"
      params := [(symKey marketType, .text rawSymbol), ("period", .text period),
          ("limit", .int r.limit)] ++
        ifAnchor (anchor r.endTs startTime) (fun a => ("endTime", .int a)) ++
        if marketType = .inverse then [("contractType", .text "PERPETUAL")] else [] }

/-- `get_long_short_ratio`. -/
def getLongShortRatio (marketType : MarketType) (rawSymbol period : String)
    (startTime : Option ℤ) (limit : ℤ) : PagedRead where
  perReq := 500
  paginates := true
  trims := false
  limit := limit
  query := fun _ r =>
    { path := "/futures/data/globalLongShortAccountRatio"
      params := [("period", .text period), ("limit", .int r.limit)] ++
        ifAnchor (anchor r.endTs startTime) (fun a => ("endTime", .int a)) ++
        [(symKey marketType, .text rawSymbol)] }

end Binance

/-! ## Bybit -/

namespace Bybit

/-- `get_candles`. -/
def getCandles (cat apiSymbol bybitInterval : String) (startTime : Option ℤ) (limit : ℤ) :
    PagedRead where
  perReq := 1000
  paginates := startTime.isSome || decide (1000 < limit)
  trims := false
  limit := limit
  query := fun _ r =>
    { path := "/v5/market/kline"
      params := [("category", .text cat), ("symbol", .text apiSymbol),
          ("interval", .text bybitInterval), ("limit", .int (min r.limit 1000))] ++
        ifAnchor (anchor r.endTs startTime) fun a => ("end", .int a) }

/-- `get_funding_rate`. -/
def getFundingRate (cat apiSymbol : String) (startTime : Option ℤ) (limit : ℤ) :
    PagedRead where
  perReq := 200
  paginates := true
  trims := false
  limit := limit
  query := fun _ r =>
    { path := "/v5/market/funding/history"
      params := [("category", .text cat), ("symbol", .text apiSymbol),
          ("limit", .int (min r.limit 200))] ++
        ifAnchor (anchor r.endTs startTime) fun a => ("endTime", .int a) }

/-- `get_open_interest`. -/
def getOpenInterest (cat apiSymbol interval : String) (startTime : Option ℤ) (limit : ℤ) :
    PagedRead where
  perReq := 200
  paginates := true
  trims := false
  limit := limit
  query := fun _ r =>
    { path := "/v5/market/open-interest"
      params := [("category", .text cat), ("symbol", .text apiSymbol),
          ("intervalTime", .text interval), ("limit", .int (min r.limit 200))] ++
        ifAnchor (anchor r.endTs startTime) fun a => ("endTime", .int a) }

/-- `get_long_short_ratio`. -/
def getLongShortRatio (cat apiSymbol interval : String) (startTime : Option ℤ) (limit : ℤ) :
    PagedRead where
  perReq := 500
  paginates := true
  trims := false
  limit := limit
  query := fun _ r =>
    { path := "/v5/market/account-ratio"
      params := [("category", .text cat), ("symbol", .text apiSymbol),
          ("period", .text interval), ("limit", .int (min r.limit 500))] ++
        ifAnchor (anchor r.endTs startTime) fun a => ("endTime", .int a) }

end Bybit

/-! ## Hyperliquid -/

namespace Hyperliquid

/-- `get_candles`. The window ends at the anchor and never after `now`, the clock at
request `n`. -/
def getCandles (coin interval : String) (intervalMs : ℤ) (now : ℕ → ℤ) (startTime : Option ℤ)
    (limit : ℤ) : PagedRead where
  perReq := 5000
  paginates := startTime.isSome || decide (5000 < limit)
  trims := true
  limit := limit
  query := fun n r =>
    let end_ := match anchor r.endTs startTime with
      | some a => min a (now n)
      | none => now n
    { path := "candleSnapshot"
      params := [("coin", .text coin), ("interval", .text interval),
        ("startTime", .int (max (end_ - min r.limit 5000 * intervalMs) 0)),
        ("endTime", .int end_)] }

/-- `get_funding_rate`. -/
def getFundingRate (coin : String) (cycleMs : ℤ) (now : ℕ → ℤ) (startTime : Option ℤ)
    (limit : ℤ) : PagedRead where
  perReq := 500
  paginates := true
  trims := false
  limit := limit
  query := fun n r =>
    let end_ := (anchor r.endTs startTime).getD (now n)
    { path := "fundingHistory"
      params := [("coin", .text coin), ("startTime", .int (end_ - min r.limit 500 * cycleMs)),
        ("endTime", .int end_)] }

end Hyperliquid

/-! ## KuCoin -/

namespace Kucoin

/-- `_get_candles_spot`. The window is in seconds. -/
def getCandlesSpot (apiSymbol ktype : String) (intervalMs : ℤ) (now : ℕ → ℤ)
    (startTime : Option ℤ) (limit : ℤ) : PagedRead where
  perReq := 1500
  paginates := !(startTime.isNone && decide (limit ≤ 1500))
  trims := true
  limit := limit
  query := fun n r =>
    let endS := (anchor r.endTs startTime).getD (now n) / 1000 + 1
    let windowS := max (intervalMs * r.limit / 1000) 60
    { path := "/api/v1/market/candles"
      params := [("symbol", .text apiSymbol), ("type", .text ktype),
        ("startAt", .int (max (endS - windowS) 0)), ("endAt", .int endS)] }

/-- `_get_candles_futures`. -/
def getCandlesFutures (apiSymbol : String) (granularity : ℤ) (startTime : Option ℤ)
    (limit : ℤ) : PagedRead where
  perReq := 200
  paginates := !(startTime.isNone && decide (limit ≤ 200))
  trims := true
  limit := limit
  query := fun _ r =>
    { path := "/api/v1/kline/query"
      params := [("symbol", .text apiSymbol), ("granularity", .int granularity)] ++
        ifAnchor (anchor r.endTs startTime) fun a => ("to", .int (a + 1)) }

/-- `(anchor + 1) if anchor else now_ms`. -/
def toMs (a : Option ℤ) (now : ℤ) : ℤ :=
  match a with
  | none => now
  | some e => if e = 0 then now else e + 1

/-- `get_funding_rate`. The page covers `per_req` windows of eight hours. -/
def getFundingRate (apiSymbol : String) (now : ℕ → ℤ) (startTime : Option ℤ) (limit : ℤ) :
    PagedRead where
  perReq := 100
  paginates := startTime.isSome || decide (100 < limit)
  trims := true
  limit := limit
  query := fun n r =>
    let to_ := toMs (anchor r.endTs startTime) (now n)
    { path := "/api/v1/contract/funding-rates"
      params := [("symbol", .text apiSymbol),
        ("from", .int (max (to_ - 8 * 60 * 60 * 1000 * 100) 0)), ("to", .int to_)] }

/-- `get_open_interest`. The end is rounded down to the period when there is one. -/
def getOpenInterest (apiSymbol interval : String) (periodMs : ℤ) (now : ℕ → ℤ)
    (startTime : Option ℤ) (limit : ℤ) : PagedRead where
  perReq := 200
  paginates := startTime.isSome || decide (200 < limit)
  trims := true
  limit := limit
  query := fun n r =>
    let rawEnd := toMs (anchor r.endTs startTime) (now n)
    let endMs := if periodMs = 0 then rawEnd else rawEnd - rawEnd % periodMs
    let startMs := if periodMs = 0 then 0 else max (endMs - periodMs * 200) 0
    { path := "/api/ua/v1/market/open-interest"
      params := [("symbol", .text apiSymbol), ("interval", .text interval),
        ("startAt", .int startMs), ("endAt", .int endMs),
        ("pageSize", .int (min r.limit 200))] }

end Kucoin

/-! ## OKX -/

namespace Okx

/-- `get_funding_rate`. OKX pages by `after`, one past the anchor. -/
def getFundingRate (apiSymbol : String) (startTime : Option ℤ) (limit : ℤ) : PagedRead where
  perReq := 100
  paginates := startTime.isSome || decide (100 < limit)
  trims := true
  limit := limit
  query := fun _ r =>
    { path := "/api/v5/public/funding-rate-history"
      params := [("instId", .text apiSymbol), ("limit", .int (min r.limit 100))] ++
        ifAnchor (anchor r.endTs startTime) fun a => ("after", .text (toString (a + 1))) }

/-- `get_open_interest`. -/
def getOpenInterest (apiSymbol bar : String) (startTime : Option ℤ) (limit : ℤ) :
    PagedRead where
  perReq := 100
  paginates := startTime.isSome || decide (100 < limit)
  trims := true
  limit := limit
  query := fun _ r =>
    { path := "/api/v5/rubik/stat/contracts/open-interest-history"
      params := [("instId", .text apiSymbol), ("period", .text bar),
          ("limit", .int (min r.limit 100))] ++
        ifAnchor (anchor r.endTs startTime) fun a => ("end", .text (toString a)) }

/-- `get_long_short_ratio`. -/
def getLongShortRatio (ccy bar : String) (startTime : Option ℤ) (limit : ℤ) : PagedRead where
  perReq := 100
  paginates := startTime.isSome || decide (100 < limit)
  trims := true
  limit := limit
  query := fun _ r =>
    { path := "/api/v5/rubik/stat/contracts/long-short-account-ratio"
      params := [("ccy", .text ccy), ("period", .text bar),
          ("limit", .int (min r.limit 100))] ++
        ifAnchor (anchor r.endTs startTime) fun a => ("end", .text (toString a)) }

/-- `get_liquidations`, without its fetch. -/
def getLiquidations (uly : String) (startTime : Option ℤ) (limit : ℤ) : PagedRead where
  perReq := 100
  paginates := startTime.isSome || decide (100 < limit)
  trims := true
  limit := limit
  query := fun _ r =>
    { path := "/api/v5/public/liquidation-orders"
      params := [("instType", .text "SWAP"), ("uly", .text uly), ("state", .text "filled"),
          ("limit", .int (min r.limit 100))] ++
        ifAnchor (anchor r.endTs startTime) fun a => ("after", .text (toString (a + 1))) }

/-- A candle request, recent or historical, with the page size cut to `cap`. -/
def candleQuery (path apiSymbol bar : String) (cap : ℤ) (startTime : Option ℤ)
    (r : PageRequest) : Query where
  path := path
  params := [("instId", .text apiSymbol), ("bar", .text bar), ("limit", .int (min r.limit cap))] ++
    ifAnchor (anchor r.endTs startTime) fun a => ("after", .text (toString (a + 1)))

/-- The arguments of `get_candles`, symbol and bar resolved. -/
structure CandlesRead where
  apiSymbol : String
  bar : String
  startTime : Option ℤ
  limit : ℤ

namespace CandlesRead

/-- The request of `fetch_recent`. -/
def recent (c : CandlesRead) (r : PageRequest) : Query :=
  candleQuery "/api/v5/market/candles" c.apiSymbol c.bar 300 c.startTime r

/-- The request of `fetch_history`. -/
def history (c : CandlesRead) (r : PageRequest) : Query :=
  candleQuery "/api/v5/market/history-candles" c.apiSymbol c.bar 100 c.startTime r

/-- Whether one page of recent candles is the whole call. -/
def single (c : CandlesRead) : Bool := c.startTime.isNone && decide (c.limit ≤ 300)

/-- The page size of the first request. -/
def firstLimit (c : CandlesRead) : ℤ := if c.single then c.limit else min c.limit 300

/-- The first request of the call, always for recent candles. -/
def first (c : CandlesRead) : Query := c.recent ⟨none, c.firstLimit⟩

end CandlesRead

section

variable {ρ α κ : Type*} [DecidableEq κ] (timestamp : α → ℤ) (modelDumpJson : α → κ)
  (venue : Venue ρ) (parse : ρ → Except Fault (List α))

/-- The fetch of `get_liquidations`: a refused request is an empty page. -/
def fetchLiquidations (query : ℕ → PageRequest → Query) : Upstream α := fun n request =>
  match venue n (query n request) with
  | .error e => if e.isRejection then .ok [] else .error e
  | .ok rows => parse rows

/-- `{c.timestamp: c for c in xs}.values()`, by time: of equal timestamps the last stays. -/
def byTimestamp (xs : List α) : List α :=
  let dict : AList (fun _ : ℤ => α) := xs.foldl (fun d c => d.insert (timestamp c) c) ∅
  Newest.sortByTime timestamp (dict.entries.map Sigma.snd)

/-- The walk over older candles, its requests numbered on from the recent one. -/
def historyWalk (c : CandlesRead) (older : PageRequest → PageRequest) (limit : ℤ) : ReadCall α :=
  walk timestamp modelDumpJson
    (fetchPage (fun n => venue (n + 1)) parse fun _ r => c.history (older r))
    (fun _ r => c.history (older r)) limit 100

/-- `get_candles`: recent candles first, then older ones for what is missing. -/
def getCandles (c : CandlesRead) : ReadCall α :=
  match (venue 0 c.first).bind parse with
  | .error e => ⟨[c.first], .error e⟩
  | .ok recentBatch =>
    if c.single then ⟨[c.first], .ok (sliceTail recentBatch c.limit)⟩
    else
      match recentBatch with
      | [] =>
        let call := historyWalk timestamp modelDumpJson venue parse c id c.limit
        ⟨c.first :: call.asked, call.result⟩
      | oldestRecent :: _ =>
        if c.limit ≤ recentBatch.length then ⟨[c.first], .ok (sliceTail recentBatch c.limit)⟩
        else
          let older : PageRequest → PageRequest := fun r =>
            ⟨anchor r.endTs (some (timestamp oldestRecent - 1)), r.limit⟩
          let call := historyWalk timestamp modelDumpJson venue parse c older
            (c.limit - recentBatch.length)
          ⟨c.first :: call.asked, call.result.map fun historyBatch =>
            sliceTail (byTimestamp timestamp (historyBatch ++ recentBatch)) c.limit⟩

end

end Okx

/-! ## All of them -/

/-- A method that ends in `_paginate_backwards`, with what it resolved before: the symbol as
the venue spells it, the interval or period as it was mapped, the clock where it reads one. -/
inductive Read where
  | binanceAggTrades (marketType : MarketType) (apiSymbol : String)
  | binanceCandles (marketType : MarketType) (apiSymbol interval : String)
  | binanceOpenInterest (marketType : MarketType) (rawSymbol period : String)
  | binanceLongShortRatio (marketType : MarketType) (rawSymbol period : String)
  | bybitCandles (cat apiSymbol bybitInterval : String)
  | bybitFundingRate (cat apiSymbol : String)
  | bybitOpenInterest (cat apiSymbol interval : String)
  | bybitLongShortRatio (cat apiSymbol interval : String)
  | hyperliquidCandles (coin interval : String) (intervalMs : ℤ) (now : ℕ → ℤ)
  | hyperliquidFundingRate (coin : String) (cycleMs : ℤ) (now : ℕ → ℤ)
  | kucoinCandlesSpot (apiSymbol ktype : String) (intervalMs : ℤ) (now : ℕ → ℤ)
  | kucoinCandlesFutures (apiSymbol : String) (granularity : ℤ)
  | kucoinFundingRate (apiSymbol : String) (now : ℕ → ℤ)
  | kucoinOpenInterest (apiSymbol interval : String) (periodMs : ℤ) (now : ℕ → ℤ)
  | okxCandles (apiSymbol bar : String)
  | okxFundingRate (apiSymbol : String)
  | okxOpenInterest (apiSymbol bar : String)
  | okxLiquidations (uly : String)
  | okxLongShortRatio (ccy bar : String)

/-- The three shapes of these methods. -/
inductive Shape where
  /-- The fetch lets every fault through. -/
  | plain (r : PagedRead)
  /-- The fetch turns a refusal into an empty page. -/
  | caught (r : PagedRead)
  /-- Recent candles first, older ones by the walk. -/
  | recentFirst (c : Okx.CandlesRead)

/-- The method, called with a start and a limit. -/
def Read.shape (startTime : Option ℤ) (limit : ℤ) : Read → Shape
  | binanceAggTrades m s => .plain (Binance.getAggTrades m s startTime limit)
  | binanceCandles m s i => .plain (Binance.getCandles m s i startTime limit)
  | binanceOpenInterest m s p => .plain (Binance.getOpenInterest m s p startTime limit)
  | binanceLongShortRatio m s p => .plain (Binance.getLongShortRatio m s p startTime limit)
  | bybitCandles c s i => .plain (Bybit.getCandles c s i startTime limit)
  | bybitFundingRate c s => .plain (Bybit.getFundingRate c s startTime limit)
  | bybitOpenInterest c s i => .plain (Bybit.getOpenInterest c s i startTime limit)
  | bybitLongShortRatio c s i => .plain (Bybit.getLongShortRatio c s i startTime limit)
  | hyperliquidCandles c i ms now => .plain (Hyperliquid.getCandles c i ms now startTime limit)
  | hyperliquidFundingRate c ms now => .plain (Hyperliquid.getFundingRate c ms now startTime limit)
  | kucoinCandlesSpot s k ms now => .plain (Kucoin.getCandlesSpot s k ms now startTime limit)
  | kucoinCandlesFutures s g => .plain (Kucoin.getCandlesFutures s g startTime limit)
  | kucoinFundingRate s now => .plain (Kucoin.getFundingRate s now startTime limit)
  | kucoinOpenInterest s i ms now => .plain (Kucoin.getOpenInterest s i ms now startTime limit)
  | okxCandles s b => .recentFirst ⟨s, b, startTime, limit⟩
  | okxFundingRate s => .plain (Okx.getFundingRate s startTime limit)
  | okxOpenInterest s b => .plain (Okx.getOpenInterest s b startTime limit)
  | okxLiquidations u => .caught (Okx.getLiquidations u startTime limit)
  | okxLongShortRatio c b => .plain (Okx.getLongShortRatio c b startTime limit)

section

variable {ρ α κ : Type*} [DecidableEq κ] (timestamp : α → ℤ) (modelDumpJson : α → κ)
  (venue : Venue ρ) (parse : ρ → Except Fault (List α))

/-- The call of a method of that shape. -/
def Shape.call : Shape → ReadCall α
  | plain r => r.call timestamp modelDumpJson venue parse
  | caught r =>
    r.callWith timestamp modelDumpJson (Okx.fetchLiquidations venue parse r.query)
  | recentFirst c => Okx.getCandles timestamp modelDumpJson venue parse c

/-- A paged read, by its shape. -/
def Read.call (read : Read) (startTime : Option ℤ) (limit : ℤ) : ReadCall α :=
  (read.shape startTime limit).call timestamp modelDumpJson venue parse

end

end ExchangeRouter
