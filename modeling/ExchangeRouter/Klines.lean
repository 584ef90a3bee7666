import ExchangeRouter.Adapters
import ExchangeRouter.PagedReads

/-!
# Candles and aggregate trades, row by row

What the venues answer to a candle request, how each adapter reads a row, and `get_candles`
of Kraken, which asks forward from a time before the anchor and cuts the result at the start
itself. A number is what `float` makes of its cell, and floats are read as the rationals they
stand for.
-/

namespace ExchangeRouter

/-! ## Replies -/

/-- A kline: its time, and the cells after it in the row's order. `none` is a cell that
`normalize_timestamp` or `float` raises on. -/
structure KlineRow where
  ts : Option ℤ
  cells : List (Option ℚ)
deriving DecidableEq, Repr

/-- A decoded body. An entry without rows is `null`, or the cursor that stands under `last`. -/
inductive KlineReply where
  | array (rows : List KlineRow)
  | object (entries : List (String × Option (List KlineRow)))
deriving DecidableEq, Repr

namespace KlineRow

/-- `normalize_timestamp` of the time cell. -/
def time (r : KlineRow) : Except Fault ℤ :=
  match normalizeTimestamp r.ts with
  | some t => .ok t
  | none => .error (.valueError "Could not parse timestamp string")

/-- `float(r[i])`, for a cell after the time. -/
def float (r : KlineRow) (i : ℕ) : Except Fault ℚ :=
  match r.cells[i - 1]? with
  | none => .error (.other "list index out of range")
  | some none => .error (.valueError "could not convert string to float")
  | some (some x) => .ok x

end KlineRow

/-- `data.get(key)` and `data[key]`: the entry, without one `none`. -/
def entry (entries : List (String × Option (List KlineRow))) (key : String) :
    Option (Option (List KlineRow)) :=
  entries.lookup key

/-! ## Records -/

/-- `UsdBasis` of a volume, by its method. -/
inductive VolumeBasis where
  | contractSize
  | close
deriving DecidableEq, Repr

/-- `VolumeValue`. -/
structure VolumeValue where
  native : ℚ
  unit : QtyUnit
  contractSize : Option ℚ
  usd : ℚ
  usdBasis : VolumeBasis
deriving DecidableEq, Repr

/-- `build_volume_value`. -/
def buildVolumeValue (native : ℚ) (volumeUnit : QtyUnit) (contractSize : Option ℚ) (close : ℚ) :
    Except Fault VolumeValue :=
  match volumeUnit with
  | .contract =>
    match contractSize with
    | none => .error (.valueError
        "build_volume_value: contract_size is required when volume_unit == 'contract'")
    | some size => .ok ⟨native, .contract, some size, native * size, .contractSize⟩
  | .base => .ok ⟨native, .base, none, native * close, .close⟩

/-- The fields of a candle besides its time and its close. -/
structure CandleFields where
  symbol : String
  marketType : MarketType
  quote : String
  interval : String
  open_ : ℚ
  high : ℚ
  low : ℚ
  volume : VolumeValue
deriving DecidableEq, Repr

/-- `Candle`, with all its fields. -/
abbrev Kline := Candle CandleFields

/-- What a method has resolved before it asks: the symbol as the router spells it, the market
and the interval of the call, and of the symbol's info the quote and the contract size. -/
structure Market where
  symbol : String
  marketType : MarketType
  quote : String
  interval : String
  contractSize : Option ℚ
deriving DecidableEq, Repr

/-- `"contract" if is_inverse else "base"`. -/
def Market.unit (m : Market) : QtyUnit := m.marketType.qtyUnit

/-- `Candle(…)` of a row whose time and close are read; `volumeAt` is the volume's cell. -/
def Market.candle (m : Market) (volumeAt : ℕ) (r : KlineRow) (ts : ℤ) (close : ℚ) :
    Except Fault Kline := do
  let open_ ← r.float 1
  let high ← r.float 2
  let low ← r.float 3
  let native ← r.float volumeAt
  let volume ← buildVolumeValue native m.unit m.contractSize close
  return ⟨ts, close, ⟨m.symbol, m.marketType, m.quote, m.interval, open_, high, low, volume⟩⟩

/-- The rows of a venue that puts the time first and the close fourth. -/
def Market.readRow (m : Market) (volumeAt : ℕ) (r : KlineRow) : Except Fault Kline := do
  let close ← r.float 4
  let ts ← r.time
  m.candle volumeAt r ts close

/-! ## Binance -/

namespace Binance

/-- `_parse_candles`. -/
def parseCandles (m : Market) : KlineReply → Except Fault (List Kline)
  | .array rows => rows.mapM (m.readRow 5)
  | .object [] => .ok []
  -- a key of the object is a string, and no candle can be read off it
  | .object (_ :: _) => .error (.other "string index out of range")

/-- A row of an `aggTrades` reply. -/
structure AggRow where
  a : String
  p : Option ℚ
  q : Option ℚ
  f : String
  l : String
  m : Bool
  time : Option ℤ
deriving DecidableEq, Repr

/-- `AggTrade`. -/
structure AggTrade where
  aggId : String
  symbol : String
  marketType : MarketType
  quote : String
  price : ℚ
  qty : QtyValue
  firstTradeId : String
  lastTradeId : String
  side : String
  timestamp : ℤ
deriving DecidableEq, Repr

/-- `float(…)` of a cell that is there. -/
def float (cell : Option ℚ) : Except Fault ℚ :=
  match cell with
  | none => .error (.valueError "could not convert string to float")
  | some x => .ok x

/-- `build_qty_value`, with what it raises. -/
def qtyValue (m : Market) (native price : ℚ) : Except Fault QtyValue :=
  match buildQtyValue native m.unit m.contractSize price with
  | none => .error (.valueError
      "build_qty_value: contract_size is required when qty_unit == 'contract'")
  | some v => .ok v

/-- The body of the loop of `fetch_batch_by_end`. -/
def readAggTrade (m : Market) (t : AggRow) : Except Fault AggTrade := do
  let price ← float t.p
  let native ← float t.q
  let qty ← qtyValue m native price
  let timestamp ← KlineRow.time ⟨t.time, []⟩
  return { aggId := t.a, symbol := m.symbol, marketType := m.marketType, quote := m.quote,
           price := price, qty := qty, firstTradeId := t.f, lastTradeId := t.l,
           side := if t.m then "sell" else "buy", timestamp := timestamp }

/-- The rows of a page. -/
def parseAggTrades (m : Market) (rows : List AggRow) : Except Fault (List AggTrade) :=
  rows.mapM (readAggTrade m)

end Binance

/-! ## Bybit -/

/-- What `fetch_by_end` of `get_candles` does with a reply. -/
def Bybit.parseCandles (m : Market) : KlineReply → Except Fault (List Kline)
  | .array _ => .error (.other "list indices must be integers or slices, not str")
  | .object entries =>
    match entry entries "list" with
    | none => .error (.other "list")
    | some none => .ok []
    | some (some rows) =>
      (rows.mapM (m.readRow 5)).map (Newest.sortByTime Candle.timestamp)

/-! ## OKX -/

namespace Okx

/-- The body of the loop of `_parse`: a row that is short, that has no time or whose cells
raise is left out. -/
def readRow (m : Market) (r : KlineRow) : Option Kline :=
  if r.cells.length + 1 < 6 then none
  else
    match r.time with
    | .error _ => none
    | .ok ts =>
      if ts ≤ 0 then none
      else
        let volumeAt := if m.marketType = .linear ∧ 7 ≤ r.cells.length + 1 then 6 else 5
        (do let close ← r.float 4; m.candle volumeAt r ts close).toOption

/-- `_parse` of `get_candles`. -/
def parseCandles (m : Market) : KlineReply → Except Fault (List Kline)
  | .array rows => .ok (Newest.sortByTime Candle.timestamp (rows.filterMap (readRow m)))
  | .object _ => .ok []

end Okx

/-! ## KuCoin -/

namespace Kucoin

/-- `_s_to_ms`: seconds as milliseconds; `none` is a value that `int` raises on. -/
def sToMs (ts : Option ℤ) : ℤ :=
  match ts with
  | none => 0
  | some v => if v < 100000000000 then v * 1000 else v

/-- The body of the loop of `_parse` in `_get_candles_spot`: the close stands before the high and
the low. A row that is short, that has no time or whose cells raise is left out. -/
def readSpotRow (m : Market) (r : KlineRow) : Option Kline :=
  if r.cells.length + 1 < 6 then none
  else
    let ts := sToMs r.ts
    if ts ≤ 0 then none
    else
      (do let close ← r.float 2
          let open_ ← r.float 1
          let high ← r.float 3
          let low ← r.float 4
          let native ← r.float 5
          let volume ← buildVolumeValue native .base none close
          return (⟨ts, close, ⟨m.symbol, .spot, m.quote, m.interval, open_, high, low, volume⟩⟩ :
            Kline)).toOption

/-- `_parse` of `_get_candles_spot`. -/
def parseSpotCandles (m : Market) : KlineReply → Except Fault (List Kline)
  | .array rows => .ok (Newest.sortByTime Candle.timestamp (rows.filterMap (readSpotRow m)))
  | .object _ => .ok []

/-- `_get_candles_spot`, from the request to the candles. -/
def candlesSpotCall {κ : Type*} [DecidableEq κ] (modelDumpJson : Kline → κ) (m : Market)
    (venue : Venue KlineReply) (apiSymbol ktype : String) (intervalMs : ℤ) (now : ℕ → ℤ)
    (startTime : Option ℤ) (limit : ℤ) : ReadCall Kline :=
  (getCandlesSpot apiSymbol ktype intervalMs now startTime limit).call Candle.timestamp
    modelDumpJson venue (parseSpotCandles m)

end Kucoin

/-! ## Kraken -/

namespace Kraken

/-- What `get_candles` raises for an interval that Kraken lacks. -/
def unsupported (interval : String) : Fault :=
  .valueError ("Kraken does not support interval " ++ interval)

/-- `mapping` of `_map_spot_interval`, in minutes. -/
def spotIntervals : List (String × ℤ) :=
  [("1m", 1), ("5m", 5), ("15m", 15), ("30m", 30), ("1h", 60), ("4h", 240), ("1d", 1440),
    ("1w", 10080)]

/-- `interval_secs_map`. -/
def intervalSecsMap : List (String × ℤ) :=
  [("1m", 60), ("5m", 300), ("15m", 900), ("30m", 1800), ("1h", 3600), ("4h", 14400),
    ("12h", 43200), ("1d", 86400), ("1w", 604800)]

/-- `_map_spot_interval`. -/
def mapSpotInterval (interval : String) : Except Fault ℤ :=
  match spotIntervals.lookup interval with
  | none => .error (unsupported interval)
  | some minutes => .ok minutes

/-- `if start_time: … = [c for c in … if c.timestamp <= start_time]`. -/
def upToStart (startTime : Option ℤ) (candles : List Kline) : List Kline :=
  match startTime with
  | none => candles
  | some s => if s = 0 then candles else candles.filter fun c => decide (c.timestamp ≤ s)

/-- The last lines of both branches: by time, at or before the start, the last `limit`. -/
def finish (startTime : Option ℤ) (limit : ℤ) (candles : List Kline) : List Kline :=
  sliceTail (upToStart startTime (Newest.sortByTime Candle.timestamp candles)) limit

/-- `data[pair_key]`, under the first key that is not `last`. -/
def pairRows : KlineReply → Except Fault (List KlineRow)
  | .array _ => .error (.other "list object has no attribute keys")
  | .object entries =>
    match entries.filter fun e => decide (e.1 ≠ "last") with
    | [] => .error (.other "list index out of range")
    | (_, none) :: _ => .error (.other "object is not iterable")
    | (_, some rows) :: _ => .ok rows

/-- The request of the spot branch. `since` is asked for under a start only. -/
def spotQuery (apiSymbol : String) (intervalMin : ℤ) (startTime : Option ℤ) (limit : ℤ) : Query :=
  let intervalSecs := intervalMin * 60
  { path := "/OHLC"
    params := [("pair", .text apiSymbol), ("interval", .int intervalMin)] ++
      if 0 < intervalSecs then
        ifAnchor startTime fun s => ("since", .int (max 0 (s.tdiv 1000 - limit * intervalSecs)))
      else [] }

/-- `get_candles` on the spot market: one request. The volume is the sixth cell after the time,
behind the average price. -/
def getCandlesSpot (m : Market) (venue : Venue KlineReply) (apiSymbol : String)
    (startTime : Option ℤ) (limit : ℤ) : ReadCall Kline :=
  match mapSpotInterval m.interval with
  | .error e => ⟨[], .error e⟩
  | .ok intervalMin =>
    let query := spotQuery apiSymbol intervalMin startTime limit
    ⟨[query], do
      let data ← venue 0 query
      let rows ← pairRows data
      let results ← rows.mapM (m.readRow 6)
      return finish startTime limit results⟩

/-! ### The walk over a futures chart -/

/-- What the scan of a batch reads and writes. -/
structure ChartPage where
  allCandles : List Kline
  seenTs : List ℤ
  added : ℕ
  lastTsSecs : ℤ

/-- `for b in batch`. A row whose time is known already is not read. -/
def scanBatch (m : Market) : ChartPage → List KlineRow → Except Fault ChartPage
  | p, [] => .ok p
  | p, b :: batch => do
    let tsMs ← b.time
    if tsMs ∈ p.seenTs then scanBatch m { p with lastTsSecs := tsMs / 1000 } batch
    else
      let close ← b.float 4
      let c ← m.candle 5 b tsMs close
      scanBatch m ⟨p.allCandles ++ [c], tsMs :: p.seenTs, p.added + 1, tsMs / 1000⟩ batch

/-- The local variables of the walk. -/
structure ChartWalk where
  fromTs : ℤ
  allCandles : List Kline := []
  seenTs : List ℤ := []
  asked : List Query := []

/-- How the body of the loop ends: by `break` or an exception, or by going round again. -/
inductive ChartStep where
  | stop (w : ChartWalk) (fault : Option Fault)
  | again (w : ChartWalk)

/-- `data.get("candles", [])`. -/
def chartBatch : KlineReply → Except Fault (List KlineRow)
  | .array _ => .error (.other "list object has no attribute get")
  | .object entries => .ok (((entry entries "candles").getD none).getD [])

/-- A request to the chart endpoint. -/
def chartQuery (m : Market) (apiSymbol : String) (fromTs : ℤ) : Query where
  path := "/trade/" ++ apiSymbol ++ "/" ++ m.interval
  params := [("from", .int fromTs)]

section

variable (m : Market) (venue : Venue KlineReply) (apiSymbol : String)
  (intervalSecs anchorSecs : ℤ)

/-- The body of the loop. -/
def chartStep (w : ChartWalk) : ChartStep :=
  let query := chartQuery m apiSymbol w.fromTs
  let sent := { w with asked := w.asked ++ [query] }
  match venue w.asked.length query with
  | .error e => .stop sent (if e.isRejection then none else some e)
  | .ok data =>
    match chartBatch data with
    | .error e => .stop sent (some e)
    | .ok [] => .stop sent none
    | .ok (b :: batch) =>
      match scanBatch m ⟨w.allCandles, w.seenTs, 0, w.fromTs⟩ (b :: batch) with
      | .error e => .stop sent (some e)
      | .ok page =>
        let scanned := { sent with allCandles := page.allCandles, seenTs := page.seenTs }
        if page.added = 0 ∨ anchorSecs - intervalSecs ≤ page.lastTsSecs then .stop scanned none
        else .again { scanned with fromTs := page.lastTsSecs + intervalSecs }

/-- `for _ in range(20)`, by the rounds that are left. -/
def chartLoop : ℕ → ChartWalk → ChartWalk × Option Fault
  | 0, w => (w, none)
  | left + 1, w =>
    match chartStep m venue apiSymbol intervalSecs anchorSecs w with
    | .stop w fault => (w, fault)
    | .again w => chartLoop left w

end

/-- `int(start_time / 1000) if start_time else now_secs`. -/
def anchorSecsOf (startTime : Option ℤ) (nowSecs : ℤ) : ℤ :=
  match startTime with
  | none => nowSecs
  | some s => if s = 0 then nowSecs else s.tdiv 1000

/-- `get_candles` on a futures market. -/
def getCandlesFutures (m : Market) (venue : Venue KlineReply) (apiSymbol : String) (nowSecs : ℤ)
    (startTime : Option ℤ) (limit : ℤ) : ReadCall Kline :=
  match intervalSecsMap.lookup m.interval with
  | none => ⟨[], .error (unsupported m.interval)⟩
  | some intervalSecs =>
    let anchorSecs := anchorSecsOf startTime nowSecs
    let run := chartLoop m venue apiSymbol intervalSecs anchorSecs 20
      { fromTs := anchorSecs - limit * intervalSecs }
    ⟨run.1.asked,
      match run.2 with
      | some e => .error e
      | none => .ok (finish startTime limit run.1.allCandles)⟩

/-- `get_candles`. -/
def getCandles (m : Market) (venue : Venue KlineReply) (apiSymbol : String) (nowSecs : ℤ)
    (startTime : Option ℤ) (limit : ℤ) : ReadCall Kline :=
  if m.marketType = .spot then getCandlesSpot m venue apiSymbol startTime limit
  else getCandlesFutures m venue apiSymbol nowSecs startTime limit

end Kraken

/-! ## The candle reads that take a start -/

/-- An exchange's `get_candles`, with what it resolved besides the market: the symbol as the
venue spells it, the interval as it was mapped, the clock where it reads one. -/
inductive CandlesPath where
  | binance (apiSymbol : String)
  | bybit (cat apiSymbol bybitInterval : String)
  | okx (apiSymbol bar : String)
  | kraken (apiSymbol : String) (nowSecs : ℤ)
deriving DecidableEq, Repr

section

variable {κ : Type*} [DecidableEq κ] (modelDumpJson : Kline → κ)

/-- `get_candles` of that exchange. -/
def CandlesPath.call (m : Market) (venue : Venue KlineReply) (startTime : Option ℤ) (limit : ℤ) :
    CandlesPath → ReadCall Kline
  | binance s => (Binance.getCandles m.marketType s m.interval startTime limit).call
      Candle.timestamp modelDumpJson venue (Binance.parseCandles m)
  | bybit cat s i => (Bybit.getCandles cat s i startTime limit).call
      Candle.timestamp modelDumpJson venue (Bybit.parseCandles m)
  | okx s bar => Okx.getCandles Candle.timestamp modelDumpJson venue (Okx.parseCandles m)
      ⟨s, bar, startTime, limit⟩
  | kraken s nowSecs => Kraken.getCandles m venue s nowSecs startTime limit

end

/-- `get_agg_trades` of Binance, from the request to the trades. -/
def Binance.aggTradesCall {κ : Type*} [DecidableEq κ] (modelDumpJson : Binance.AggTrade → κ)
    (m : Market) (venue : Venue (List Binance.AggRow)) (apiSymbol : String)
    (startTime : Option ℤ) (limit : ℤ) : ReadCall Binance.AggTrade :=
  (Binance.getAggTrades m.marketType apiSymbol startTime limit).call
    Binance.AggTrade.timestamp modelDumpJson venue (Binance.parseAggTrades m)

end ExchangeRouter
