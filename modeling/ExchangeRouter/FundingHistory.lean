import ExchangeRouter.Klines

/-!
# Funding rates, row by row

What a venue answers to a request for funding history, how a row is read, and
`get_funding_rate` of Hyperliquid and of Binance, from the request to the rates.
-/

namespace ExchangeRouter

/-- A row of funding history: the venue's symbol, the time and the rate. `none` is a value that
`normalize_timestamp` or `float` raises on. -/
structure FundingRow where
  symbol : String
  time : Option ℤ
  fundingRate : Option ℚ
deriving DecidableEq, Repr

/-- `FundingHistorical`. -/
structure FundingHistorical where
  kind : String
  perCycle : ℚ
  cycleMs : ℤ
deriving DecidableEq, Repr

/-- `FundingRate`. -/
structure FundingRate where
  symbol : String
  marketType : MarketType
  quote : String
  rate : FundingHistorical
  timestamp : ℤ
deriving DecidableEq, Repr

/-- `build_funding_historical`. -/
def buildFundingHistorical (kind : String) (perCycle : ℚ) (cycleMs : ℤ) : FundingHistorical :=
  ⟨kind, perCycle, cycleMs⟩

/-- `FundingRate(…)` of a row, under the symbol that the adapter gives it. -/
def FundingRow.read (symbolOf : FundingRow → String) (marketType : MarketType) (quote : String)
    (cycleMs : ℤ) (r : FundingRow) : Except Fault FundingRate := do
  let perCycle ← Binance.float r.fundingRate
  let timestamp ← KlineRow.time ⟨r.time, []⟩
  return ⟨symbolOf r, marketType, quote, buildFundingHistorical "discrete" perCycle cycleMs,
    timestamp⟩

/-! ## Hyperliquid -/

namespace Hyperliquid

/-- `_FUNDING_CYCLE_MS`. -/
def fundingCycleMs : ℤ := 3600000

/-- What `get_funding_rate` has resolved before it asks. -/
structure FundingMarket where
  symbol : String
  quote : String
  coin : String
  /-- `_funding_interval_ms_for`. -/
  intervalMs : Option ℤ

/-- `cycle_ms`. -/
def FundingMarket.cycleMs (m : FundingMarket) : ℤ := m.intervalMs.getD fundingCycleMs

/-- The rows of a page, by time. -/
def parseFunding (m : FundingMarket) (rows : List FundingRow) :
    Except Fault (List FundingRate) :=
  (rows.mapM (FundingRow.read (fun _ => m.symbol) .linear m.quote m.cycleMs)).map
    (Newest.sortByTime FundingRate.timestamp)

/-- `get_funding_rate` on the linear market, from the request to the rates. -/
def fundingRateCall {κ : Type*} [DecidableEq κ] (modelDumpJson : FundingRate → κ)
    (m : FundingMarket) (venue : Venue (List FundingRow)) (now : ℕ → ℤ) (startTime : Option ℤ)
    (limit : ℤ) : ReadCall FundingRate :=
  (getFundingRate m.coin m.cycleMs now startTime limit).call FundingRate.timestamp modelDumpJson
    venue (parseFunding m)

end Hyperliquid

/-! ## Binance -/

namespace Binance

/-- What `get_funding_rate` has resolved before it asks, on a market that is not spot. -/
structure FundingMarket where
  marketType : MarketType
  apiSymbol : String
  /-- `get_model_symbol` on this market. -/
  modelSymbol : String → String
  quote : String
  /-- `_funding_interval_ms_for`. -/
  intervalMs : Option ℤ

/-- `default_cadence_ms`. -/
def defaultCadenceMs : ℤ := 8 * 3600000

namespace FundingMarket

/-- `cycle_ms`. -/
def cycleMs (m : FundingMarket) : ℤ := m.intervalMs.getD defaultCadenceMs

/-- The path of the funding history. -/
def endpoint (m : FundingMarket) : String :=
  if m.marketType = .linear then "/fapi/v1/fundingRate" else "/dapi/v1/fundingRate"

/-- A request for the newest rows. -/
def newestQuery (m : FundingMarket) (limit : ℤ) : Query where
  path := m.endpoint
  params := [("symbol", .text m.apiSymbol), ("limit", .int limit)]

/-- A request for a window. -/
def windowQuery (m : FundingMarket) (limit startTime endTime : ℤ) : Query where
  path := m.endpoint
  params := [("symbol", .text m.apiSymbol), ("limit", .int limit), ("startTime", .int startTime),
    ("endTime", .int endTime)]

end FundingMarket

/-- `cadence_ms`: the median of the intervals between the recent rows, a minute at least. -/
def cadenceMs (recent : List ℤ) : ℤ :=
  if 2 ≤ recent.length then
    let intervals := Newest.sortByTime id (recent.zipWith (fun t next => next - t) recent.tail)
    max (intervals.getD (intervals.length / 2) 0) 60000
  else defaultCadenceMs

/-- The local variables of the walk. -/
structure FundingWalk where
  asked : List Query
  collected : List FundingRate
  seen : List ℤ

/-- How a round of the walk ends. -/
inductive FundingStep where
  | stop (w : FundingWalk) (fault : Option Fault)
  | again (w : FundingWalk)

section

variable (m : FundingMarket) (venue : Venue (List FundingRow))

/-- `call(params)`, as request number `n`. -/
def fundingPage (n : ℕ) (query : Query) : Except Fault (List FundingRate) :=
  (venue n query).bind fun data =>
    data.mapM (FundingRow.read (fun r => m.modelSymbol r.symbol) m.marketType m.quote m.cycleMs)

/-- One round of the `while` loop. -/
def fundingStep (cadence : ℤ) (w : FundingWalk) : FundingStep :=
  match (w.collected.map FundingRate.timestamp).min? with
  | none => .stop w (some (.valueError "min() arg is an empty sequence"))
  | some oldestTs =>
    let query := m.windowQuery 1000 (max 0 (oldestTs - 1000 * cadence)) (oldestTs - 1)
    let sent := { w with asked := w.asked ++ [query] }
    match fundingPage m venue w.asked.length query with
    | .error e => .stop sent (some e)
    | .ok batch =>
      match batch.filter fun r => decide (r.timestamp ∉ w.seen) with
      | [] => .stop sent none
      | r :: new =>
        .again { sent with
          collected := w.collected ++ r :: new
          seen := w.seen ++ (r :: new).map FundingRate.timestamp }

/-- The `while` loop, by the pages it may still ask for. -/
def fundingLoop (cadence limit : ℤ) : ℕ → FundingWalk → FundingWalk × Option Fault
  | 0, w => (w, none)
  | safetyPages + 1, w =>
    if (w.collected.length : ℤ) < limit then
      match fundingStep m venue cadence w with
      | .stop w fault => (w, fault)
      | .again w => fundingLoop cadence limit safetyPages w
    else (w, none)

/-- `get_funding_rate`, from the request to the rates. -/
def getFundingRate (startTime : Option ℤ) (limit : ℤ) : ReadCall FundingRate :=
  match startTime with
  | some start =>
    let query := m.windowQuery (min limit 1000) (max 0 (start - min limit 1000 * m.cycleMs)) start
    ⟨[query], (fundingPage m venue 0 query).map fun rates => sliceTail rates limit⟩
  | none =>
    let query := m.newestQuery (min limit 200)
    match fundingPage m venue 0 query with
    | .error e => ⟨[query], .error e⟩
    | .ok recent =>
      if limit ≤ recent.length then ⟨[query], .ok (sliceTail recent limit)⟩
      else
        let times := recent.map FundingRate.timestamp
        let run := fundingLoop m venue (cadenceMs times) limit 10 ⟨[query], recent, times⟩
        { asked := run.1.asked
          result := match run.2 with
            | some e => .error e
            | none => .ok (sliceTail (Newest.sortByTime FundingRate.timestamp run.1.collected) limit) }

end

end Binance

end ExchangeRouter
