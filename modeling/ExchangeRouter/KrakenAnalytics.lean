import ExchangeRouter.BybitTicker
import ExchangeRouter.Klines

/-!
# The analytics of Kraken futures

`get_open_interest` and `get_long_short_ratio` ask for one window of a chart, and
`_extract_analytics` finds its points in whichever of three shapes the reply has. `get_funding_rate`
asks for all there is. The three cut what they have read alike.

Texts, floats and times are those of `BybitTicker`. A venue is the reply it gives to the interval
and the `since` of a request.
-/

namespace ExchangeRouter
namespace KrakenAnalytics

open BybitTicker (Raised Texts)
open MakeRequest (Json PyFloat)

/-! ## `_extract_analytics` -/

/-- A value as it was read: converted already, or not. -/
inductive Value where
  | json (v : Json)
  | float (x : PyFloat)

/-- `float(e["value"])`. -/
def Value.toFloat (texts : Texts) : Value → Except Raised PyFloat
  | .json v => BybitTicker.float texts v
  | .float x => .ok x

/-- What `_extract_analytics` returns a list of. -/
structure Element where
  time : Json
  value : Value

/-- `t * 1000`. -/
def thousandfold : Json → Except Raised Json
  | .num q => .ok (.num (q * 1000))
  | .bool b => .ok (.num (if b then 1000 else 0))
  | .str s => .ok (.str (String.join (List.replicate 1000 s)))
  | .arr xs => .ok (.arr (List.replicate 1000 xs).flatten)
  | _ => .error .malformed

/-- `value is None`. -/
def isNone : Json → Bool
  | .null => true
  | _ => false

/-- An entry of `candles`, if it has the field and a time. -/
def candleElement (field : String) (c : Json) : Except Raised (Option Element) :=
  match c.item? field, c.item? "time" with
  | some value, some t => (thousandfold t).map fun time => some ⟨time, .json value⟩
  | _, _ => .ok none

/-- `row[-1]` of a list that is not empty, else the row. -/
def rowValue : Json → Json
  | .arr xs => (xs.getLast?).getD (.arr xs)
  | row => row

/-- A row of `data` under its time, unless its value is null. -/
def rowElement (texts : Texts) (r : Json × Json) : Except Raised (Option Element) :=
  if isNone (rowValue r.2) then .ok none
  else (BybitTicker.float texts (rowValue r.2)).map fun x => some ⟨r.1, .float x⟩

/-- What a loop appended. -/
def appended (elements : Except Raised (List (Option Element))) : Except Raised (List Element) :=
  elements.map List.reduceOption

/-- The elements of `result`: rows of `data`, or the field of it. -/
def resultElements (texts : Texts) (field : String) (res : Json) : Except Raised (List Element) :=
  match res.item? "timestamp", res.item? "data" with
  | some (.arr timestamps), some (.arr rows) =>
    appended ((timestamps.zip rows).mapM (rowElement texts))
  | some (.arr timestamps), some (.obj payload) =>
    match (Json.obj payload).item? field with
    | some (.arr values) =>
      .ok (((timestamps.zip values).filter fun e => !isNone e.2).map fun e => ⟨e.1, .json e.2⟩)
    | _ => .ok []
  | _, _ => .ok []

/-- `_extract_analytics`. -/
def extractAnalytics (texts : Texts) (data : Json) (field : String) : Except Raised (List Element) :=
  let candles := match data.item? "candles" with
    | some (.arr cs) => appended (cs.mapM (candleElement field))
    | _ => .ok []
  candles.bind fun results =>
    if results.isEmpty then
      match data.item? "result" with
      | some (.obj res) => resultElements texts field (.obj res)
      | _ => .ok []
    else .ok results

/-! ## The reads -/

/-- The last lines of the three reads: by time, at or before the start, the last `limit`. -/
def cut {α : Type} (time : α → ℤ) (startTime : Option ℤ) (limit : ℤ) (results : List α) : List α :=
  let sorted := Newest.sortByTime time results
  let upTo := match startTime with
    | none => sorted
    | some s => if s = 0 then sorted else sorted.filter fun r => decide (time r ≤ s)
  sliceTail upTo limit

/-- `mapping` of `_map_analytics_interval`. -/
def analyticsIntervals : List (String × ℤ) :=
  [("1m", 60), ("5m", 300), ("15m", 900), ("30m", 1800), ("1h", 3600), ("4h", 14400),
    ("12h", 43200), ("1d", 86400)]

/-- What a call has resolved, and looked up. -/
structure Market where
  symbol : String
  marketType : MarketType
  quote : String
  contractSize : Option ℚ
  period : String

/-- What an element becomes, whose value is a float; its time is read after it. -/
abbrev Make (α : Type) := PyFloat → Except Raised (ℤ → α)

/-- An element as a record. -/
def record {α : Type} (texts : Texts) (make : Make α) (e : Element) : Except Raised α := do
  let x ← e.value.toFloat texts
  let build ← make x
  let ts ← BybitTicker.normalizeTimestamp texts e.time
  return build ts

/-- `get_open_interest` and `get_long_short_ratio` but for their records. -/
def getAnalytics {α : Type} (texts : Texts) (field : String) (make : Make α) (time : α → ℤ)
    (venue : ℤ → ℤ → Except Raised Json) (m : Market) (nowSecs : ℤ) (startTime : Option ℤ)
    (limit : ℤ) : Except Raised (List α) :=
  if m.marketType = .spot then .error .other
  else
    match analyticsIntervals.lookup m.period with
    | none => .error .malformed
    | some intervalSecs => do
      let since := max 0 (Kraken.anchorSecsOf startTime nowSecs - limit * intervalSecs)
      let data ← venue intervalSecs since
      let elements ← extractAnalytics texts data field
      let results ← elements.mapM (record texts make)
      return cut time startTime limit results

/-! ### Open interest -/

/-- `OpenInterest`, its basis left to the join. -/
structure OpenInterest where
  symbol : String
  marketType : MarketType
  quote : String
  interval : String
  native : PyFloat
  unit : QtyUnit
  contractSize : Option ℚ
  usd : Option PyFloat
  timestamp : ℤ

/-- `build_oi_value` without a candle, and the record around it. -/
def makeOpenInterest (m : Market) : Make OpenInterest := fun native =>
  match m.marketType.qtyUnit with
  | .contract =>
    match m.contractSize with
    | none => .error .malformed
    | some size => .ok (⟨m.symbol, m.marketType, m.quote, m.period, native, .contract, some size,
        some (BybitTicker.product native (.finite size)), ·⟩)
  | .base => .ok (⟨m.symbol, m.marketType, m.quote, m.period, native, .base, none, none, ·⟩)

/-- `get_open_interest`. -/
def getOpenInterest (texts : Texts) (venue : ℤ → ℤ → Except Raised Json) (m : Market)
    (nowSecs : ℤ) (startTime : Option ℤ) (limit : ℤ) : Except Raised (List OpenInterest) :=
  getAnalytics texts "openInterest" (makeOpenInterest m) OpenInterest.timestamp venue m nowSecs
    startTime limit

/-! ### Long/short ratio -/

/-- `LongShortRatio`, with no accounts and the scope `opaque`. -/
structure LongShortRatio where
  symbol : String
  marketType : MarketType
  interval : String
  ratio : PyFloat
  timestamp : ℤ

/-- The record of a ratio. -/
def makeLongShortRatio (m : Market) : Make LongShortRatio := fun ratio =>
  .ok (⟨m.symbol, m.marketType, m.period, ratio, ·⟩)

/-- `get_long_short_ratio`. -/
def getLongShortRatio (texts : Texts) (venue : ℤ → ℤ → Except Raised Json) (m : Market)
    (nowSecs : ℤ) (startTime : Option ℤ) (limit : ℤ) : Except Raised (List LongShortRatio) :=
  getAnalytics texts "ratio" (makeLongShortRatio m) LongShortRatio.timestamp venue m nowSecs
    startTime limit

/-! ### Funding -/

/-- `FundingRate`, continuous, with a cycle of an hour. -/
structure FundingRate where
  symbol : String
  marketType : MarketType
  quote : String
  perCycle : PyFloat
  timestamp : ℤ

/-- `r.get(key, default)`; what is no dictionary has no `get`. -/
def get (r : Json) (key : String) (default : Json) : Except Raised Json :=
  match r with
  | .obj fields => .ok (((Json.obj fields).item? key).getD default)
  | _ => .error .malformed

/-- What `for r in rates` goes over. No `r` can be read of a text or of a dictionary. -/
def items : Json → Except Raised (List Json)
  | .arr rates => .ok rates
  | .obj [] => .ok []
  | .str "" => .ok []
  | _ => .error .malformed

/-- A rate of the reply, unless it is after the start. -/
def fundingRate (texts : Texts) (m : Market) (startTime : Option ℤ) (r : Json) :
    Except Raised (Option FundingRate) := do
  let ts ← (get r "timestamp" .null).bind (BybitTicker.normalizeTimestamp texts)
  if startTime.any fun s => decide (s ≠ 0 ∧ s < ts) then return none
  else
    let perCycle ← (get r "relativeFundingRate" (.num 0)).bind (BybitTicker.float texts)
    return some ⟨m.symbol, m.marketType, m.quote, perCycle, ts⟩

/-- `get_funding_rate`. -/
def getFundingRate (texts : Texts) (data : Except Raised Json) (m : Market) (startTime : Option ℤ)
    (limit : ℤ) : Except Raised (List FundingRate) :=
  if m.marketType = .spot then .error .other
  else do
    let rates ← get (← data) "rates" (.arr [])
    let results ← (items rates).bind fun rates => rates.mapM (fundingRate texts m startTime)
    return sliceTail (Newest.sortByTime FundingRate.timestamp results.reduceOption) limit

end KrakenAnalytics
end ExchangeRouter
