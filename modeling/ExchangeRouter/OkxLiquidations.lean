import ExchangeRouter.Lib.Text
import ExchangeRouter.PagedReads
import ExchangeRouter.SideCaches

/-!
# The liquidations of OKX

`get_liquidations` from the point where the symbol is resolved, with its `_parse`. The venue
groups its events by instrument, and one request may bring those of other instruments.
-/

namespace ExchangeRouter
namespace Okx

open SideCaches

/-! ## The records -/

/-- An entry of `details`; `none` is a field that it lacks. -/
structure LiquidationDetail where
  side : Option String
  bkPx : Cell
  sz : Cell
  ts : Option ℤ
deriving DecidableEq, Repr

/-- A row of the reply. -/
structure LiquidationEntry where
  instId : Option String
  details : List LiquidationDetail
deriving DecidableEq, Repr

/-- `Liquidation`. -/
structure Liquidation where
  symbol : String
  marketType : MarketType
  quote : String
  side : String
  price : ℚ
  qty : QtyValue
  timestamp : ℤ
deriving DecidableEq, Repr

/-- What a call has resolved and looked up. -/
structure LiquidationMarket where
  symbol : String
  apiSymbol : String
  quote : String
  marketType : MarketType
  contractSize : Option ℚ
  multiplier : Option ℚ
deriving DecidableEq, Repr

/-! ## `_parse` -/

/-- `d.get("side", "").lower()`. -/
def LiquidationDetail.sideText (d : LiquidationDetail) : String :=
  String.ofList ((d.side.getD "").toList.map Char.toLower)

/-- `normalize_timestamp(d["ts"])`. -/
def LiquidationDetail.time (d : LiquidationDetail) : Except Fault ℤ :=
  match normalizeTimestamp d.ts with
  | some t => .ok t
  | none => .error (.valueError "Could not parse timestamp string")

/-- `native`, where a linear market without a multiplier has been refused. -/
def LiquidationMarket.native (m : LiquidationMarket) (size : ℚ) : ℚ :=
  if m.marketType = .linear then size * m.multiplier.getD 1 else size

/-- `build_qty_value` of a size. -/
def LiquidationMarket.qty (m : LiquidationMarket) (size price : ℚ) : Except Fault QtyValue :=
  match buildQtyValue (m.native size) m.marketType.qtyUnit m.contractSize price with
  | some qty => .ok qty
  | none => .error
      (.valueError "build_qty_value: contract_size is required when qty_unit == 'contract'")

/-- The body of the loop over `details`, `none` for an event that is passed over. -/
def readLiquidation (m : LiquidationMarket) (d : LiquidationDetail) :
    Except Fault (Option Liquidation) :=
  if d.sideText ∉ ["buy", "sell"] then .ok none
  else do
    let price ← d.bkPx.float
    let size ← d.sz.float
    let qty ← m.qty size price
    let time ← d.time
    return some ⟨m.symbol, m.marketType, m.quote, d.sideText, price, qty, time⟩

/-- The events of the instrument. -/
def LiquidationMarket.events (m : LiquidationMarket) (rows : List LiquidationEntry) :
    List LiquidationDetail :=
  (rows.filter fun entry => decide (entry.instId = some m.apiSymbol)).flatMap
    LiquidationEntry.details

/-- `_parse`. -/
def parseLiquidations (m : LiquidationMarket) (rows : List LiquidationEntry) :
    Except Fault (List Liquidation) :=
  ((m.events rows).mapM (readLiquidation m)).map fun out =>
    Newest.sortByTime Liquidation.timestamp out.reduceOption

/-! ## The call -/

/-- `uly`. -/
def LiquidationMarket.uly (m : LiquidationMarket) : String :=
  String.ofList (Text.remove "-SWAP".toList m.apiSymbol.toList)

section

variable {κ : Type*} [DecidableEq κ] (modelDumpJson : Liquidation → κ) (m : LiquidationMarket)
  (venue : Venue (List LiquidationEntry)) (startTime : Option ℤ) (limit : ℤ)

/-- `get_liquidations`, on a market that it does not refuse. -/
def readLiquidations : ReadCall Liquidation :=
  (getLiquidations m.uly startTime limit).callWith Liquidation.timestamp modelDumpJson
    (fetchLiquidations venue (parseLiquidations m) (getLiquidations m.uly startTime limit).query)

/-- `get_liquidations`. -/
def liquidations : Except Fault (List Liquidation) :=
  if m.marketType = .spot then
    .error (.notImplemented s!"okx does not support liquidations for {m.marketType.value}")
  else if m.marketType = .linear ∧ m.multiplier = none then
    .error (.valueError s!"Contract multiplier unavailable for {m.symbol} on OKX linear")
  else (readLiquidations modelDumpJson m venue startTime limit).result

end

end Okx
end ExchangeRouter
