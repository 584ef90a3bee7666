import Mathlib.Data.Rat.Defs

/-!
# Model types

The enums and records of `models.py` that the modelled functions read or return.
-/

namespace ExchangeRouter

/-- `MarketType`. -/
inductive MarketType where
  | spot
  | linear
  | inverse
deriving DecidableEq, Repr

namespace MarketType

/-- The enum's value. -/
def value : MarketType → String
  | spot => "spot"
  | linear => "linear"
  | inverse => "inverse"

/-- `MarketType(s)`, `none` where it raises `ValueError`. -/
def ofString (s : String) : Option MarketType :=
  if s = "spot" then some spot
  else if s = "linear" then some linear
  else if s = "inverse" then some inverse
  else none

@[simp] theorem ofString_value (m : MarketType) : ofString m.value = some m := by
  cases m <;> rfl

end MarketType

/-- `Literal["base", "contract"]`. -/
inductive QtyUnit where
  | base
  | contract
deriving DecidableEq, Repr

/-- `"contract" if market_type == MarketType.INVERSE else "base"`. -/
def MarketType.qtyUnit (m : MarketType) : QtyUnit :=
  if m = .inverse then .contract else .base

/-- `QtyValue`. -/
structure QtyValue where
  native : ℚ
  unit : QtyUnit
  contractSize : Option ℚ
  usd : ℚ
deriving DecidableEq, Repr

/-- `build_qty_value`, `none` where it raises. -/
def buildQtyValue (native : ℚ) (qtyUnit : QtyUnit) (contractSize : Option ℚ) (price : ℚ) :
    Option QtyValue :=
  match qtyUnit with
  | .contract => contractSize.map fun size => ⟨native, .contract, some size, native * size⟩
  | .base => some ⟨native, .base, none, native * price⟩

/-- A value keeps the quantity it was built from. -/
lemma buildQtyValue_native {native price : ℚ} {unit : QtyUnit} {size : Option ℚ} {v : QtyValue}
    (h : buildQtyValue native unit size price = some v) : v.native = native := by
  unfold buildQtyValue at h
  split at h
  · obtain ⟨s, -, rfl⟩ := Option.map_eq_some_iff.mp h
    rfl
  · rw [← Option.some.inj h]

/-- `OrderBook`. -/
structure OrderBook where
  symbol : String
  marketType : MarketType
  quote : String
  bids : List (ℚ × ℚ)
  asks : List (ℚ × ℚ)
  qtyUnit : QtyUnit
  timestamp : ℤ
deriving DecidableEq, Repr

/-- `BookTicker`. -/
structure BookTicker where
  symbol : String
  marketType : MarketType
  quote : String
  bidPrice : ℚ
  bidQty : QtyValue
  askPrice : ℚ
  askQty : QtyValue
  timestamp : ℤ
deriving DecidableEq, Repr

/-- `normalize_timestamp` of a number; `none` is a value it raises on. -/
def normalizeTimestamp (ts : Option ℤ) : Option ℤ :=
  ts.map fun t => if t < 100000000000 then t * 1000 else t

end ExchangeRouter
