import ExchangeRouter.BybitTicker
import ExchangeRouter.SideCaches

/-!
# Margin tiers

The tables of how leverage falls as a position grows. Hyperliquid's rows say where they begin, the
router's where they end; Bybit hands its rows out in pages; OKX counts contracts. What the caches
around these fetches keep is `Caches`.

Texts and floats are those of `BybitTicker`.
-/

namespace ExchangeRouter
namespace MarginTiers

open BybitTicker (Texts)
open MakeRequest (Json PyFloat)

/-- What is raised: pydantic's `ValidationError`; a `KeyError`, an `IndexError`, a `TypeError` or an
`AttributeError`; the `LookupError` of a table that is not there; a `ValueError` of the adapter's; a
`NotImplementedError`; or what a request raised. -/
inductive Raised where
  | validation
  | malformed
  | lookup (tableId : ℤ)
  | valueError
  | notImplemented
  | upstream
deriving DecidableEq, Repr

/-! ## `build_margin_tier` -/

/-- `MarginTier`. -/
structure MarginTier where
  upTo : Option PyFloat
  maxLeverage : PyFloat
  maintenanceMarginRate : Option PyFloat
  initialMarginRate : Option PyFloat
  maintenanceDeduction : Option PyFloat

/-- A value as pydantic takes it for a float. -/
def asFloat (texts : Texts) (v : Json) : Except Raised PyFloat :=
  (BybitTicker.float texts v).mapError fun _ => .validation

/-- `_blank_as_none`. -/
def blankAsNone : Json → Option Json
  | .null => none
  | .str s => if s = "" then none else some (.str s)
  | v => some v

/-- A value of an optional field. -/
def optionalFloat (texts : Texts) (v : Json) : Except Raised (Option PyFloat) :=
  match blankAsNone v with
  | none => .ok none
  | some v => (asFloat texts v).map some

/-- `build_margin_tier`: the fields are validated in this order. -/
def buildMarginTier (texts : Texts) (upTo maxLeverage : Json)
    (maintenanceMarginRate initialMarginRate maintenanceDeduction : Json) :
    Except Raised MarginTier := do
  let upTo ← optionalFloat texts upTo
  let maxLeverage ← asFloat texts maxLeverage
  let maintenanceMarginRate ← optionalFloat texts maintenanceMarginRate
  let initialMarginRate ← optionalFloat texts initialMarginRate
  let maintenanceDeduction ← optionalFloat texts maintenanceDeduction
  return ⟨upTo, maxLeverage, maintenanceMarginRate, initialMarginRate, maintenanceDeduction⟩

/-! ## Reading -/

/-- `d.get(key)`; what is no dictionary has no `get`. -/
def get (d : Json) (key : String) : Except Raised Json :=
  match d.get? .null key with
  | some v => .ok v
  | none => .error .malformed

/-- `d[key]`. -/
def item (d : Json) (key : String) : Except Raised Json :=
  match d.item? key with
  | some v => .ok v
  | none => .error .malformed

/-- What a loop over a value goes over. -/
def iterate : Json → Except Raised (List Json)
  | .arr xs => .ok xs
  | .str s => .ok (s.toList.map fun c => .str (String.ofList [c]))
  | .obj fields => .ok (fields.map fun f => .str f.1)
  | _ => .error .malformed

/-- The same of `v or []`. -/
def items (v : Json) : Except Raised (List Json) := if v.truthy then iterate v else .ok []

/-! ## Hyperliquid -/

namespace Hyperliquid

/-- The value, where `isinstance(v, int)`. -/
def intOf : Json → Option ℤ
  | .num q => if q.den = 1 then some q.num else none
  | .bool b => some (if b then 1 else 0)
  | _ => none

/-- `isinstance(t, list) and t and t[0] == table_id`. -/
def isEntry (tableId : ℤ) : Json → Bool
  | .arr (x :: _) => x.isInt tableId
  | _ => false

/-- `entry[1]["marginTiers"]`, whose `rows[1:]` are taken. -/
def rowsOf : Json → Except Raised (List Json)
  | .arr (_ :: table :: _) => do
    match ← item table "marginTiers" with
    | .arr rows => return rows
    -- no row comes out of the empty text, whatever the bounds
    | .str s => if s = "" then return [] else throw .malformed
    | _ => throw .malformed
  | _ => .error .malformed

/-- A row and the bound of the next one, null behind the last. -/
def readRow (texts : Texts) (e : Json × Json) : Except Raised MarginTier := do
  buildMarginTier texts e.2 (← item e.1 "maxLeverage") .null .null .null

/-- `_margin_tiers_of`, `tables` before its `or []`. -/
def marginTiersOf (texts : Texts) (asset tables : Json) :
    Except Raised (List MarginTier) := do
  match (intOf (← get asset "marginTableId")).filter fun tableId => decide (50 ≤ tableId) with
  | none =>
    let tier ← buildMarginTier texts .null (← get asset "maxLeverage") .null .null .null
    return [tier]
  | some tableId =>
    match (← items tables).find? (isEntry tableId) with
    | none => throw (.lookup tableId)
    | some entry =>
      let rows ← rowsOf entry
      let bounds ← rows.tail.mapM fun row => item row "lowerBound"
      (rows.zip (bounds ++ [.null])).mapM (readRow texts)

/-- `next((u for u in universe if u.get("name") == coin), None)`. -/
def findAsset (coin : String) : List Json → Except Raised (Option Json)
  | [] => .ok none
  | u :: rest => do
    if (← get u "name").isStr coin then return some u else findAsset coin rest

/-- The dex of a coin, the empty text where it has none. -/
def dexOf (coin : String) : String :=
  if ':' ∈ coin.toList then String.ofList (coin.toList.takeWhile fun c => c != ':') else ""

end Hyperliquid

/-- `MarginTiers`. -/
structure Table where
  symbol : String
  marketType : MarketType
  quote : String
  upToUnit : String
  tiers : List MarginTier
  timestamp : ℤ

namespace Hyperliquid

/-- `meta or {}`. -/
def orEmpty (dexMeta : Option Json) : Json :=
  (dexMeta.filter Json.truthy).getD (.obj [])

/-- The tiers of the asset, none where the universe does not have it. -/
def assetTiers (texts : Texts) (listing : Json) (asset : Option Json) :
    Except Raised (List MarginTier) :=
  match asset.filter Json.truthy with
  | none => .ok []
  | some asset => do marginTiersOf texts asset (← get listing "marginTables")

/-- `get_margin_tiers`, from what `_lookup` returned or raised on; `metas` and `metaAt` are what the
last listing has stored. -/
def getMarginTiers (texts : Texts) (marketType : MarketType)
    (found : Except Raised (String × String × String)) (metas : String → Option Json)
    (metaAt : ℤ) : Except Raised Table :=
  if marketType ≠ .linear then .error .notImplemented
  else do
    let (modelSym, coin, quote) ← found
    let listing := orEmpty (metas (dexOf coin))
    let rows ← match listing.get? (.arr []) "universe" with
      | some v => iterate v
      | none => throw .malformed
    let asset ← findAsset coin rows
    let tiers ← assetTiers texts listing asset
    return ⟨modelSym, marketType, quote, "quote", tiers, metaAt⟩

end Hyperliquid

/-! ## Bybit -/

namespace Bybit

/-- A row of `risk-limit`. -/
def readRow (texts : Texts) (row : Json) : Except Raised MarginTier := do
  buildMarginTier texts (← get row "riskLimitValue") (← get row "maxLeverage")
    (← get row "maintenanceMargin") (← get row "initialMargin") (← get row "mmDeduction")

/-- The `while` loop: `left` is what `pages` leaves of the ten, and `venue` what the requests are
answered with, by their number and their cursor. -/
def walk (venue : ℕ → Option Json → Except Raised Json) :
    ℕ → ℕ → List Json → Option Json → Except Raised (List Json)
  | _, 0, rows, _ => .ok rows
  | pages, left + 1, rows, cursor => do
    let data ← venue pages cursor
    let rows := rows ++ (← items (← get data "list"))
    let next ← get data "nextPageCursor"
    if next.truthy then walk venue (pages + 1) left rows (some next) else return rows

/-- `fetch` of `get_margin_tiers`. -/
def fetch (texts : Texts) (venue : ℕ → Option Json → Except Raised Json) :
    Except Raised (List MarginTier) := do
  (← walk venue 0 10 [] none).mapM (readRow texts)

/-- `get_margin_tiers`, from the names of the instrument and what `_margin_table` returned. -/
def getMarginTiers (marketType : MarketType) (info : Except Raised (String × String))
    (marginTable : Except Raised (List MarginTier × ℤ)) : Except Raised Table :=
  if marketType = .spot then .error .notImplemented
  else do
    let (symbol, quoteAsset) ← info
    let (tiers, readAt) ← marginTable
    let unit := if marketType = .linear then "quote" else "base"
    return ⟨symbol, marketType, quoteAsset, unit, tiers, readAt⟩

end Bybit

/-! ## OKX -/

namespace Okx

/-- `round(x * multiplier, 12)`. -/
def scale (multiplier : ℚ) : PyFloat → PyFloat
  | .finite q => .finite (SideCaches.round12 (q * multiplier))
  | x => BybitTicker.product x (.finite multiplier)

/-- A row of `position-tiers`. -/
def readRow (texts : Texts) (marketType : MarketType) (multiplier : ℚ) (row : Json) :
    Except Raised MarginTier := do
  let tier ← buildMarginTier texts (← get row "maxSz") (← get row "maxLever") (← get row "mmr")
    (← get row "imr") .null
  if marketType = .linear then return { tier with upTo := tier.upTo.map (scale multiplier) }
  else return tier

/-- `fetch` of `get_margin_tiers`, from the rows of the reply. -/
def fetch (texts : Texts) (marketType : MarketType) (multiplier : ℚ) (rows : List Json) :
    Except Raised (List MarginTier) :=
  rows.mapM (readRow texts marketType multiplier)

/-- `get_margin_tiers`, from the names of the instrument, its multiplier and what `_margin_table`
makes of a fetch. -/
def getMarginTiers (texts : Texts) (marketType : MarketType)
    (info : Except Raised (String × String)) (multiplier : Except Raised (Option ℚ))
    (rows : Except Raised (List Json))
    (marginTable : Except Raised (List MarginTier) → Except Raised (List MarginTier × ℤ)) :
    Except Raised Table :=
  if marketType = .spot then .error .notImplemented
  else do
    let (modelSym, quoteAsset) ← info
    let multiplier ← multiplier
    if marketType = .linear ∧ multiplier.isNone then throw .valueError
    else
      let (tiers, readAt) ←
        marginTable (rows.bind (fetch texts marketType (multiplier.getD 0)))
      let unit := if marketType = .linear then "base" else "contract"
      return ⟨modelSym, marketType, quoteAsset, unit, tiers, readAt⟩

end Okx

end MarginTiers
end ExchangeRouter
