import ExchangeRouter.Adapters
import ExchangeRouter.Caches
import ExchangeRouter.Lib.Overwrite
import ExchangeRouter.VenueSymbols
import Mathlib.Algebra.Order.Ring.Rat

/-!
# The caches beside the instrument metadata

`_fetch_exchange_info` of OKX, KuCoin and Binance reads its rows one after the other, and writes
the contract multiplier and the funding interval of a row into `_contract_multiplier_cache` and
`_funding_interval_cache` as it goes. The list it returns is committed by `_ensure_info_cache`,
all at once and only when no row has raised.

Of a `SymbolInfo` the precisions and the steps are left out; a row says whether reading them
raises. Floats are read as the rationals they stand for, and text is ASCII.
-/

namespace ExchangeRouter
namespace SideCaches

/-! ## Cells -/

/-- A field of a row that `float` or `int` is called on: absent or null, the empty string,
something that is no number, or a number as the venues write it. -/
inductive Cell where
  | missing
  | blank
  | bad
  | num (x : ℚ)
deriving DecidableEq, Repr

namespace Cell

/-- `float(c)`, where a missing field raises a `KeyError` before. -/
def float : Cell → Except Fault ℚ
  | num x => .ok x
  | missing => .error (.other "KeyError")
  | _ => .error (.valueError "could not convert string to float")

/-- `float(c) if c is not None else None`. -/
def floatOrNone : Cell → Except Fault (Option ℚ)
  | missing => .ok none
  | c => c.float.map some

/-- `float(c)` under `except (TypeError, ValueError)`, and `None` where there is none. -/
def floatOrNull : Cell → Option ℚ
  | num x => some x
  | _ => none

/-- `int(c)` under `except (TypeError, ValueError)`. -/
def intOrNull : Cell → Option ℤ
  | num x => some (if 0 ≤ x then ⌊x⌋ else ⌈x⌉)
  | _ => none

/-- `a or b`. A number is sent as text, so zero is not false. -/
def orElse (a b : Cell) : Cell :=
  match a with
  | missing => b
  | blank => b
  | _ => a

end Cell

/-- `x` under `if x is not None and x <= 0: x = None`. -/
def positive (x : Option ℚ) : Option ℚ := x.filter fun q => decide (0 < q)

/-- `round(x)`, to even on a tie. -/
def roundHalfEven (x : ℚ) : ℤ :=
  if x - ⌊x⌋ < 1 / 2 then ⌊x⌋
  else if 1 / 2 < x - ⌊x⌋ then ⌊x⌋ + 1
  else if ⌊x⌋ % 2 = 0 then ⌊x⌋
  else ⌊x⌋ + 1

/-- `round(x, 12)`. -/
def round12 (x : ℚ) : ℚ := roundHalfEven (x * 10 ^ 12) / 10 ^ 12

/-- A limit in contracts as one in the base asset: on a linear market without a multiplier there
is none. -/
def scaled (marketType : MarketType) (multiplier : Option ℚ) (qty : Option ℚ) : Option ℚ :=
  if marketType = .linear then
    match multiplier with
    | none => none
    | some m => qty.map fun q => round12 (q * m)
  else qty

/-- `not x` of a name. -/
def named (x : Option String) : Option String := x.filter fun s => decide (s ≠ "")

/-! ## Rows -/

/-- `SymbolInfo`, with the fields that only the info routes read. -/
structure InstrumentInfo extends SymbolInfo where
  nativeSymbol : String
  minQty : Option ℚ
  maxQty : Option ℚ
  minNotional : Option ℚ
deriving DecidableEq, Repr

/-- What the body of the loop does with a row: `continue`; an exception before the writes; or the
two writes, of nothing where the value is `none`, and then `SymbolInfo(…)`, which may raise. -/
inductive RowRead where
  | skipped
  | raised (e : Fault)
  | listed (symbol : String) (multiplier : Option ℚ) (interval : Option ℤ)
      (info : Except Fault InstrumentInfo)
deriving Repr

/-- The entries of the two caches for a market. -/
structure Values where
  multiplier : String → Option ℚ := fun _ => none
  interval : String → Option ℤ := fun _ => none

/-- The writes of a row. -/
def Values.write (v : Values) (symbol : String) (multiplier : Option ℚ) (interval : Option ℤ) :
    Values where
  multiplier := Overwrite.write v.multiplier symbol multiplier
  interval := Overwrite.write v.interval symbol interval

/-- The loop over the rows. What a row has written stays when a later one raises. -/
def listRows : Values → List RowRead → Values × Except Fault (List InstrumentInfo)
  | v, [] => (v, .ok [])
  | v, .skipped :: rows => listRows v rows
  | v, .raised e :: _ => (v, .error e)
  | v, .listed symbol multiplier interval info :: rows =>
    match info with
    | .error e => (v.write symbol multiplier interval, .error e)
    | .ok info =>
      let rest := listRows (v.write symbol multiplier interval) rows
      (rest.1, rest.2.map fun infos => info :: infos)

/-- An adapter, by the rows that a reply of its venue has for a market. -/
abbrev Feed (ω : Type) := MarketType → ω → Except Fault (List RowRead)

/-- `_fetch_exchange_info`, on the market's entries. -/
def fetchExchangeInfo {ω : Type} (feed : Feed ω) (marketType : MarketType) (reply : ω)
    (v : Values) : Values × Except Fault (List InstrumentInfo) :=
  match feed marketType reply with
  | .error e => (v, .error e)
  | .ok rows => listRows v rows

/-! ## OKX -/

namespace Okx

/-- A row of `/api/v5/public/instruments`. -/
structure Instrument where
  state : Option String
  ctType : Option String
  instId : Option String
  baseCcy : Option String
  quoteCcy : Option String
  uly : Option String
  ctVal : Cell
  minSz : Cell
  maxLmtSz : Cell
  maxMktSz : Cell
  /-- The venue has sent a number where `_precision` looks for a point. -/
  lotSzIsNumber : Bool
  tickSzIsNumber : Bool
deriving DecidableEq, Repr

/-- The base and the quote of a row. -/
def assets (marketType : MarketType) (s : Instrument) : Option String × Option String :=
  if marketType = .spot then (s.baseCcy, s.quoteCcy)
  else
    match (s.uly.getD "").splitOn "-" with
    | base :: quote :: _ => (some base, some quote)
    | _ => (none, none)

/-- `_precision` of a field. -/
def precisionFault (isNumber : Bool) : Except Fault Unit :=
  if isNumber then .error (.other "argument of type float is not iterable") else .ok ()

/-- What is read of a row before the write: its limits, and whether that raises. -/
def limits (marketType : MarketType) (multiplier : Option ℚ) (s : Instrument) :
    Except Fault (Option ℚ × Option ℚ) := do
  let minQty ← s.minSz.floatOrNone
  let maxQty ← (s.maxLmtSz.orElse s.maxMktSz).floatOrNone
  -- on a linear market the lot is multiplied first, and its precision read off the product
  if ¬ (marketType = .linear ∧ multiplier ≠ none) then precisionFault s.lotSzIsNumber
  return (scaled marketType multiplier (positive minQty),
    scaled marketType multiplier (positive maxQty))

/-- The body of the loop. -/
def readRow (marketType : MarketType) (s : Instrument) : RowRead :=
  if s.state ≠ some "live" then .skipped
  else if marketType = .linear ∧ s.ctType ≠ some "linear" then .skipped
  else if marketType = .inverse ∧ s.ctType ≠ some "inverse" then .skipped
  else
    match s.instId with
    | none => .raised (.other "instId")
    | some apiSym =>
      match named (assets marketType s).1, named (assets marketType s).2 with
      | some base, some quote =>
        let multiplier := if marketType = .spot then none else s.ctVal.floatOrNull
        match limits marketType multiplier s with
        | .error e => .raised e
        | .ok (minQty, maxQty) =>
          let symbol := Symbols.Okx.getModelSymbol apiSym
          .listed symbol multiplier none <| (precisionFault s.tickSzIsNumber).map fun _ =>
            { symbol := symbol, baseAsset := base, quoteAsset := quote,
              qtyUnit := marketType.qtyUnit,
              contractSize := if marketType = .inverse then multiplier else none,
              fundingKind := if marketType = .spot then none else some "discrete",
              nativeSymbol := apiSym, minQty := minQty, maxQty := maxQty, minNotional := none }
      | _, _ => .skipped

/-- The rows of `/api/v5/public/instruments`. -/
def feed : Feed (Except Fault (List Instrument)) := fun marketType reply =>
  reply.map fun rows => rows.map (readRow marketType)

end Okx

/-! ## KuCoin -/

namespace Kucoin

/-- A row of `/api/v1/symbols`. -/
structure SpotSymbol where
  enableTrading : Bool
  symbol : Option String
  baseCurrency : Option String
  quoteCurrency : Option String
  baseMinSize : Cell
  baseMaxSize : Cell
  minFunds : Cell
  quoteMinSize : Cell
deriving DecidableEq, Repr

/-- A row of `/api/v1/contracts/active`. -/
structure Contract where
  status : Option String
  isInverse : Bool
  symbol : Option String
  multiplier : Cell
  fundingRateGranularity : Cell
  baseCurrency : Option String
  quoteCurrency : Option String
  lotSize : Cell
  maxOrderQty : Cell
deriving DecidableEq, Repr

/-- The limits of a spot row. -/
def spotLimits (s : SpotSymbol) : Except Fault (Option ℚ × Option ℚ × Option ℚ) := do
  let minQty ← s.baseMinSize.floatOrNone
  let maxQty ← s.baseMaxSize.floatOrNone
  let minNotional ← (s.minFunds.orElse s.quoteMinSize).floatOrNone
  return (positive minQty, positive maxQty, positive minNotional)

/-- The body of the loop over the spot symbols, which writes nothing. -/
def readSpot (s : SpotSymbol) : RowRead :=
  if ¬ s.enableTrading then .skipped
  else
    match s.symbol with
    | none => .raised (.other "symbol")
    | some apiSym =>
      match named s.baseCurrency, named s.quoteCurrency with
      | some base, some quote =>
        match spotLimits s with
        | .error e => .raised e
        | .ok (minQty, maxQty, minNotional) =>
          .listed (Symbols.Kucoin.getModelSymbol apiSym) none none <| .ok
            { symbol := Symbols.Kucoin.getModelSymbol apiSym, baseAsset := base, quoteAsset := quote,
              qtyUnit := .base, contractSize := none, fundingKind := none,
              nativeSymbol := apiSym, minQty := minQty, maxQty := maxQty,
              minNotional := minNotional }
      | _, _ => .skipped

/-- The limits of a contract. -/
def limits (marketType : MarketType) (multiplier : Option ℚ) (s : Contract) :
    Except Fault (Option ℚ × Option ℚ) := do
  let minQty ← s.lotSize.floatOrNone
  let maxQty ← s.maxOrderQty.floatOrNone
  return (scaled marketType multiplier (positive minQty),
    scaled marketType multiplier (positive maxQty))

/-- The body of the loop over the contracts. -/
def readRow (marketType : MarketType) (s : Contract) : RowRead :=
  if s.status ≠ some "Open" then .skipped
  else if marketType = .linear ∧ s.isInverse then .skipped
  else if marketType = .inverse ∧ ¬ s.isInverse then .skipped
  else
    match s.symbol with
    | none => .raised (.other "symbol")
    | some apiSym =>
      let multiplier := s.multiplier.floatOrNull.map fun x => |x|
      match named s.baseCurrency, named s.quoteCurrency with
      | some base, some quote =>
        match limits marketType multiplier s with
        | .error e => .raised e
        | .ok (minQty, maxQty) =>
          let symbol := Symbols.Kucoin.getModelSymbol apiSym
          .listed symbol multiplier s.fundingRateGranularity.intOrNull <| .ok
            { symbol := symbol, baseAsset := base, quoteAsset := quote,
              qtyUnit := marketType.qtyUnit,
              contractSize := if marketType = .inverse then some (multiplier.getD 1) else none,
              fundingKind := some "discrete",
              nativeSymbol := apiSym, minQty := minQty, maxQty := maxQty, minNotional := none }
      | _, _ => .skipped

/-- The replies of the two endpoints, of which a call asks for one. -/
structure Instruments where
  symbols : Except Fault (List SpotSymbol)
  contracts : Except Fault (List Contract)

/-- The loop over the rows of the endpoint that the market asks. -/
def feed : Feed Instruments := fun marketType reply =>
  if marketType = .spot then reply.symbols.map fun rows => rows.map readSpot
  else reply.contracts.map fun rows => rows.map (readRow marketType)

end Kucoin

/-! ## Binance -/

namespace Binance

/-- An entry of `filters`. -/
structure Filter where
  filterType : Option String
  minQty : Cell
  maxQty : Cell
  minNotional : Cell
  notional : Cell
deriving DecidableEq, Repr

/-- A row of `exchangeInfo`. -/
structure SymbolRow where
  status : Option String
  contractStatus : Option String
  contractType : Option String
  filters : List Filter
  contractSize : Cell
  symbol : Option String
  baseAsset : Option String
  quoteAsset : Option String
deriving DecidableEq, Repr

/-- A row of `fundingInfo`. -/
structure FundingItem where
  symbol : Option String
  fundingIntervalHours : Cell
deriving DecidableEq, Repr

/-- The limits, as the filters set them one after the other. -/
structure Limits where
  minQty : Option ℚ := none
  maxQty : Option ℚ := none
  minNotional : Option ℚ := none

/-- The body of the loop over the filters. -/
def applyFilter (l : Limits) (f : Filter) : Except Fault Limits :=
  match f.filterType with
  | none => .error (.other "filterType")
  | some filterType =>
    if filterType = "LOT_SIZE" then do
      let minQty ← f.minQty.float
      let maxQty ← f.maxQty.float
      return { l with minQty := some minQty, maxQty := some maxQty }
    else if filterType = "MIN_NOTIONAL" ∨ filterType = "NOTIONAL" then do
      let rawNotional ← (f.minNotional.orElse f.notional).floatOrNone
      return { l with minNotional := rawNotional.orElse fun _ => l.minNotional }
    else .ok l

/-- `_fetch_funding_overrides`: a request that fails is as one without rows, and a row that
cannot be read is passed over. -/
def fundingOverrides (marketType : MarketType) (reply : Except Fault (List FundingItem)) :
    String → Option ℤ :=
  if marketType = .spot then fun _ => none
  else
    match reply with
    | .error _ => fun _ => none
    | .ok items =>
      Overwrite.writeAll (fun _ => none) <| items.filterMap fun item =>
        match item.fundingIntervalHours, item.symbol with
        | .num hours, some symbol => some (symbol, (Cell.num (hours * 3600000)).intOrNull)
        | _, _ => none

/-- `base_asset=s["baseAsset"], quote_asset=s["quoteAsset"]` among the fields of a row. -/
def info (marketType : MarketType) (s : SymbolRow) (l : Limits) (symbol apiSym : String) :
    Except Fault InstrumentInfo :=
  match s.baseAsset, s.quoteAsset with
  | some base, some quote => .ok
      { symbol := symbol, baseAsset := base, quoteAsset := quote,
        qtyUnit := marketType.qtyUnit,
        contractSize := if marketType = .inverse then s.contractSize.floatOrNull else none,
        fundingKind := if marketType = .spot then none else some "discrete",
        nativeSymbol := apiSym, minQty := l.minQty, maxQty := l.maxQty,
        minNotional := l.minNotional }
  | none, _ => .error (.other "baseAsset")
  | _, none => .error (.other "quoteAsset")

/-- `s.get("status") or s.get("contractStatus")`. -/
def tradingStatus (s : SymbolRow) : Option String :=
  (named s.status).orElse fun _ => s.contractStatus

/-- The body of the loop. A market with funding has an interval for every row. -/
def readRow (marketType : MarketType) (overrides : String → Option ℤ) (s : SymbolRow) : RowRead :=
  if tradingStatus s ≠ some "TRADING" then .skipped
  else if marketType ≠ .spot ∧ s.contractType ≠ some "PERPETUAL" ∧
      s.contractType ≠ some "TRADIFI_PERPETUAL" then .skipped
  else
    match s.filters.foldlM applyFilter {} with
    | .error e => .raised e
    | .ok l =>
      match s.symbol with
      | none => .raised (.other "symbol")
      | some apiSym =>
        let interval := if marketType = .spot then none
          else some ((overrides apiSym).getD (8 * 3600000))
        .listed (Symbols.Binance.getModelSymbol apiSym) none interval
          (info marketType s l (Symbols.Binance.getModelSymbol apiSym) apiSym)

/-- The replies of `exchangeInfo`, whose rows stand under a key, and of `fundingInfo`. -/
structure ExchangeInfo where
  symbols : Except Fault (Option (List SymbolRow))
  funding : Except Fault (List FundingItem)

/-- The loop over the rows under `symbols`. -/
def feed : Feed ExchangeInfo := fun marketType reply =>
  match reply.symbols with
  | .error e => .error e
  | .ok none => .error (.other "symbols")
  | .ok (some rows) =>
    .ok (rows.map (readRow marketType (fundingOverrides marketType reply.funding)))

end Binance

/-! ## All of them -/

/-- The adapters that keep such caches. -/
inductive Exchange where
  | okx
  | kucoin
  | binance
deriving DecidableEq, Repr

/-- What the venue answers to the requests of one fetch. -/
def Exchange.Reply : Exchange → Type
  | okx => Except Fault (List Okx.Instrument)
  | kucoin => Kucoin.Instruments
  | binance => Binance.ExchangeInfo

/-- The fetch of each adapter. -/
def Exchange.feed : (x : Exchange) → Feed x.Reply
  | okx => Okx.feed
  | kucoin => Kucoin.feed
  | binance => Binance.feed

/-! ## The refreshes of an adapter -/

/-- The cache of `get_exchange_info_cached`. -/
abbrev Base := Caches.State (Caches.InfoDicts MarketType InstrumentInfo) MarketType Unit
  (List InstrumentInfo) (String → Option InstrumentInfo)

/-- `produced` is the reply that the map being served was made of; no code reads it. -/
structure State (ω : Type) where
  base : Base
  sides : MarketType → Values := fun _ => {}
  produced : MarketType → Option ω := fun _ => none

/-- How the requests of a fetch end. A `CancelledError` comes before the rows. -/
inductive Answer (ω : Type) where
  | reply (r : ω) (wall : ℚ)
  | cancelled

/-- The events of `Caches.Event`, where a fetch ends with what the venue answers. -/
inductive Event (ω : Type) where
  | call (marketType : MarketType)
  | turn
  | ends (answer : Answer ω)
  | cancel (call : ℕ)
  | tick (now : ℚ)

section

variable {ω : Type} (feed : Feed ω)

/-- An event of `_ensure_info_cache` around the fetch. -/
def State.follow (s : State ω) (e : Caches.Event MarketType Unit (List InstrumentInfo)) :
    Option (State ω) :=
  (Caches.ensureInfoCache (fun info => info.symbol) s.base e).map fun base =>
    { s with base := base }

/-- One event. The rows are read without an `await`, so nothing comes between them and the
commit. -/
def step (s : State ω) : Event ω → Option (State ω)
  | .call marketType => s.follow (.call marketType)
  | .turn => s.follow (.turn ())
  | .cancel call => s.follow (.cancel () call)
  | .tick now => s.follow (.tick now)
  | .ends .cancelled => s.follow (.ends () .cancelled)
  | .ends (.reply r wall) =>
    match (s.base.locks ()).fetching with
    | none => none
    | some f =>
      let run := fetchExchangeInfo feed f.key r (s.sides f.key)
      let written := { s with sides := Function.update s.sides f.key run.1 }
      match run.2 with
      | .error _ => written.follow (.ends () .failed)
      | .ok infos =>
        let listed := { written with produced := Function.update s.produced f.key (some r) }
        listed.follow (.ends () (.fetched infos wall))

end

/-- An adapter that has just been built. -/
def start (ω : Type) (now : ℚ) : State ω where
  base := { now := now, store := {} }

end SideCaches
end ExchangeRouter
