import ExchangeRouter.Frames
import ExchangeRouter.Klines
import ExchangeRouter.OkxLiquidations

/-!
# The frames of the other series

`frames.build` of every route but funding history, whose builders rename columns, look up what the
rows have in common and choose the columns of the route. A `SeriesRoute` is what they differ in.
Below them: the records that the rows are dumps of.
-/

namespace ExchangeRouter
namespace Frames

open MakeRequest (Json)

/-! ## Warnings -/

/-- `USD_FAMILY`. -/
def usdFamily : List String :=
  ["USD", "USDT", "USDC", "USDD", "TUSD", "FDUSD", "BUSD", "DAI", "PYUSD", "USDE", "USDP"]

/-- `_quote_warning`. -/
def Context.quoteWarning (ctx : Context) (route : String) : Json → Option String
  | .str quote =>
    if quote ≠ "" ∧ quote ∉ usdFamily then
      some s!"{route} {ctx.exchange}/{ctx.marketType}/{ctx.symbol}: quote='{quote}'; *_usd fields are quote-denominated ({quote}), not US dollars"
    else none
  | _ => none

/-- `int(df[column].isna().sum())`, 0 where there is no such column. -/
def missing (df : Frame) (column : String) : ℕ :=
  if column ∈ df.columns then
    df.rows.countP fun r => (cell r.2 column).all isNull
  else 0

/-- The warning of `_trades`. -/
def Context.idWarning (ctx : Context) (missing count : ℕ) : Option String :=
  if missing = 0 then none
  else
    some s!"trades {ctx.exchange}/{ctx.marketType}/{ctx.symbol}: {missing} of {count} trades have id=null; sort by timestamp, not id"

/-- The warning of `_open_interest`. -/
def Context.usdWarning (ctx : Context) (missing count : ℕ) : Option String :=
  if missing = 0 then none
  else
    some s!"open_interest {ctx.exchange}/{ctx.marketType}/{ctx.symbol}: {missing} of {count} rows have usd=NaN (join missed; native is populated)"

/-- The warning of `_long_short_ratio`. -/
def Context.scopeWarning (ctx : Context) (scope : Json) : Option String :=
  if scope.isStr "opaque" then
    some s!"long_short_ratio {ctx.exchange}/{ctx.marketType}/{ctx.symbol}: account breakdown unavailable (account_scope='opaque'); long_account/short_account are NaN"
  else none

/-! ## Routes -/

/-- A route: its columns, the names it gives to columns of the rows, the attributes it adds with
the columns they are read from, and its warnings. -/
structure SeriesRoute where
  name : String
  columns : List String
  names : String → String
  attrs : List (String × String)
  warnings : Context → Frame → List String

/-- A builder. -/
def SeriesRoute.build (route : SeriesRoute) (texts : Texts) (pandas : Pandas) (rows : List Record)
    (ctx : Context) : Except Raised (Frame × List String) := do
  let df := rename route.names (← indexed pandas rows)
  let attrs := ctx.baseAttrs ++ route.attrs.map fun a => (a.1, const df a.2)
  return finalize texts df attrs route.columns (route.warnings ctx df)

/-- `_candles`. -/
def candles : SeriesRoute where
  name := "candles"
  columns := ["open", "high", "low", "close", "volume", "volume_usd"]
  names column := if column = "volume_native" then "volume" else column
  attrs := [("quote", "quote"), ("interval", "interval"), ("volume_unit", "volume_unit"),
    ("contract_size", "volume_contract_size"), ("usd_basis", "volume_usd_basis_method")]
  warnings ctx df :=
    (ctx.shortResultWarning "candles" df.rows.length).toList ++
      (ctx.quoteWarning "candles" (const df "quote")).toList

/-- What the three routes of a `QtyValue` have in common. -/
def qtyNames (column : String) : String := if column = "qty_native" then "qty" else column

/-- The attributes of these routes, each with the column it is read from. -/
def qtyAttrs : List (String × String) :=
  [("quote", "quote"), ("qty_unit", "qty_unit"), ("contract_size", "qty_contract_size")]

/-- `_trades`. -/
def trades : SeriesRoute where
  name := "trades"
  columns := ["price", "qty", "qty_usd", "side", "id"]
  names := qtyNames
  attrs := qtyAttrs
  warnings ctx df :=
    (ctx.idWarning (missing df "id") df.rows.length).toList ++
      (ctx.quoteWarning "trades" (const df "quote")).toList

/-- `_agg_trades`. -/
def aggTrades : SeriesRoute where
  name := "agg_trades"
  columns := ["price", "qty", "qty_usd", "side", "agg_id", "first_trade_id", "last_trade_id"]
  names := qtyNames
  attrs := qtyAttrs
  warnings ctx df :=
    (ctx.shortResultWarning "agg_trades" df.rows.length).toList ++
      (ctx.quoteWarning "agg_trades" (const df "quote")).toList

/-- `_open_interest`. -/
def openInterest : SeriesRoute where
  name := "open_interest"
  columns := ["open_interest", "open_interest_usd"]
  names column := if column = "open_interest_native" then "open_interest" else column
  attrs := [("quote", "quote"), ("interval", "interval"), ("oi_unit", "open_interest_unit"),
    ("contract_size", "open_interest_contract_size"),
    ("usd_basis", "open_interest_usd_basis_method")]
  warnings ctx df :=
    (ctx.usdWarning (missing df "open_interest_usd") df.rows.length).toList ++
      (ctx.shortResultWarning "open_interest" df.rows.length).toList ++
        (ctx.quoteWarning "open_interest" (const df "quote")).toList

/-- `_liquidations`. -/
def liquidations : SeriesRoute where
  name := "liquidations"
  columns := ["price", "qty", "qty_usd", "side"]
  names := qtyNames
  attrs := qtyAttrs
  warnings ctx df := (ctx.quoteWarning "liquidations" (const df "quote")).toList

/-- `_long_short_ratio`. -/
def longShortRatio : SeriesRoute where
  name := "long_short_ratio"
  columns := ["ratio", "long_account", "short_account"]
  names := id
  attrs := [("interval", "interval"), ("account_scope", "account_scope")]
  warnings ctx df :=
    (ctx.scopeWarning (const df "account_scope")).toList ++
      (ctx.shortResultWarning "long_short_ratio" df.rows.length).toList

/-- `_BUILDERS` but for `_funding_rate`. -/
def builders : List SeriesRoute :=
  [candles, trades, aggTrades, openInterest, liquidations, longShortRatio]

/-- `build`. -/
def build (texts : Texts) (pandas : Pandas) (route : String) (rows : List Record) (ctx : Context) :
    Except Raised (Frame × List String) :=
  if route = "funding_rate" then buildFundingRate texts pandas rows ctx
  else
    match builders.find? fun r => r.name = route with
    | none => .error .keyError
    | some r =>
      if rows.isEmpty then .ok (ctx.empty route r.columns) else r.build texts pandas rows ctx

/-- `with_provenance`: four columns more, from the attributes. -/
def withProvenance (df : Frame) : Frame :=
  let attr := fun name => (cell df.attrs name).getD .null
  let unit := (["volume_unit", "qty_unit", "oi_unit"].map attr).find? Json.truthy
  let added := [("exchange", attr "exchange"), ("symbol", attr "symbol"), ("quote", attr "quote"),
    ("unit", unit.getD (attr "up_to_unit"))]
  { df with
    columns := df.columns ++ added.map Prod.fst
    rows := df.rows.map fun r => (r.1, r.2 ++ added) }

/-! ## Records of the rows -/

/-- An optional number of a record. -/
def optional : Option ℚ → Json
  | none => .null
  | some q => .num q

/-- A `Literal["base", "contract"]`. -/
def unitJson : QtyUnit → Json
  | .base => .str "base"
  | .contract => .str "contract"

/-- `to_jsonable_python` of a `QtyValue`. -/
def qtyJson (v : QtyValue) : Json :=
  .obj [("native", .num v.native), ("unit", unitJson v.unit),
    ("contract_size", optional v.contractSize), ("usd", .num v.usd)]

/-- `to_jsonable_python` of a `VolumeBasis`, whose close is only for open interest. -/
def volumeBasisJson (b : VolumeBasis) : Json :=
  .obj [("method", .str (match b with | .contractSize => "contract_size" | .close => "close")),
    ("close", .null), ("close_ts", .null)]

/-- `to_jsonable_python` of a `VolumeValue`. -/
def volumeJson (v : VolumeValue) : Json :=
  .obj [("native", .num v.native), ("unit", unitJson v.unit),
    ("contract_size", optional v.contractSize), ("usd", .num v.usd),
    ("usd_basis", volumeBasisJson v.usdBasis)]

/-- `to_jsonable_python` of a candle. -/
def candleDump (c : Kline) : Record :=
  [("symbol", .str c.json.symbol), ("market_type", .str c.json.marketType.value),
    ("quote", .str c.json.quote), ("interval", .str c.json.interval),
    ("timestamp", .num c.timestamp), ("open", .num c.json.open_), ("high", .num c.json.high),
    ("low", .num c.json.low), ("close", .num c.close), ("volume", volumeJson c.json.volume)]

/-- `Trade`. -/
structure Trade where
  id : Option String
  symbol : String
  marketType : MarketType
  quote : String
  price : ℚ
  qty : QtyValue
  side : String
  timestamp : ℤ
deriving DecidableEq, Repr

/-- An optional identifier. -/
def idJson : Option String → Json
  | none => .null
  | some id => .str id

/-- `to_jsonable_python` of a trade. -/
def tradeDump (t : Trade) : Record :=
  [("id", idJson t.id), ("symbol", .str t.symbol), ("market_type", .str t.marketType.value),
    ("quote", .str t.quote), ("price", .num t.price), ("qty", qtyJson t.qty), ("side", .str t.side),
    ("timestamp", .num t.timestamp)]

/-- `to_jsonable_python` of an aggregated trade. -/
def aggTradeDump (t : Binance.AggTrade) : Record :=
  [("agg_id", .str t.aggId), ("symbol", .str t.symbol), ("market_type", .str t.marketType.value),
    ("quote", .str t.quote), ("price", .num t.price), ("qty", qtyJson t.qty),
    ("first_trade_id", .str t.firstTradeId), ("last_trade_id", .str t.lastTradeId),
    ("side", .str t.side), ("timestamp", .num t.timestamp)]

/-- The fields of an `OpenInterest` besides its time and its value. -/
structure OpenInterestFields where
  symbol : String
  marketType : MarketType
  quote : String
  interval : String
deriving DecidableEq, Repr

/-- `to_jsonable_python` of a `UsdBasis`. -/
def basisJson : UsdBasis → Json
  | .contractSize => .obj [("method", .str "contract_size"), ("close", .null), ("close_ts", .null)]
  | .candleClose close closeTs =>
    .obj [("method", .str "candle_close"), ("close", optional close),
      ("close_ts", optional (closeTs.map fun ts => (ts : ℚ)))]

/-- `to_jsonable_python` of an open interest. -/
def openInterestDump (o : OpenInterest OpenInterestFields) : Record :=
  [("symbol", .str o.json.symbol), ("market_type", .str o.json.marketType.value),
    ("quote", .str o.json.quote), ("interval", .str o.json.interval),
    ("open_interest", .obj [("native", .num o.openInterest.native),
      ("unit", unitJson o.openInterest.unit),
      ("contract_size", optional o.openInterest.contractSize),
      ("usd", optional o.openInterest.usd), ("usd_basis", basisJson o.openInterest.usdBasis)]),
    ("timestamp", .num o.timestamp)]

/-- `to_jsonable_python` of a liquidation. -/
def liquidationDump (l : Okx.Liquidation) : Record :=
  [("symbol", .str l.symbol), ("market_type", .str l.marketType.value), ("quote", .str l.quote),
    ("side", .str l.side), ("price", .num l.price), ("qty", qtyJson l.qty),
    ("timestamp", .num l.timestamp)]

/-- `LongShortRatio`. -/
structure LongShortRatio where
  symbol : String
  marketType : MarketType
  interval : String
  ratio : ℚ
  longAccount : Option ℚ
  shortAccount : Option ℚ
  accountScope : String
  timestamp : ℤ
deriving DecidableEq, Repr

/-- `to_jsonable_python` of a long/short ratio. -/
def longShortRatioDump (r : LongShortRatio) : Record :=
  [("symbol", .str r.symbol), ("market_type", .str r.marketType.value),
    ("interval", .str r.interval), ("ratio", .num r.ratio),
    ("long_account", optional r.longAccount), ("short_account", optional r.shortAccount),
    ("account_scope", .str r.accountScope), ("timestamp", .num r.timestamp)]

end Frames
end ExchangeRouter
