import Mathlib.Data.List.Sort
import ExchangeRouter.HubRoutes
import ExchangeRouter.Models

/-!
# The frames of `frames.py`

What `frames.build` makes of the rows of funding history: flattened, indexed by their time, with
the columns renamed and the kind kept beside the columns.

A float is a rational, and a cell without a value is NaN. pandas is a parameter where it sorts
and converts times.
-/

namespace ExchangeRouter
namespace Frames

open MakeRequest (Json)

/-- What is raised. `invalidLiteral` is the `ValueError` of `float` and of `int`; `nan` stands for
a NaN where a rational is read. -/
inductive Raised where
  | keyError
  | typeError
  | invalidLiteral
  | valueError (message : String)
  | zeroDivision
  | nan
deriving DecidableEq, Repr

/-- `float()` and `int()` of a text. -/
structure Texts where
  float : String → Option ℚ
  int : String → Option ℤ

/-! ## Frames -/

/-- A dictionary, in the order in which it was filled: the last value of a key counts. -/
abbrev Record := List (String × Json)

/-- A value of a column, `none` for NaN. -/
abbrev Cell := Option Json

/-- The value of a row under a column. -/
def cell (r : Record) (column : String) : Cell :=
  ((r.filter fun f => f.1 = column).getLast?).map Prod.snd

/-- A `DataFrame` by its rows, each under its time in nanoseconds. -/
structure Frame where
  columns : List String
  rows : List (ℤ × Record)
  attrs : Record := []

/-- What pandas does with the times of the rows. `sort_index` leaves rows of one time in any
order. -/
structure Pandas where
  /-- `pd.to_datetime(…, unit="ms", utc=True)`. -/
  toDatetime : Cell → Except Raised ℤ
  sortIndex : List (ℤ × Record) → List (ℤ × Record)
  toDatetime_ms : ∀ ms : ℤ, toDatetime (some (.num ms)) = .ok (ms * 1000000)
  sortIndex_perm : ∀ rows, (sortIndex rows).Perm rows
  sortIndex_sorted : ∀ rows, (sortIndex rows).Pairwise fun a b => a.1 ≤ b.1

/-! ## From rows to a frame -/

mutual

/-- `_normalise_json` of pandas, with `sep="_"`. -/
def normaliseJson (key : String) : Json → Record
  | .obj fields => normaliseFields key fields
  | value => [(key, value)]

/-- The fields of a nested dictionary, under its own key. -/
def normaliseFields (key : String) : List (String × Json) → Record
  | [] => []
  | (k, value) :: rest => normaliseJson (key ++ "_" ++ k) value ++ normaliseFields key rest

end

/-- `isinstance(value, dict)`. -/
def isMapping : Json → Bool
  | .obj _ => true
  | _ => false

/-- `pd.json_normalize` of one row: what is nested comes last, under its path. -/
def jsonNormalize (row : Record) : Record :=
  (row.filter fun f => !isMapping f.2) ++
    (row.filter fun f => isMapping f.2).flatMap fun f => normaliseJson f.1 f.2

/-- The columns of a frame that is made of records. -/
def columnsOf (records : List Record) : List String :=
  (records.flatMap fun r => r.map Prod.fst).eraseDups

/-- `_indexed`. -/
def indexed (pandas : Pandas) (rows : List Record) : Except Raised Frame := do
  let records := rows.map jsonNormalize
  if "timestamp" ∈ columnsOf records then
    let rows ← records.mapM fun r =>
      (pandas.toDatetime (cell r "timestamp")).map fun datetime => (datetime, r)
    return { columns := columnsOf records, rows := pandas.sortIndex rows }
  else .error .keyError

/-- `rename(columns=…)`. -/
def rename (names : String → String) (df : Frame) : Frame where
  columns := df.columns.map names
  rows := df.rows.map fun r => (r.1, r.2.map fun f => (names f.1, f.2))
  attrs := df.attrs

/-- `value is None`. -/
def isNull : Json → Bool
  | .null => true
  | _ => false

/-- `_const`. -/
def const (df : Frame) (column : String) : Json :=
  if column ∈ df.columns then
    (((df.rows.filterMap fun r => cell r.2 column).filter fun v => !isNull v).head?).getD .null
  else .null

/-- `TEXT_COLUMNS`. -/
def textColumns : List String :=
  ["side", "id", "agg_id", "first_trade_id", "last_trade_id", "exchange", "market_type", "symbol",
    "quote", "unit"]

/-- `reindex(columns=…)`. -/
def reindex (df : Frame) (columns : List String) : Frame where
  columns := columns
  rows := df.rows.map fun r =>
    (r.1, columns.filterMap fun column => (cell r.2 column).map fun value => (column, value))
  attrs := df.attrs

/-- `pd.to_numeric(…, errors="coerce")` of one value. -/
def toNumeric (texts : Texts) : Json → Cell
  | .num q => some (.num q)
  | .bool b => some (.num (if b then 1 else 0))
  | .str s => (texts.float s).map .num
  | _ => none

/-- `_coerce`. -/
def coerce (texts : Texts) (df : Frame) : Frame :=
  { df with rows := df.rows.map fun r => (r.1, r.2.filterMap fun f =>
      if f.1 ∈ textColumns then some f
      else (toNumeric texts f.2).map fun value => (f.1, value)) }

/-- `_finalize`. -/
def finalize (texts : Texts) (df : Frame) (attrs : Record) (columns warnings : List String) :
    Frame × List String :=
  let out := coerce texts (reindex df columns)
  ({ out with attrs := out.attrs ++ attrs ++ [("warnings", .arr (warnings.map .str))] }, warnings)

/-! ## The request a frame answers -/

/-- What `build` is told of the request. -/
structure Context where
  exchange : String
  marketType : String
  symbol : String
  requested : Option ℤ := none
  paginated : Bool := false

namespace Context

variable (ctx : Context)

/-- `_base_attrs`. -/
def baseAttrs : Record :=
  [("exchange", .str ctx.exchange), ("market_type", .str ctx.marketType),
    ("symbol", .str ctx.symbol), ("schema_version", .num 3), ("warnings", .arr [])]

/-- `_short_result_warning`, by the number of the rows. -/
def shortResultWarning (route : String) (count : ℕ) : Option String :=
  if ctx.paginated then
    match ctx.requested with
    | none => none
    | some requested =>
      if 0 < count ∧ (count : ℤ) < requested then
        some s!"{route} {ctx.exchange}/{ctx.marketType}/{ctx.symbol}: got {count} of {requested} requested; pass start= to fetch older history"
      else none
  else none

/-- `_empty`. -/
def empty (route : String) (columns : List String) : Frame × List String :=
  let message :=
    s!"0 rows returned for {ctx.exchange}/{ctx.marketType}/{ctx.symbol} {route}"
  (⟨columns, [], ctx.baseAttrs ++ [("warnings", .arr [.str message])]⟩, [message])

end Context

/-! ## Funding -/

/-- `COLUMNS["funding_rate"]`. -/
def fundingColumns : List String := ["rate", "funding_per_hour", "cycle_ms"]

/-- The names of the columns of funding rows. -/
def fundingNames (column : String) : String :=
  if column = "rate_per_cycle" then "rate"
  else if column = "rate_cycle_ms" then "cycle_ms"
  else column

/-- A value of a column that is computed with. -/
def number : Cell → Except Raised (Option ℚ)
  | none => .ok none
  | some .null => .ok none
  | some (.num q) => .ok (some q)
  | some (.bool b) => .ok (some (if b then 1 else 0))
  | some _ => .error .typeError

/-- `funding_per_hour` of a row. A cycle of no length leaves the rate as it is. -/
def perHour (rate cycleMs : Option ℚ) : Option ℚ :=
  match cycleMs with
  | none => none
  | some cycleMs =>
    if cycleMs / 3600000 = 0 then rate else rate.map fun rate => rate / (cycleMs / 3600000)

/-- `df["funding_per_hour"] = …`. -/
def withPerHour (df : Frame) : Except Raised Frame := do
  if "rate" ∈ df.columns ∧ "cycle_ms" ∈ df.columns then
    let rows ← df.rows.mapM fun r => do
      let cycleMs ← number (cell r.2 "cycle_ms")
      let rate ← number (cell r.2 "rate")
      return (r.1, r.2 ++ (perHour rate cycleMs).toList.map fun q => ("funding_per_hour", .num q))
    return { df with columns := df.columns ++ ["funding_per_hour"], rows := rows }
  else .error .keyError

/-- Whether `df["cycle_ms"].nunique(dropna=True) > 1`, of numbers. -/
def cycleChanged (df : Frame) : Bool :=
  let cycles := df.rows.filterMap fun r =>
    match cell r.2 "cycle_ms" with
    | some (.num q) => some q
    | some (.bool b) => some (if b then 1 else 0)
    | _ => none
  decide (1 < cycles.eraseDups.length)

/-- The end of `_funding_rate`: the attributes, the warnings and the columns of the route. -/
def fundingFrame (texts : Texts) (df : Frame) (ctx : Context) : Frame × List String :=
  let attrs := ctx.baseAttrs ++
    [("quote", const df "quote"), ("funding_kind", const df "rate_kind")]
  let changed :=
    if cycleChanged df then
      [s!"funding_rate {ctx.exchange}/{ctx.marketType}/{ctx.symbol}: funding cycle changed within the window; funding_per_hour is per-row correct"]
    else []
  let short := (ctx.shortResultWarning "funding_rate" df.rows.length).toList
  finalize texts df attrs fundingColumns (changed ++ short)

/-- `_funding_rate`. -/
def fundingRate (texts : Texts) (pandas : Pandas) (rows : List Record) (ctx : Context) :
    Except Raised (Frame × List String) := do
  let flat ← indexed pandas rows
  let df ← withPerHour (rename fundingNames flat)
  return fundingFrame texts df ctx

/-- `build("funding_rate", rows, ctx)`. -/
def buildFundingRate (texts : Texts) (pandas : Pandas) (rows : List Record) (ctx : Context) :
    Except Raised (Frame × List String) :=
  if rows.isEmpty then .ok (ctx.empty "funding_rate" fundingColumns)
  else fundingRate texts pandas rows ctx

end Frames
end ExchangeRouter
