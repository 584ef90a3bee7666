import ExchangeRouter.BybitTicker
import ExchangeRouter.Frames

/-!
# `funding_paid`

The rows come in three shapes: the rows of the wire, the frame that is flattened from them, and
the frame of the route, which has one kind for all its rows.
-/

namespace ExchangeRouter
namespace Funding

open BybitTicker (trunc)
open Frames (Cell Frame Raised Record Texts cell)
open HubRoutes (orElse)
open MakeRequest (Json)

/-! ## Reading a row -/

/-- A row, by what `_rate_fields` tells apart. -/
inductive Row where
  | mapping (fields : Record)
  | series (index : List String) (cells : Record)
  | other

/-- What is passed as `rows`. -/
inductive Rows where
  | list (rows : List Row)
  | frame (df : Frame)

/-- A row as `funding_paid` reads it. -/
structure Settlement where
  ts : ℤ
  kind : Cell
  perCycle : ℚ
  cycleMs : ℚ

/-- `float(value)`. -/
def float (texts : Texts) : Cell → Except Raised ℚ
  | some (.num q) => .ok q
  | some (.bool b) => .ok (if b then 1 else 0)
  | some (.str s) =>
    match texts.float s with
    | some q => .ok q
    | none => .error .invalidLiteral
  | some _ => .error .typeError
  | none => .error .nan

/-- `int(value)`. -/
def int (texts : Texts) : Cell → Except Raised ℤ
  | some (.num q) => .ok (trunc q)
  | some (.bool b) => .ok (if b then 1 else 0)
  | some (.str s) =>
    match texts.int s with
    | some n => .ok n
    | none => .error .invalidLiteral
  | some _ => .error .typeError
  | none => .error .nan

/-- `row.get(key)`. -/
def get (fields : Record) (key : String) : Json := (cell fields key).getD .null

/-- `row[key]` of a dictionary. -/
def mappingItem (fields : Record) (key : String) : Except Raised Cell :=
  match cell fields key with
  | some value => .ok (some value)
  | none => .error .keyError

/-- `row[key]` of a row of a frame. -/
def seriesItem (index : List String) (cells : Record) (key : String) : Except Raised Cell :=
  if key ∈ index then .ok (cell cells key) else .error .keyError

/-- `row[key]`, by what the row is. -/
def Row.item : Row → String → Except Raised Cell
  | mapping fields => mappingItem fields
  | series index cells => seriesItem index cells
  | other => fun _ => .error .typeError

section

variable (texts : Texts)

/-- The kind, the rate and the cycle under their three keys. -/
def fieldsAt (item : String → Except Raised Cell) (kind perCycle cycleMs : String) :
    Except Raised (Cell × ℚ × ℚ) := do
  let kind ← item kind
  let perCycle ← (item perCycle).bind (float texts)
  let cycleMs ← (item cycleMs).bind (float texts)
  return (kind, perCycle, cycleMs)

/-- What `_rate_fields` raises for a row of another shape. -/
def unrecognized : Raised :=
  .valueError "Unrecognized funding row shape; expected a wire row, a flattened row, or a funding DataFrame row"

/-- `_rate_fields`. -/
def rateFields : Row → Except Raised (Cell × ℚ × ℚ)
  | .mapping fields =>
    match orElse (get fields "rate") (get fields "funding") with
    | .obj block => fieldsAt texts (mappingItem block) "kind" "per_cycle" "cycle_ms"
    | _ =>
      if (cell fields "rate_per_cycle").isSome then
        fieldsAt texts (mappingItem fields) "rate_kind" "rate_per_cycle" "rate_cycle_ms"
      else if !Frames.isNull (get fields "funding_per_cycle") then
        fieldsAt texts (mappingItem fields) "funding_kind" "funding_per_cycle" "funding_cycle_ms"
      else .error unrecognized
  | .series index cells =>
    if "rate_per_cycle" ∈ index then
      fieldsAt texts (seriesItem index cells) "rate_kind" "rate_per_cycle" "rate_cycle_ms"
    else if "funding_per_cycle" ∈ index then
      fieldsAt texts (seriesItem index cells) "funding_kind" "funding_per_cycle" "funding_cycle_ms"
    else .error unrecognized
  | .other => .error unrecognized

/-- `pd.Timestamp(idx).value // 1_000_000`. -/
def milliseconds (datetime : ℤ) : ℤ := datetime / 1000000

/-- A row of the frame of the route, under the kind of the frame. -/
def cleanFrameRow (columns : List String) (kind : Json) (r : ℤ × Record) :
    Except Raised Settlement := do
  let perCycle ← (seriesItem columns r.2 "rate").bind (float texts)
  let cycleMs ← (seriesItem columns r.2 "cycle_ms").bind (float texts)
  return ⟨milliseconds r.1, some kind, perCycle, cycleMs⟩

/-- `_clean_frame_rows`. -/
def cleanFrameRows (df : Frame) : Except Raised (List Settlement) :=
  let kind := (cell df.attrs "funding_kind").getD (.str "discrete")
  df.rows.mapM (cleanFrameRow texts df.columns kind)

/-- A row of a frame that has the columns of its rows. -/
def frameRow (columns : List String) (r : ℤ × Record) : Except Raised Settlement := do
  let (kind, perCycle, cycleMs) ← rateFields texts (.series columns r.2)
  return ⟨milliseconds r.1, kind, perCycle, cycleMs⟩

/-- A row of a list. -/
def listRow (r : Row) : Except Raised Settlement := do
  let (kind, perCycle, cycleMs) ← rateFields texts r
  let ts ← (r.item "timestamp").bind (int texts)
  return ⟨ts, kind, perCycle, cycleMs⟩

/-- `_normalized_rows`. -/
def normalizedRows : Rows → Except Raised (List Settlement)
  | .frame df =>
    if "rate" ∈ df.columns then cleanFrameRows texts df
    else df.rows.mapM (frameRow texts df.columns)
  | .list rows => rows.mapM (listRow texts)

end

/-- A `FundingRate` on the wire. -/
structure WireRow where
  symbol : String
  marketType : String
  quote : String
  kind : String
  perCycle : ℚ
  cycleMs : ℚ
  timestamp : ℤ

/-- `model_dump` of the row. -/
def WireRow.dump (r : WireRow) : Record :=
  [("symbol", .str r.symbol), ("market_type", .str r.marketType), ("quote", .str r.quote),
    ("rate", .obj [("kind", .str r.kind), ("per_cycle", .num r.perCycle),
      ("cycle_ms", .num r.cycleMs)]),
    ("timestamp", .num r.timestamp)]

/-! ## The sum -/

namespace Settlement

/-- `kind == "discrete"`. -/
def discrete (r : Settlement) : Bool :=
  match r.kind with
  | some kind => kind.isStr "discrete"
  | none => false

/-- `overlap_ms`. -/
def overlapMs (r : Settlement) (tOpen tClose : ℤ) : ℚ :=
  max 0 (min ((r.ts : ℚ) + r.cycleMs) tClose - max (r.ts : ℚ) tOpen)

end Settlement

/-- The body of the loop of `funding_paid`. -/
def accrue (tOpen tClose : ℤ) (notional paid : ℚ) (r : Settlement) : Except Raised ℚ :=
  if r.discrete then
    .ok (if tOpen ≤ r.ts ∧ r.ts ≤ tClose then paid + notional * r.perCycle else paid)
  else if r.cycleMs = 0 then .error .zeroDivision
  else .ok (paid + notional * r.perCycle * (r.overlapMs tOpen tClose / r.cycleMs))

/-- `funding_paid`. -/
def fundingPaid (texts : Texts) (rows : Rows) (tOpen tClose : ℤ) (notional : ℚ) :
    Except Raised ℚ := do
  let rows ← normalizedRows texts rows
  rows.foldlM (accrue tOpen tClose notional) 0

end Funding
end ExchangeRouter
