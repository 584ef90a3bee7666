import ExchangeRouter.FundingFramesTheorems
import ExchangeRouter.SeriesFrames

/-!
# What a frame keeps of its records

Whatever order the index puts them in, the rows of a frame are the records, one each, and a row has
nothing but its own record's values. A `Series` says what a route's frame is in terms of the
records; `Series.Reads` is what the flattening, the new names and the columns have to do with it.
-/

namespace ExchangeRouter
namespace Frames

open MakeRequest (Json)

/-! ## Any rows -/

/-- A row with the names of the route. -/
def SeriesRoute.renamed (route : SeriesRoute) (row : Record) : Record :=
  (jsonNormalize row).map fun f => (route.names f.1, f.2)

/-- What is left of a renamed row in the frame of the route. -/
def SeriesRoute.select (route : SeriesRoute) (texts : Texts) (row : Record) : Record :=
  (route.columns.filterMap fun column =>
    (cell row column).map fun value => (column, value)).filterMap fun f =>
      if f.1 ∈ textColumns then some f
      else (toNumeric texts f.2).map fun value => (f.1, value)

section

variable {α : Type} (dump : α → Record) (time : α → ℤ)

/-- The rows by their times, with the names of the route. -/
def SeriesRoute.renamedFrame (route : SeriesRoute) (columns : List String) (rows : List α) :
    Frame where
  columns := columns.map route.names
  rows := rows.map fun r => (time r * 1000000, route.renamed (dump r))

/-- The frame after `_finalize`: the columns of the route, each row by them. -/
lemma finalize_renamed (route : SeriesRoute) (texts : Texts) (columns : List String)
    (rows : List α) (attrs : Record) (warnings : List String) :
    finalize texts (route.renamedFrame dump time columns rows) attrs route.columns warnings =
      (⟨route.columns,
        rows.map fun r => (time r * 1000000, route.select texts (route.renamed (dump r))),
        attrs ++ [("warnings", .arr (warnings.map .str))]⟩, warnings) := by
  have hrows : (coerce texts (reindex (route.renamedFrame dump time columns rows)
      route.columns)).rows =
      rows.map fun r => (time r * 1000000, route.select texts (route.renamed (dump r))) := by
    unfold coerce reindex SeriesRoute.renamedFrame SeriesRoute.select
    simp only [List.map_map]
    rfl
  unfold finalize
  simp only [hrows]
  rfl

/-- A builder keeps every row and puts them by their times. -/
lemma build_rows (route : SeriesRoute) (texts : Texts) (pandas : Pandas) (ctx : Context)
    {rows : List α} (h : rows ≠ [])
    (htime : ∀ r, cell (jsonNormalize (dump r)) "timestamp" = some (.num (time r))) :
    ∃ sorted : List α, sorted.Perm rows ∧ sorted.Pairwise (fun a b => time a ≤ time b) ∧
      route.build texts pandas (rows.map dump) ctx =
        .ok (let df := route.renamedFrame dump time
              (columnsOf (rows.map fun r => jsonNormalize (dump r))) sorted
            let warnings := route.warnings ctx df
            (⟨route.columns,
              sorted.map fun r => (time r * 1000000, route.select texts (route.renamed (dump r))),
              ctx.baseAttrs ++ route.attrs.map (fun a => (a.1, const df a.2)) ++
                [("warnings", .arr (warnings.map .str))]⟩, warnings)) := by
  obtain ⟨sorted, hperm, hsorted, hindexed⟩ := indexed_rows dump time pandas h htime
  refine ⟨sorted, hperm, hsorted, ?_⟩
  have hrenamed : rename route.names ⟨columnsOf (rows.map fun r => jsonNormalize (dump r)),
      sorted.map fun r => (time r * 1000000, jsonNormalize (dump r)), []⟩ =
      route.renamedFrame dump time (columnsOf (rows.map fun r => jsonNormalize (dump r)))
        sorted := by
    unfold rename SeriesRoute.renamedFrame
    rw [List.map_map]
    rfl
  unfold SeriesRoute.build
  rw [hindexed]
  show Except.ok (finalize texts (rename route.names _) _ _ _) = _
  rw [hrenamed, finalize_renamed]

end

/-! ## Records -/

section

variable {α : Type}

/-- The first value that is not null, of what the records have in one place. -/
def firstOf (f : α → Json) (rows : List α) : Json :=
  ((rows.map f).find? fun value => !isNull value).getD .null

/-- A route in terms of the records of its rows. -/
structure Series (α : Type) where
  route : SeriesRoute
  dump : α → Record
  time : α → ℤ
  clean : α → Record
  attrs : List (String × (α → Json))
  warnings : Context → List α → List String

/-- The frame of the records, in the order in which they stand, and its warnings. -/
def Series.frame (S : Series α) (ctx : Context) (rows : List α) : Frame × List String :=
  (⟨S.route.columns, rows.map fun r => (S.time r * 1000000, S.clean r),
    ctx.baseAttrs ++ S.attrs.map (fun a => (a.1, firstOf a.2 rows)) ++
      [("warnings", .arr ((S.warnings ctx rows).map .str))]⟩, S.warnings ctx rows)

/-- A column holds one place of the records. -/
def Series.Column (S : Series α) (f : α → Json) (column : String) : Prop :=
  ∀ r, cell (S.route.renamed (S.dump r)) column = some (f r)

/-- What a builder finds in the columns of a frame is what the records have. -/
structure Series.Shows (S : Series α) (df : Frame) (rows : List α) : Prop where
  const : ∀ f column, S.Column f column → const df column = firstOf f rows
  missing : ∀ f column, S.Column f column → missing df column = rows.countP fun r => isNull (f r)
  length : df.rows.length = rows.length

/-- The dumps are flattened, named and read as the series says. -/
structure Series.Reads (S : Series α) : Prop where
  listed : builders.find? (fun r => r.name = S.route.name) = some S.route
  other : S.route.name ≠ "funding_rate"
  time : ∀ r, cell (jsonNormalize (S.dump r)) "timestamp" = some (.num (S.time r))
  clean : ∀ texts r, S.route.select texts (S.route.renamed (S.dump r)) = S.clean r
  attrs : List.Forall₂ (fun a b => a.1 = b.1 ∧ S.Column a.2 b.2) S.attrs S.route.attrs
  warnings : ∀ ctx df rows, S.Shows df rows → S.route.warnings ctx df = S.warnings ctx rows

/-- The same of rows that are flattened already. -/
structure Series.ReadsFlat (S : Series α) (flat : α → Record) : Prop where
  listed : builders.find? (fun r => r.name = S.route.name) = some S.route
  other : S.route.name ≠ "funding_rate"
  time : ∀ r, cell (flat r) "timestamp" = some (.num (S.time r))
  clean : ∀ texts r,
    S.route.select texts ((flat r).map fun e => (S.route.names e.1, e.2)) = S.clean r
  attrs : List.Forall₂ (fun a b => a.1 = b.1 ∧
    ∀ r, cell ((flat r).map fun e => (S.route.names e.1, e.2)) b.2 = some (a.2 r))
      S.attrs S.route.attrs
  warnings : ∀ ctx df rows, S.Shows df rows → S.route.warnings ctx df = S.warnings ctx rows

/-- A column of the flattened record is a column of the frame. -/
lemma column_of_flat {S : Series α} {flat : α → Record}
    (hflat : ∀ r, jsonNormalize (S.dump r) = flat r) {f : α → Json} {column : String}
    (h : ∀ r, cell ((flat r).map fun e => (S.route.names e.1, e.2)) column = some (f r)) :
    S.Column f column := by
  intro r
  unfold SeriesRoute.renamed
  rw [hflat]
  exact h r

/-- The dumps may be flattened first. -/
lemma reads_of_flat {S : Series α} {flat : α → Record}
    (hflat : ∀ r, jsonNormalize (S.dump r) = flat r) (h : S.ReadsFlat flat) : S.Reads where
  listed := h.listed
  other := h.other
  time := by
    intro r
    rw [hflat]
    exact h.time r
  clean := by
    intro texts r
    unfold SeriesRoute.renamed
    rw [hflat]
    exact h.clean texts r
  attrs := h.attrs.imp fun a b hab => ⟨hab.1, column_of_flat hflat hab.2⟩
  warnings := h.warnings

/-- A column of the records is a column of the frame. -/
lemma Series.Column.mem {S : Series α} {f : α → Json} {column : String} (h : S.Column f column)
    {rows : List α} (hne : rows ≠ []) (sorted : List α) :
    column ∈ (S.route.renamedFrame S.dump S.time
      (columnsOf (rows.map fun r => jsonNormalize (S.dump r))) sorted).columns := by
  obtain ⟨r, hr⟩ := List.exists_mem_of_ne_nil rows hne
  have hmem := mem_of_cell (h r)
  unfold SeriesRoute.renamed at hmem
  rw [List.map_map] at hmem
  obtain ⟨entry, hentry, heq⟩ := List.mem_map.mp hmem
  refine List.mem_map.mpr ⟨entry.1, ?_, heq⟩
  exact mem_columnsOf_map hr (fun r => jsonNormalize (S.dump r))
    (List.mem_map.mpr ⟨entry, hentry, rfl⟩)

/-- The frame under the route's names shows its records. -/
lemma shows_renamedFrame (S : Series α) {rows : List α} (h : rows ≠ []) (sorted : List α) :
    S.Shows (S.route.renamedFrame S.dump S.time
      (columnsOf (rows.map fun r => jsonNormalize (S.dump r))) sorted) sorted where
  const := by
    intro f column hcolumn
    have hcells : ((S.route.renamedFrame S.dump S.time
        (columnsOf (rows.map fun r => jsonNormalize (S.dump r))) sorted).rows.filterMap
          fun r => cell r.2 column) = sorted.map f := by
      show (sorted.map _).filterMap _ = _
      rw [List.filterMap_map, ← List.filterMap_eq_map]
      exact List.filterMap_congr fun r _ => hcolumn r
    unfold const firstOf
    rw [if_pos (hcolumn.mem h sorted), hcells, List.head?_filter]
  missing := by
    intro f column hcolumn
    unfold missing
    rw [if_pos (hcolumn.mem h sorted)]
    show (sorted.map _).countP _ = _
    rw [List.countP_map]
    refine List.countP_congr fun r _ => ?_
    show (cell (S.route.renamed (S.dump r)) column).all isNull = true ↔ _
    rw [hcolumn r]
    rfl
  length := List.length_map _

/-- The attributes that are read off the columns are those of the records. -/
lemma Series.Shows.attrs {S : Series α} {df : Frame} {rows : List α} (h : S.Shows df rows)
    {attrs : List (String × (α → Json))} {columns : List (String × String)}
    (hattrs : List.Forall₂ (fun a b => a.1 = b.1 ∧ S.Column a.2 b.2) attrs columns) :
    columns.map (fun b => (b.1, Frames.const df b.2)) =
      attrs.map fun a => (a.1, firstOf a.2 rows) := by
  induction hattrs with
  | nil => rfl
  | cons hab _ ih => rw [List.map_cons, List.map_cons, ih, h.const _ _ hab.2, hab.1]

/-- `build` of dumped records is the frame of the records, put by their times. -/
lemma Series.Reads.build_eq {S : Series α} (hS : S.Reads) (texts : Texts) (pandas : Pandas)
    (ctx : Context) {rows : List α} (h : rows ≠ []) :
    ∃ sorted : List α, sorted.Perm rows ∧ sorted.Pairwise (fun a b => S.time a ≤ S.time b) ∧
      build texts pandas S.route.name (rows.map S.dump) ctx = .ok (S.frame ctx sorted) := by
  obtain ⟨sorted, hperm, hsorted, hbuild⟩ :=
    build_rows S.dump S.time S.route texts pandas ctx h hS.time
  have hshows := shows_renamedFrame S h sorted
  have hattrs : (S.route.attrs.map fun a => (a.1, const (S.route.renamedFrame S.dump S.time
      (columnsOf (rows.map fun r => jsonNormalize (S.dump r))) sorted) a.2)) =
      S.attrs.map fun a => (a.1, firstOf a.2 sorted) := hshows.attrs hS.attrs
  have hempty : (rows.map S.dump).isEmpty = false := by simpa using h
  refine ⟨sorted, hperm, hsorted, ?_⟩
  unfold build
  rw [if_neg hS.other, hS.listed, hempty]
  simp only [Bool.false_eq_true, if_false, hbuild, hS.warnings ctx _ sorted hshows, hattrs,
    hS.clean texts]
  rfl

end

/-! ## The routes -/

/-- An optional number is a cell where it is there. -/
def optionalCell (column : String) (value : Option ℚ) : Record :=
  value.toList.map fun q => (column, .num q)

/-- The text under `method` of a basis. -/
def basisMethod : UsdBasis → String
  | .contractSize => "contract_size"
  | .candleClose _ _ => "candle_close"

/-- The same of a volume's basis. -/
def volumeMethod : VolumeBasis → String
  | .contractSize => "contract_size"
  | .close => "close"

/-- What a frame of candles is to hold. -/
def candleSeries : Series Kline where
  route := candles
  dump := candleDump
  time := Candle.timestamp
  clean c := [("open", .num c.json.open_), ("high", .num c.json.high), ("low", .num c.json.low),
    ("close", .num c.close), ("volume", .num c.json.volume.native),
    ("volume_usd", .num c.json.volume.usd)]
  attrs := [("quote", fun c => .str c.json.quote), ("interval", fun c => .str c.json.interval),
    ("volume_unit", fun c => unitJson c.json.volume.unit),
    ("contract_size", fun c => optional c.json.volume.contractSize),
    ("usd_basis", fun c => .str (volumeMethod c.json.volume.usdBasis))]
  warnings ctx rows := (ctx.shortResultWarning "candles" rows.length).toList ++
    (ctx.quoteWarning "candles" (firstOf (fun c => .str c.json.quote) rows)).toList

/-- A candle as a frame flattens it. -/
def candleFlat (c : Kline) : Record :=
  [("symbol", .str c.json.symbol), ("market_type", .str c.json.marketType.value),
    ("quote", .str c.json.quote), ("interval", .str c.json.interval),
    ("timestamp", .num c.timestamp), ("open", .num c.json.open_), ("high", .num c.json.high),
    ("low", .num c.json.low), ("close", .num c.close), ("volume_native", .num c.json.volume.native),
    ("volume_unit", unitJson c.json.volume.unit),
    ("volume_contract_size", optional c.json.volume.contractSize),
    ("volume_usd", .num c.json.volume.usd),
    ("volume_usd_basis_method", .str (volumeMethod c.json.volume.usdBasis)),
    ("volume_usd_basis_close", .null), ("volume_usd_basis_close_ts", .null)]

lemma jsonNormalize_candleDump (c : Kline) : jsonNormalize (candleDump c) = candleFlat c := by
  obtain ⟨ts, close, symbol, mt, quote, interval, o, h, l, native, unit, size, usd, basis⟩ := c
  cases unit <;> cases size <;> cases basis <;> rfl

lemma candleSeries_reads : candleSeries.Reads :=
  reads_of_flat jsonNormalize_candleDump
    { listed := rfl
      other := by decide
      time := fun c => rfl
      clean := fun texts c => rfl
      attrs := .cons ⟨rfl, fun _ => rfl⟩ (.cons ⟨rfl, fun _ => rfl⟩ (.cons ⟨rfl, fun _ => rfl⟩
        (.cons ⟨rfl, fun _ => rfl⟩ (.cons ⟨rfl, fun _ => rfl⟩ .nil))))
      warnings := by
        intro ctx df rows h
        show _ ++ (ctx.quoteWarning "candles" (const df "quote")).toList = _
        rw [h.length, h.const _ _ (column_of_flat jsonNormalize_candleDump fun c => rfl)]
        rfl }

/-- The cells and the attributes that the routes of a `QtyValue` share. -/
def qtyCells (price : ℚ) (qty : QtyValue) (side : String) : Record :=
  [("price", .num price), ("qty", .num qty.native), ("qty_usd", .num qty.usd), ("side", .str side)]

/-- What a frame of trades is to hold. -/
def tradeSeries : Series Trade where
  route := trades
  dump := tradeDump
  time := Trade.timestamp
  clean t := qtyCells t.price t.qty t.side ++ [("id", idJson t.id)]
  attrs := [("quote", fun t => .str t.quote), ("qty_unit", fun t => unitJson t.qty.unit),
    ("contract_size", fun t => optional t.qty.contractSize)]
  warnings ctx rows :=
    (ctx.idWarning (rows.countP fun t => isNull (idJson t.id)) rows.length).toList ++
      (ctx.quoteWarning "trades" (firstOf (fun t => .str t.quote) rows)).toList

/-- A trade as `_normalise_json` flattens it. -/
def tradeFlat (t : Trade) : Record :=
  [("id", idJson t.id), ("symbol", .str t.symbol), ("market_type", .str t.marketType.value),
    ("quote", .str t.quote), ("price", .num t.price), ("side", .str t.side),
    ("timestamp", .num t.timestamp), ("qty_native", .num t.qty.native),
    ("qty_unit", unitJson t.qty.unit), ("qty_contract_size", optional t.qty.contractSize),
    ("qty_usd", .num t.qty.usd)]

lemma jsonNormalize_tradeDump (t : Trade) : jsonNormalize (tradeDump t) = tradeFlat t := by
  obtain ⟨id, symbol, mt, quote, price, ⟨native, unit, size, usd⟩, side, ts⟩ := t
  cases id <;> cases unit <;> cases size <;> rfl

lemma tradeSeries_reads : tradeSeries.Reads :=
  reads_of_flat jsonNormalize_tradeDump
    { listed := rfl
      other := by decide
      time := fun t => rfl
      clean := fun texts t => rfl
      attrs := .cons ⟨rfl, fun _ => rfl⟩ (.cons ⟨rfl, fun _ => rfl⟩
        (.cons ⟨rfl, fun _ => rfl⟩ .nil))
      warnings := by
        intro ctx df rows h
        show (ctx.idWarning (missing df "id") df.rows.length).toList ++
          (ctx.quoteWarning "trades" (const df "quote")).toList = _
        rw [h.length, h.missing _ _ (column_of_flat jsonNormalize_tradeDump fun t => rfl),
          h.const _ _ (column_of_flat jsonNormalize_tradeDump fun t => rfl)]
        rfl }

/-- What a frame of aggregated trades is to hold. -/
def aggTradeSeries : Series Binance.AggTrade where
  route := aggTrades
  dump := aggTradeDump
  time := Binance.AggTrade.timestamp
  clean t := qtyCells t.price t.qty t.side ++
    [("agg_id", .str t.aggId), ("first_trade_id", .str t.firstTradeId),
      ("last_trade_id", .str t.lastTradeId)]
  attrs := [("quote", fun t => .str t.quote), ("qty_unit", fun t => unitJson t.qty.unit),
    ("contract_size", fun t => optional t.qty.contractSize)]
  warnings ctx rows := (ctx.shortResultWarning "agg_trades" rows.length).toList ++
    (ctx.quoteWarning "agg_trades" (firstOf (fun t => .str t.quote) rows)).toList

/-- An aggregated trade as `_normalise_json` flattens it. -/
def aggTradeFlat (t : Binance.AggTrade) : Record :=
  [("agg_id", .str t.aggId), ("symbol", .str t.symbol), ("market_type", .str t.marketType.value),
    ("quote", .str t.quote), ("price", .num t.price), ("first_trade_id", .str t.firstTradeId),
    ("last_trade_id", .str t.lastTradeId), ("side", .str t.side), ("timestamp", .num t.timestamp),
    ("qty_native", .num t.qty.native), ("qty_unit", unitJson t.qty.unit),
    ("qty_contract_size", optional t.qty.contractSize), ("qty_usd", .num t.qty.usd)]

lemma jsonNormalize_aggTradeDump (t : Binance.AggTrade) :
    jsonNormalize (aggTradeDump t) = aggTradeFlat t := by
  obtain ⟨aggId, symbol, mt, quote, price, ⟨native, unit, size, usd⟩, first, last, side, ts⟩ := t
  cases unit <;> cases size <;> rfl

lemma aggTradeSeries_reads : aggTradeSeries.Reads :=
  reads_of_flat jsonNormalize_aggTradeDump
    { listed := rfl
      other := by decide
      time := fun t => rfl
      clean := fun texts t => rfl
      attrs := .cons ⟨rfl, fun _ => rfl⟩ (.cons ⟨rfl, fun _ => rfl⟩
        (.cons ⟨rfl, fun _ => rfl⟩ .nil))
      warnings := by
        intro ctx df rows h
        show _ ++ (ctx.quoteWarning "agg_trades" (const df "quote")).toList = _
        rw [h.length, h.const _ _ (column_of_flat jsonNormalize_aggTradeDump fun t => rfl)]
        rfl }

/-- What a frame of open interest is to hold. -/
def openInterestSeries : Series (OpenInterest OpenInterestFields) where
  route := openInterest
  dump := openInterestDump
  time := OpenInterest.timestamp
  clean o := ("open_interest", .num o.openInterest.native) ::
    optionalCell "open_interest_usd" o.openInterest.usd
  attrs := [("quote", fun o => .str o.json.quote), ("interval", fun o => .str o.json.interval),
    ("oi_unit", fun o => unitJson o.openInterest.unit),
    ("contract_size", fun o => optional o.openInterest.contractSize),
    ("usd_basis", fun o => .str (basisMethod o.openInterest.usdBasis))]
  warnings ctx rows :=
    (ctx.usdWarning (rows.countP fun o => isNull (optional o.openInterest.usd))
      rows.length).toList ++
      (ctx.shortResultWarning "open_interest" rows.length).toList ++
        (ctx.quoteWarning "open_interest" (firstOf (fun o => .str o.json.quote) rows)).toList

/-- `close` and `close_ts` of a basis. -/
def basisCloses : UsdBasis → Json × Json
  | .contractSize => (.null, .null)
  | .candleClose close closeTs => (optional close, optional (closeTs.map fun ts => (ts : ℚ)))

/-- An open interest as `_normalise_json` flattens it. -/
def openInterestFlat (o : OpenInterest OpenInterestFields) : Record :=
  [("symbol", .str o.json.symbol), ("market_type", .str o.json.marketType.value),
    ("quote", .str o.json.quote), ("interval", .str o.json.interval),
    ("timestamp", .num o.timestamp), ("open_interest_native", .num o.openInterest.native),
    ("open_interest_unit", unitJson o.openInterest.unit),
    ("open_interest_contract_size", optional o.openInterest.contractSize),
    ("open_interest_usd", optional o.openInterest.usd),
    ("open_interest_usd_basis_method", .str (basisMethod o.openInterest.usdBasis)),
    ("open_interest_usd_basis_close", (basisCloses o.openInterest.usdBasis).1),
    ("open_interest_usd_basis_close_ts", (basisCloses o.openInterest.usdBasis).2)]

lemma jsonNormalize_openInterestDump (o : OpenInterest OpenInterestFields) :
    jsonNormalize (openInterestDump o) = openInterestFlat o := by
  obtain ⟨⟨native, unit, size, usd, basis⟩, ts, symbol, mt, quote, interval⟩ := o
  cases basis with
  | contractSize => cases unit <;> cases size <;> cases usd <;> rfl
  | candleClose close closeTs =>
    cases unit <;> cases size <;> cases usd <;> cases close <;> cases closeTs <;> rfl

lemma openInterestSeries_reads : openInterestSeries.Reads :=
  reads_of_flat jsonNormalize_openInterestDump
    { listed := rfl
      other := by decide
      time := fun o => rfl
      clean := by
        intro texts o
        obtain ⟨⟨native, unit, size, usd, basis⟩, ts, fields⟩ := o
        cases usd <;> rfl
      attrs := .cons ⟨rfl, fun _ => rfl⟩ (.cons ⟨rfl, fun _ => rfl⟩ (.cons ⟨rfl, fun _ => rfl⟩
        (.cons ⟨rfl, fun _ => rfl⟩ (.cons ⟨rfl, fun _ => rfl⟩ .nil))))
      warnings := by
        intro ctx df rows h
        show (ctx.usdWarning (missing df "open_interest_usd") df.rows.length).toList ++ _ ++
          (ctx.quoteWarning "open_interest" (const df "quote")).toList = _
        rw [h.length, h.missing _ _ (column_of_flat jsonNormalize_openInterestDump fun o => rfl),
          h.const _ _ (column_of_flat jsonNormalize_openInterestDump fun o => rfl)]
        rfl }

/-- What a frame of liquidations is to hold. -/
def liquidationSeries : Series Okx.Liquidation where
  route := liquidations
  dump := liquidationDump
  time := Okx.Liquidation.timestamp
  clean l := qtyCells l.price l.qty l.side
  attrs := [("quote", fun l => .str l.quote), ("qty_unit", fun l => unitJson l.qty.unit),
    ("contract_size", fun l => optional l.qty.contractSize)]
  warnings ctx rows :=
    (ctx.quoteWarning "liquidations" (firstOf (fun l => .str l.quote) rows)).toList

/-- A liquidation as `_normalise_json` flattens it. -/
def liquidationFlat (l : Okx.Liquidation) : Record :=
  [("symbol", .str l.symbol), ("market_type", .str l.marketType.value), ("quote", .str l.quote),
    ("side", .str l.side), ("price", .num l.price), ("timestamp", .num l.timestamp),
    ("qty_native", .num l.qty.native), ("qty_unit", unitJson l.qty.unit),
    ("qty_contract_size", optional l.qty.contractSize), ("qty_usd", .num l.qty.usd)]

lemma jsonNormalize_liquidationDump (l : Okx.Liquidation) :
    jsonNormalize (liquidationDump l) = liquidationFlat l := by
  obtain ⟨symbol, mt, quote, side, price, ⟨native, unit, size, usd⟩, ts⟩ := l
  cases unit <;> cases size <;> rfl

lemma liquidationSeries_reads : liquidationSeries.Reads :=
  reads_of_flat jsonNormalize_liquidationDump
    { listed := rfl
      other := by decide
      time := fun l => rfl
      clean := fun texts l => rfl
      attrs := .cons ⟨rfl, fun _ => rfl⟩ (.cons ⟨rfl, fun _ => rfl⟩
        (.cons ⟨rfl, fun _ => rfl⟩ .nil))
      warnings := by
        intro ctx df rows h
        show (ctx.quoteWarning "liquidations" (const df "quote")).toList = _
        rw [h.const _ _ (column_of_flat jsonNormalize_liquidationDump fun l => rfl)]
        rfl }

/-- What a frame of long/short ratios is to hold. -/
def longShortRatioSeries : Series LongShortRatio where
  route := longShortRatio
  dump := longShortRatioDump
  time := LongShortRatio.timestamp
  clean r := ("ratio", .num r.ratio) ::
    (optionalCell "long_account" r.longAccount ++ optionalCell "short_account" r.shortAccount)
  attrs := [("interval", fun r => .str r.interval), ("account_scope", fun r => .str r.accountScope)]
  warnings ctx rows :=
    (ctx.scopeWarning (firstOf (fun r => .str r.accountScope) rows)).toList ++
      (ctx.shortResultWarning "long_short_ratio" rows.length).toList

lemma jsonNormalize_longShortRatioDump (r : LongShortRatio) :
    jsonNormalize (longShortRatioDump r) = longShortRatioDump r := by
  obtain ⟨symbol, mt, interval, ratio, long, short, scope, ts⟩ := r
  cases long <;> cases short <;> rfl

lemma longShortRatioSeries_reads : longShortRatioSeries.Reads :=
  reads_of_flat jsonNormalize_longShortRatioDump
    { listed := rfl
      other := by decide
      time := fun r => rfl
      clean := by
        intro texts r
        obtain ⟨symbol, mt, interval, ratio, long, short, scope, ts⟩ := r
        cases long <;> cases short <;> rfl
      attrs := .cons ⟨rfl, fun _ => rfl⟩ (.cons ⟨rfl, fun _ => rfl⟩ .nil)
      warnings := by
        intro ctx df rows h
        show (ctx.scopeWarning (const df "account_scope")).toList ++ _ = _
        rw [h.length, h.const _ _ (column_of_flat jsonNormalize_longShortRatioDump fun r => rfl)]
        rfl }

/-! ## Every route -/

/-- `build` of any records of the route: nothing of none, else their frame, put by their times. -/
def Series.Faithful {α : Type} (S : Series α) : Prop :=
  ∀ (texts : Texts) (pandas : Pandas) (ctx : Context) (rows : List α),
    (rows = [] → build texts pandas S.route.name (rows.map S.dump) ctx =
      .ok (ctx.empty S.route.name S.route.columns)) ∧
    (rows ≠ [] → ∃ sorted : List α, sorted.Perm rows ∧
      sorted.Pairwise (fun a b => S.time a ≤ S.time b) ∧
      build texts pandas S.route.name (rows.map S.dump) ctx = .ok (S.frame ctx sorted))

/-- A series that reads its records is built of them. -/
lemma Series.Reads.faithful {α : Type} {S : Series α} (hS : S.Reads) : S.Faithful := by
  intro texts pandas ctx rows
  refine ⟨?_, fun h => hS.build_eq texts pandas ctx h⟩
  rintro rfl
  unfold build
  rw [if_neg hS.other, hS.listed]
  rfl

/-- A frame of `build` has the rows of its records, one each, by their times: no value is lost,
taken from another record or put into another column. -/
theorem build_faithful :
    candleSeries.Faithful ∧ tradeSeries.Faithful ∧ aggTradeSeries.Faithful ∧
      openInterestSeries.Faithful ∧ liquidationSeries.Faithful ∧ longShortRatioSeries.Faithful :=
  ⟨candleSeries_reads.faithful, tradeSeries_reads.faithful, aggTradeSeries_reads.faithful,
    openInterestSeries_reads.faithful, liquidationSeries_reads.faithful,
    longShortRatioSeries_reads.faithful⟩

/-! ## Provenance -/

/-- The first record counts where it has a value. -/
lemma firstOf_cons {α : Type} {f : α → Json} {r : α} (h : isNull (f r) = false) (rows : List α) :
    firstOf f (r :: rows) = f r := by
  unfold firstOf
  rw [List.map_cons, List.find?_cons_of_pos (by simp [h])]
  rfl

lemma truthy_unitJson (unit : QtyUnit) : (unitJson unit).truthy = true := by
  cases unit <;> rfl

lemma isNull_unitJson (unit : QtyUnit) : isNull (unitJson unit) = false := by
  cases unit <;> rfl

lemma find_unit {α : Type} (unit : α → QtyUnit) (r : α) (rows : List α) (rest : List Json) :
    ((firstOf (fun r => unitJson (unit r)) (r :: rows) :: rest).find? Json.truthy).getD .null =
      unitJson (unit r) := by
  have hfirst : firstOf (fun r => unitJson (unit r)) (r :: rows) = unitJson (unit r) :=
    firstOf_cons (f := fun r => unitJson (unit r)) (isNull_unitJson (unit r)) rows
  rw [hfirst, List.find?_cons_of_pos (truthy_unitJson _)]
  rfl

/-- The unit that the attributes name: the first one there is. -/
def unitAttr (attrs : Record) : Json :=
  ((["volume_unit", "qty_unit", "oi_unit"].map fun name => (cell attrs name).getD .null).find?
    Json.truthy).getD ((cell attrs "up_to_unit").getD .null)

/-- `with_provenance` of a frame that `build` makes of records: the request, and the quote and the
unit of the earliest record, beside the cells of every row. -/
def Labelled {α : Type} (route : String) (columns : List String) (dump : α → Record)
    (time : α → ℤ) (clean : α → Record) (quote unit : α → Json) : Prop :=
  ∀ (texts : Texts) (pandas : Pandas) (ctx : Context) (rows : List α), rows ≠ [] →
    ∃ (first : α) (sorted : List α) (df : Frame) (warnings : List String),
      (first :: sorted).Perm rows ∧ (∀ r ∈ rows, time first ≤ time r) ∧
      build texts pandas route (rows.map dump) ctx = .ok (df, warnings) ∧
      df.rows = (first :: sorted).map (fun r => (time r * 1000000, clean r)) ∧
      withProvenance df =
        { columns := columns ++ ["exchange", "symbol", "quote", "unit"]
          rows := (first :: sorted).map fun r => (time r * 1000000,
            clean r ++ [("exchange", .str ctx.exchange), ("symbol", .str ctx.symbol),
              ("quote", quote first), ("unit", unit first)])
          attrs := df.attrs }

/-- The same of a series. -/
def Series.Labelled {α : Type} (S : Series α) (quote unit : α → Json) : Prop :=
  Frames.Labelled S.route.name S.route.columns S.dump S.time S.clean quote unit

/-- The first of rows that are sorted by their times is the earliest. -/
lemma le_of_sorted {α : Type} {time : α → ℤ} {first : α} {sorted rows : List α}
    (hperm : (first :: sorted).Perm rows)
    (hsorted : (first :: sorted).Pairwise fun a b => time a ≤ time b) :
    ∀ r ∈ rows, time first ≤ time r := by
  intro r hr
  rcases List.mem_cons.mp (hperm.mem_iff.mpr hr) with rfl | hmem
  · exact le_rfl
  · exact (List.pairwise_cons.mp hsorted).1 r hmem

/-- What the attributes of a frame say is what its earliest record says. -/
lemma Series.Reads.labelled {α : Type} {S : Series α} (hS : S.Reads) {quote unit : α → Json}
    (hexchange : ∀ ctx rows, cell (S.frame ctx rows).1.attrs "exchange" = some (.str ctx.exchange))
    (hsymbol : ∀ ctx rows, cell (S.frame ctx rows).1.attrs "symbol" = some (.str ctx.symbol))
    (hquote : ∀ ctx r rows,
      (cell (S.frame ctx (r :: rows)).1.attrs "quote").getD .null = quote r)
    (hunit : ∀ ctx r rows, unitAttr (S.frame ctx (r :: rows)).1.attrs = unit r) :
    S.Labelled quote unit := by
  intro texts pandas ctx rows h
  obtain ⟨all, hperm, hsorted, hbuild⟩ := hS.build_eq texts pandas ctx h
  have hne : all ≠ [] := fun hnil => h (List.perm_nil.mp (hnil ▸ hperm.symm))
  obtain ⟨first, sorted, rfl⟩ := List.exists_cons_of_ne_nil hne
  refine ⟨first, sorted, (S.frame ctx (first :: sorted)).1, (S.frame ctx (first :: sorted)).2,
    hperm, le_of_sorted hperm hsorted, hbuild, rfl, ?_⟩
  have hunit' := hunit ctx first sorted
  unfold unitAttr at hunit'
  unfold withProvenance
  simp only [hexchange, hsymbol, hquote, hunit', Option.getD_some]
  unfold Series.frame
  simp only [List.map_map]
  rfl

/-- The frame of funding history keeps a quote and no unit. -/
lemma labelled_fundingRate :
    Labelled "funding_rate" fundingColumns Funding.WireRow.dump Funding.WireRow.timestamp
      (fun r => r.clean.2) (fun r => .str r.quote) fun _ => .null := by
  intro texts pandas ctx rows h
  obtain ⟨first, sorted, warnings, hperm, hsorted, hbuild⟩ :=
    Funding.buildFundingRate_dump texts pandas ctx h
  refine ⟨first, sorted, _, warnings, hperm, le_of_sorted hperm hsorted, hbuild, rfl, ?_⟩
  unfold withProvenance
  simp only [List.map_map]
  rfl

/-- The labels of each route that `build` serves. Funding history has no unit, and the long/short
ratio neither a quote nor a unit. -/
theorem with_provenance_labels :
    candleSeries.Labelled (fun c => .str c.json.quote) (fun c => unitJson c.json.volume.unit) ∧
      tradeSeries.Labelled (fun t => .str t.quote) (fun t => unitJson t.qty.unit) ∧
      aggTradeSeries.Labelled (fun t => .str t.quote) (fun t => unitJson t.qty.unit) ∧
      Labelled "funding_rate" fundingColumns Funding.WireRow.dump Funding.WireRow.timestamp
        (fun r => r.clean.2) (fun r => .str r.quote) (fun _ => .null) ∧
      openInterestSeries.Labelled (fun o => .str o.json.quote)
        (fun o => unitJson o.openInterest.unit) ∧
      liquidationSeries.Labelled (fun l => .str l.quote) (fun l => unitJson l.qty.unit) ∧
      longShortRatioSeries.Labelled (fun _ => .null) (fun _ => .null) := by
  refine ⟨?_, ?_, ?_, labelled_fundingRate, ?_, ?_, ?_⟩
  · exact candleSeries_reads.labelled (fun _ _ => rfl) (fun _ _ => rfl) (fun _ _ _ => rfl)
      fun _ c rows => find_unit (fun c : Kline => c.json.volume.unit) c rows [.null, .null]
  · exact tradeSeries_reads.labelled (fun _ _ => rfl) (fun _ _ => rfl) (fun _ _ _ => rfl)
      fun _ t rows => find_unit (fun t : Trade => t.qty.unit) t rows [.null]
  · exact aggTradeSeries_reads.labelled (fun _ _ => rfl) (fun _ _ => rfl) (fun _ _ _ => rfl)
      fun _ t rows => find_unit (fun t : Binance.AggTrade => t.qty.unit) t rows [.null]
  · exact openInterestSeries_reads.labelled (fun _ _ => rfl) (fun _ _ => rfl) (fun _ _ _ => rfl)
      fun _ o rows =>
        find_unit (fun o : OpenInterest OpenInterestFields => o.openInterest.unit) o rows []
  · exact liquidationSeries_reads.labelled (fun _ _ => rfl) (fun _ _ => rfl) (fun _ _ _ => rfl)
      fun _ l rows => find_unit (fun l : Okx.Liquidation => l.qty.unit) l rows [.null]
  · exact longShortRatioSeries_reads.labelled (fun _ _ => rfl) (fun _ _ => rfl) (fun _ _ _ => rfl)
      fun _ _ _ => rfl

end Frames
end ExchangeRouter
