import ExchangeRouter.FundingTheorems
import ExchangeRouter.Lib.Fallible

/-!
# `funding_paid` on the three shapes of the same rows

The rows of the wire, the frame that `_indexed` flattens them into and the frame of the route are
read as the same settlements, in the order of the wire or in the order of the index. The sum does
not see the order.
-/

namespace ExchangeRouter

/-! ## Rows by their times -/

namespace Frames

open Fallible (mapM_ok)
open MakeRequest (Json)

section

/-- What is a permutation of an image is the image of a permutation. -/
theorem exists_map_of_perm {α β : Type} (f : α → β) {l : List β} {rows : List α}
    (h : l.Perm (rows.map f)) : ∃ rows' : List α, l = rows'.map f ∧ rows'.Perm rows := by
  have hcomp : Relation.Comp (fun l rows => l = List.map f rows) List.Perm l rows := by
    rw [List.eq_map_comp_perm]
    exact h
  exact hcomp

variable {α : Type} (dump : α → Record) (time : α → ℤ)

/-- A cell with a value is in a column of its row. -/
lemma mem_of_cell {r : Record} {column : String} {value : Json} (h : cell r column = some value) :
    column ∈ r.map Prod.fst := by
  obtain ⟨f, hf, -⟩ := Option.map_eq_some_iff.mp h
  obtain ⟨hmem, heq⟩ := List.mem_filter.mp (List.mem_of_getLast? hf)
  exact List.mem_map.mpr ⟨f, hmem, of_decide_eq_true heq⟩

/-- The columns of a row are columns of the frame. -/
lemma mem_columnsOf_map {rows : List α} {r : α} (hr : r ∈ rows) (flat : α → Record)
    {column : String} (hcolumn : column ∈ (flat r).map Prod.fst) :
    column ∈ columnsOf (rows.map flat) := by
  unfold columnsOf
  rw [List.mem_eraseDups]
  exact List.mem_flatMap.mpr ⟨flat r, List.mem_map.mpr ⟨r, hr, rfl⟩, hcolumn⟩

/-- `_indexed` of rows that have a time, whatever else they have. -/
lemma indexed_rows (pandas : Pandas) {rows : List α} (h : rows ≠ [])
    (htime : ∀ r, cell (jsonNormalize (dump r)) "timestamp" = some (.num (time r))) :
    ∃ sorted : List α, sorted.Perm rows ∧ sorted.Pairwise (fun a b => time a ≤ time b) ∧
      indexed pandas (rows.map dump) =
        .ok ⟨columnsOf (rows.map fun r => jsonNormalize (dump r)),
          sorted.map fun r => (time r * 1000000, jsonNormalize (dump r)), []⟩ := by
  obtain ⟨sorted, hsorted, hperm⟩ := exists_map_of_perm
    (fun r => (time r * 1000000, jsonNormalize (dump r)))
    (pandas.sortIndex_perm (rows.map fun r => (time r * 1000000, jsonNormalize (dump r))))
  refine ⟨sorted, hperm, ?_, ?_⟩
  · have hby := pandas.sortIndex_sorted
      (rows.map fun r => (time r * 1000000, jsonNormalize (dump r)))
    rw [hsorted, List.pairwise_map] at hby
    refine hby.imp fun hle => ?_
    simp only at hle
    omega
  · obtain ⟨r, hr⟩ := List.exists_mem_of_ne_nil rows h
    have hcolumn : "timestamp" ∈ columnsOf (rows.map fun r => jsonNormalize (dump r)) :=
      mem_columnsOf_map hr _ (mem_of_cell (htime r))
    have hrows : (rows.map fun r => jsonNormalize (dump r)).mapM (fun r =>
        (pandas.toDatetime (cell r "timestamp")).map fun datetime => (datetime, r)) =
        .ok (rows.map fun r => (time r * 1000000, jsonNormalize (dump r))) := by
      rw [List.mapM_map]
      apply mapM_ok
      intro r _
      show (pandas.toDatetime (cell (jsonNormalize (dump r)) "timestamp")).map _ = _
      rw [htime, pandas.toDatetime_ms]
      rfl
    unfold indexed
    rw [List.map_map]
    simp only [Function.comp_def, if_pos hcolumn]
    rw [hrows, ← hsorted]
    rfl

end

end Frames

namespace Funding

open BybitTicker (trunc)
open Fallible (mapM_ok)
open Frames (Context Frame Pandas Raised Record Texts cell)
open MakeRequest (Json)

namespace WireRow

/-- The row as `funding_paid` reads it. -/
def settlement (r : WireRow) : Settlement :=
  ⟨r.timestamp, some (.str r.kind), r.perCycle, r.cycleMs⟩

/-- The row as a frame flattens it. -/
def flat (r : WireRow) : Record :=
  [("symbol", .str r.symbol), ("market_type", .str r.marketType), ("quote", .str r.quote),
    ("timestamp", .num r.timestamp), ("rate_kind", .str r.kind),
    ("rate_per_cycle", .num r.perCycle), ("rate_cycle_ms", .num r.cycleMs)]

/-- The row under its time. -/
def indexed (r : WireRow) : ℤ × Record := (r.timestamp * 1000000, r.flat)

end WireRow

@[simp] theorem trunc_intCast (n : ℤ) : trunc (n : ℚ) = n := by
  unfold trunc
  by_cases h : (0 : ℚ) ≤ n
  · rw [if_pos h, Rat.floor_intCast]
  · rw [if_neg h, Rat.ceil_intCast]

/-- Milliseconds come back from nanoseconds. -/
theorem milliseconds_mul (ms : ℤ) : milliseconds (ms * 1000000) = ms := by
  unfold milliseconds
  omega

/-! ## The rows of the wire -/

section

variable (texts : Texts)

theorem rateFields_dump (r : WireRow) :
    rateFields texts (.mapping r.dump) = .ok (some (.str r.kind), r.perCycle, r.cycleMs) := rfl

/-- A dumped row is read as its settlement. -/
theorem listRow_dump (r : WireRow) : listRow texts (.mapping r.dump) = .ok r.settlement := by
  have hts : ((Row.mapping r.dump).item "timestamp").bind (int texts) = .ok r.timestamp := by
    show Except.ok (trunc r.timestamp) = _
    rw [trunc_intCast]
  unfold listRow
  rw [rateFields_dump]
  simp only [hts]
  rfl

/-- A list of dumped rows is read as their settlements. -/
theorem normalizedRows_wire (rows : List WireRow) :
    normalizedRows texts (.list (rows.map fun r => .mapping r.dump)) =
      .ok (rows.map WireRow.settlement) := by
  show (rows.map fun r => Row.mapping r.dump).mapM (listRow texts) = _
  rw [List.mapM_map]
  exact mapM_ok fun r _ => listRow_dump texts r

end

/-! ## The flattened frame -/

theorem mem_columnsOf {rows : List WireRow} (h : rows ≠ []) (column : String) :
    column ∈ Frames.columnsOf (rows.map WireRow.flat) ↔
      column ∈ ["symbol", "market_type", "quote", "timestamp", "rate_kind", "rate_per_cycle",
        "rate_cycle_ms"] := by
  unfold Frames.columnsOf
  rw [List.mem_eraseDups, List.flatMap_map]
  obtain ⟨r, hr⟩ := List.exists_mem_of_ne_nil rows h
  constructor
  · intro hcolumn
    obtain ⟨r', -, hr'⟩ := List.mem_flatMap.mp hcolumn
    exact hr'
  · intro hcolumn
    exact List.mem_flatMap.mpr ⟨r, hr, hcolumn⟩

/-- `_indexed` keeps the rows, in the order that the index puts them in. -/
theorem indexed_dump (pandas : Pandas) {rows : List WireRow} (h : rows ≠ []) :
    ∃ sorted : List WireRow, sorted.Perm rows ∧
      sorted.Pairwise (fun a b => a.timestamp ≤ b.timestamp) ∧
      Frames.indexed pandas (rows.map WireRow.dump) =
        .ok ⟨Frames.columnsOf (rows.map WireRow.flat), sorted.map WireRow.indexed, []⟩ :=
  Frames.indexed_rows WireRow.dump WireRow.timestamp pandas h fun _ => rfl

/-- A flattened frame is read as the rows of the wire are. -/
theorem normalizedRows_flat (texts : Texts) {columns : List String}
    (hcolumns : ∀ column, column ∈ columns ↔
      column ∈ ["symbol", "market_type", "quote", "timestamp", "rate_kind", "rate_per_cycle",
        "rate_cycle_ms"]) (rows : List WireRow) :
    normalizedRows texts (.frame ⟨columns, rows.map WireRow.indexed, []⟩) =
      .ok (rows.map WireRow.settlement) := by
  have hrate : "rate" ∉ columns := by simp [hcolumns]
  have hperCycle : "rate_per_cycle" ∈ columns := by simp [hcolumns]
  have hkind : "rate_kind" ∈ columns := by simp [hcolumns]
  have hcycleMs : "rate_cycle_ms" ∈ columns := by simp [hcolumns]
  have hrow : ∀ r : WireRow, frameRow texts columns r.indexed = .ok r.settlement := by
    intro r
    have hfields : rateFields texts (.series columns r.flat) =
        .ok (some (.str r.kind), r.perCycle, r.cycleMs) := by
      unfold rateFields fieldsAt seriesItem
      simp only [hperCycle, hkind, hcycleMs, if_true]
      rfl
    unfold frameRow WireRow.indexed
    rw [hfields, ← milliseconds_mul r.timestamp]
    simp only [milliseconds_mul]
    rfl
  unfold normalizedRows
  simp only [if_neg hrate]
  rw [List.mapM_map]
  exact mapM_ok fun r _ => hrow r

/-! ## The frame of the route -/

namespace WireRow

/-- The row with the names of the route's columns. -/
def renamed (r : WireRow) : Record :=
  [("symbol", .str r.symbol), ("market_type", .str r.marketType), ("quote", .str r.quote),
    ("timestamp", .num r.timestamp), ("rate_kind", .str r.kind), ("rate", .num r.perCycle),
    ("cycle_ms", .num r.cycleMs)]

/-- `funding_per_hour` of the row. -/
def perHour (r : WireRow) : ℚ :=
  if r.cycleMs / 3600000 = 0 then r.perCycle else r.perCycle / (r.cycleMs / 3600000)

/-- The row of the route's frame. -/
def clean (r : WireRow) : ℤ × Record :=
  (r.timestamp * 1000000,
    [("rate", .num r.perCycle), ("funding_per_hour", .num r.perHour),
      ("cycle_ms", .num r.cycleMs)])

end WireRow

/-- The hourly rate of two numbers. -/
theorem perHour_of_numbers (rate cycleMs : ℚ) :
    Frames.perHour (some rate) (some cycleMs) =
      some (if cycleMs / 3600000 = 0 then rate else rate / (cycleMs / 3600000)) := by
  unfold Frames.perHour
  by_cases h : cycleMs / 3600000 = 0
  · simp only [if_pos h]
  · simp only [if_neg h, Option.map_some]

/-- `const` of a column that the first row has a value in. -/
theorem const_of_head {df : Frame} {column : String} {value : Json} {r : ℤ × Record}
    {rows : List (ℤ × Record)} (hcolumn : column ∈ df.columns) (hrows : df.rows = r :: rows)
    (hvalue : cell r.2 column = some value) (hnull : Frames.isNull value = false) :
    Frames.const df column = value := by
  unfold Frames.const
  rw [if_pos hcolumn, hrows,
    List.filterMap_cons_some (f := fun r : ℤ × Record => cell r.2 column) hvalue,
    List.filter_cons_of_pos (by simp [hnull])]
  rfl

/-- The frame once its columns have the route's names, with the rate of an hour. -/
def hourly (columns : List String) (rows : List WireRow) : Frame where
  columns := columns.map Frames.fundingNames ++ ["funding_per_hour"]
  rows := rows.map fun r =>
    (r.timestamp * 1000000, r.renamed ++ [("funding_per_hour", .num r.perHour)])

/-- Every row gets its hourly rate. -/
theorem withPerHour_flat {columns : List String} (hrate : "rate_per_cycle" ∈ columns)
    (hcycle : "rate_cycle_ms" ∈ columns) (rows : List WireRow) :
    Frames.withPerHour (Frames.rename Frames.fundingNames
      ⟨columns, rows.map WireRow.indexed, []⟩) = .ok (hourly columns rows) := by
  have hrate' : "rate" ∈ columns.map Frames.fundingNames := List.mem_map.mpr ⟨_, hrate, rfl⟩
  have hcycle' : "cycle_ms" ∈ columns.map Frames.fundingNames := List.mem_map.mpr ⟨_, hcycle, rfl⟩
  have hrows : ((rows.map WireRow.indexed).map fun r =>
      (r.1, r.2.map fun f => (Frames.fundingNames f.1, f.2))) =
      rows.map fun r => (r.timestamp * 1000000, r.renamed) := by
    rw [List.map_map]
    rfl
  unfold Frames.withPerHour Frames.rename
  simp only [hrows, if_pos (And.intro hrate' hcycle')]
  rw [List.mapM_map, mapM_ok (g := fun r : WireRow =>
    (r.timestamp * 1000000, r.renamed ++ [("funding_per_hour", Json.num r.perHour)]))]
  · rfl
  · intro r _
    show Except.ok (r.timestamp * 1000000, r.renamed ++
      (Frames.perHour (some r.perCycle) (some r.cycleMs)).toList.map fun q =>
        ("funding_per_hour", Json.num q)) = _
    rw [perHour_of_numbers]
    rfl

/-- The frame after `_finalize`. -/
theorem finalize_hourly (texts : Texts) (columns : List String) (rows : List WireRow)
    (attrs : Record) (warnings : List String) :
    Frames.finalize texts (hourly columns rows) attrs Frames.fundingColumns warnings =
      (⟨Frames.fundingColumns, rows.map WireRow.clean,
        [] ++ attrs ++ [("warnings", .arr (warnings.map .str))]⟩, warnings) := by
  have hrows : (Frames.coerce texts (Frames.reindex (hourly columns rows)
      Frames.fundingColumns)).rows = rows.map WireRow.clean := by
    unfold Frames.coerce Frames.reindex hourly
    simp only [List.map_map]
    rfl
  unfold Frames.finalize
  simp only [hrows]
  rfl

/-- The attributes of the route's frame: the quote and the kind are those of the first row. -/
def fundingAttrs (ctx : Context) (first : WireRow) (warnings : List String) : Record :=
  ctx.baseAttrs ++ [("quote", .str first.quote), ("funding_kind", .str first.kind)] ++
    [("warnings", .arr (warnings.map .str))]

/-- The funding frame of rows that have their columns. -/
theorem fundingFrame_hourly (texts : Texts) (ctx : Context) {columns : List String}
    (hkind : "rate_kind" ∈ columns) (hquote : "quote" ∈ columns) (first : WireRow)
    (rows : List WireRow) :
    ∃ warnings : List String,
      Frames.fundingFrame texts (hourly columns (first :: rows)) ctx =
        (⟨Frames.fundingColumns, (first :: rows).map WireRow.clean,
          fundingAttrs ctx first warnings⟩, warnings) := by
  have hcolumn : ∀ column ∈ columns, Frames.fundingNames column ∈
      (hourly columns (first :: rows)).columns :=
    fun column hmem => List.mem_append_left _ (List.mem_map.mpr ⟨column, hmem, rfl⟩)
  have hkindOf : Frames.const (hourly columns (first :: rows)) "rate_kind" = .str first.kind :=
    const_of_head (hcolumn "rate_kind" hkind) rfl rfl rfl
  have hquoteOf : Frames.const (hourly columns (first :: rows)) "quote" = .str first.quote :=
    const_of_head (hcolumn "quote" hquote) rfl rfl rfl
  unfold Frames.fundingFrame
  rw [hkindOf, hquoteOf]
  exact ⟨_, finalize_hourly texts columns (first :: rows) _ _⟩

/-- `build` gives the route's columns of every row, by the times of the rows, and beside them the
quote and the kind of the earliest. -/
theorem buildFundingRate_dump (texts : Texts) (pandas : Pandas) (ctx : Context)
    {rows : List WireRow} (h : rows ≠ []) :
    ∃ (first : WireRow) (sorted : List WireRow) (warnings : List String),
      (first :: sorted).Perm rows ∧
      (first :: sorted).Pairwise (fun a b => a.timestamp ≤ b.timestamp) ∧
      Frames.buildFundingRate texts pandas (rows.map WireRow.dump) ctx =
        .ok (⟨Frames.fundingColumns, (first :: sorted).map WireRow.clean,
          fundingAttrs ctx first warnings⟩, warnings) := by
  obtain ⟨all, hperm, hpairwise, hindexed⟩ := indexed_dump pandas h
  have hcolumn := mem_columnsOf h
  have hhourly := withPerHour_flat ((hcolumn "rate_per_cycle").mpr (by simp))
    ((hcolumn "rate_cycle_ms").mpr (by simp)) all
  have hne : all ≠ [] := fun hnil => h (List.perm_nil.mp (hnil ▸ hperm.symm))
  obtain ⟨first, sorted, rfl⟩ := List.exists_cons_of_ne_nil hne
  obtain ⟨warnings, hframe⟩ := fundingFrame_hourly texts ctx
    ((hcolumn "rate_kind").mpr (by simp)) ((hcolumn "quote").mpr (by simp)) first sorted
  have hempty : (rows.map WireRow.dump).isEmpty = false := by simpa using h
  refine ⟨first, sorted, warnings, hperm, hpairwise, ?_⟩
  unfold Frames.buildFundingRate Frames.fundingRate
  rw [hempty, hindexed, ← hframe]
  show (Frames.withPerHour _ >>= fun df => _) = _
  rw [hhourly]
  rfl

/-- The frame of the route is read as the rows of the wire are, under its own kind. -/
theorem normalizedRows_clean (texts : Texts) {attrs : Record} {kind : String}
    (hattrs : cell attrs "funding_kind" = some (.str kind)) {rows : List WireRow}
    (hkind : ∀ r ∈ rows, r.kind = kind) :
    normalizedRows texts (.frame ⟨Frames.fundingColumns, rows.map WireRow.clean, attrs⟩) =
      .ok (rows.map WireRow.settlement) := by
  have hrow : ∀ r ∈ rows,
      cleanFrameRow texts Frames.fundingColumns (.str kind) r.clean = .ok r.settlement := by
    intro r hr
    show Except.ok (Settlement.mk (milliseconds (r.timestamp * 1000000)) (some (.str kind))
      r.perCycle r.cycleMs) = _
    rw [milliseconds_mul, ← hkind r hr]
    rfl
  unfold normalizedRows cleanFrameRows
  simp only [hattrs, Option.getD_some]
  rw [if_pos (by decide), List.mapM_map]
  exact mapM_ok hrow

/-! ## The three shapes -/

/-- Every shape of the same rows pays the same. -/
theorem fundingPaid_shapes (texts : Texts) (pandas : Pandas) (ctx : Context)
    (rows : List WireRow) (h : rows ≠ []) (kind : String) (hkind : ∀ r ∈ rows, r.kind = kind)
    (tOpen tClose : ℤ) (notional : ℚ) :
    (∃ (df : Frame) (warnings : List String),
      Frames.buildFundingRate texts pandas (rows.map WireRow.dump) ctx = .ok (df, warnings) ∧
      fundingPaid texts (.frame df) tOpen tClose notional =
        fundingPaid texts (.list (rows.map fun r => .mapping r.dump)) tOpen tClose notional) ∧
    (∃ df : Frame, Frames.indexed pandas (rows.map WireRow.dump) = .ok df ∧
      fundingPaid texts (.frame df) tOpen tClose notional =
        fundingPaid texts (.list (rows.map fun r => .mapping r.dump)) tOpen tClose notional) := by
  have hwire := fundingPaid_eq tOpen tClose notional (normalizedRows_wire texts rows)
  constructor
  · obtain ⟨first, sorted, warnings, hperm, -, hbuild⟩ := buildFundingRate_dump texts pandas ctx h
    have hsortedKind : ∀ r ∈ first :: sorted, r.kind = kind :=
      fun r hr => hkind r (hperm.mem_iff.mp hr)
    have hattrs : cell (fundingAttrs ctx first warnings) "funding_kind" = some (.str kind) := by
      rw [← hsortedKind first List.mem_cons_self]
      rfl
    refine ⟨_, warnings, hbuild, ?_⟩
    rw [hwire, fundingPaid_eq tOpen tClose notional (normalizedRows_clean texts hattrs hsortedKind)]
    exact foldlM_accrue_perm tOpen tClose notional (hperm.map _) 0
  · obtain ⟨sorted, hperm, -, hindexed⟩ := indexed_dump pandas h
    refine ⟨_, hindexed, ?_⟩
    rw [hwire, fundingPaid_eq tOpen tClose notional
      (normalizedRows_flat texts (mem_columnsOf h) sorted)]
    exact foldlM_accrue_perm tOpen tClose notional (hperm.map _) 0

/-- pandas with a stable sort, and with no time but a number of milliseconds. -/
def stablePandas : Pandas where
  toDatetime
    | some (.num q) => .ok (trunc (q * 1000000))
    | _ => .error .typeError
  sortIndex rows := rows.mergeSort fun a b => decide (a.1 ≤ b.1)
  toDatetime_ms ms := by
    have hms : (ms : ℚ) * 1000000 = ((ms * 1000000 : ℤ) : ℚ) := by push_cast; rfl
    simp only [hms, trunc_intCast]
  sortIndex_perm rows := List.mergeSort_perm rows _
  sortIndex_sorted rows := by
    have hsorted := @List.pairwise_mergeSort _ (fun a b : ℤ × Record => decide (a.1 ≤ b.1))
      (fun a b c hab hbc => by simp only [decide_eq_true_eq] at *; omega)
      (fun a b => by simp only [Bool.or_eq_true, decide_eq_true_eq]; omega) rows
    exact hsorted.imp fun h => by simpa using h

/-- Two continuous rows of one time, the later row first. -/
theorem fundingPaid_shapes_continuous :
    let texts : Texts := ⟨fun _ => none, fun _ => none⟩
    let rows : List WireRow := [
      ⟨"PF_XBTUSD", "linear", "USD", "continuous", 1 / 1000, 3600000, 3600000⟩,
      ⟨"PF_XBTUSD", "linear", "USD", "continuous", 1 / 2000, 3600000, 0⟩,
      ⟨"PF_XBTUSD", "linear", "USD", "continuous", 1 / 4000, 1800000, 0⟩]
    (∃ (df : Frame) (warnings : List String),
      Frames.buildFundingRate texts stablePandas (rows.map WireRow.dump)
        { exchange := "kraken", marketType := "linear", symbol := "PF_XBTUSD" } =
          .ok (df, warnings) ∧
      fundingPaid texts (.frame df) 0 5400000 100 =
        fundingPaid texts (.list (rows.map fun r => .mapping r.dump)) 0 5400000 100) ∧
    (∃ df : Frame, Frames.indexed stablePandas (rows.map WireRow.dump) = .ok df ∧
      fundingPaid texts (.frame df) 0 5400000 100 =
        fundingPaid texts (.list (rows.map fun r => .mapping r.dump)) 0 5400000 100) :=
  fundingPaid_shapes _ _ _ _ (by simp) "continuous" (by simp) _ _ _

end Funding
end ExchangeRouter
