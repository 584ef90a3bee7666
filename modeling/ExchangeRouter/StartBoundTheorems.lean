import ExchangeRouter.PagedReadsTheorems
import ExchangeRouter.PaginateSafetyTheorems
import ExchangeRouter.StartBound

/-!
# `start` as an upper bound

Every place that turns a start into an end asks first whether there is one, by its truth value.
So a start of zero is no start on any path, and a venue that has one candle shows it;
`start_bounds_iff` says that zero is the only start that does not bound what comes back.
-/

namespace ExchangeRouter

open Newest

/-! ## A start of zero -/

lemma Query.EndsAt.ends {q : Query} {e : ℤ} (h : q.EndsAt e) : q.ends = true := by
  apply List.any_eq_true.mpr
  rcases h with h | h | h
  all_goals exact ⟨_, h, by simp⟩

section

variable {ρ β : Type*} {rows : ρ → List β} {stamp : β → Option ℤ}

/-- A venue that has one row, and sends it unless the request names an end. -/
def oneRow (body : List β → ρ) (row : β) : Venue ρ := fun _ q =>
  .ok (body (if q.ends then [] else [row]))

/-- Such a venue is honest. -/
lemma honest_oneRow {body : List β → ρ} (hbody : ∀ rs, rows (body rs) = rs) (row : β) :
    HonestVenue rows stamp (oneRow body row) := by
  constructor
  · intro n q reply hreply e hend r hr
    rw [← Except.ok.inj hreply, hbody, hend.ends] at hr
    exact absurd hr List.not_mem_nil
  · refine ⟨fun _ => [row], fun _ => List.Subset.refl _, ?_⟩
    intro n q reply hreply hends _
    have hrows : rows reply = [row] := by
      rw [← Except.ok.inj hreply, hbody, hends]
      rfl
    rw [hrows]
    refine ⟨List.Subset.refl _, fun r hr hnot => absurd hr hnot, fun _ => List.cons_ne_nil _ _⟩

end

section

variable {ρ α κ : Type*} [DecidableEq κ] {timestamp : α → ℤ} {modelDumpJson : α → κ}
  {start : ℤ}

variable (timestamp start) in
/-- Every page comes, and is after the start. -/
def FetchAbove (fetch : Upstream α) : Prop :=
  ∀ n request, ∃ batch, fetch n request = .ok batch ∧ ∀ x ∈ batch, start < timestamp x

omit [DecidableEq κ] in
/-- A call that returns a record, and only such after the start, is not bounded. -/
lemma not_bounded_of_above {call : ReadCall α} {out : List α} (hout : call.result = .ok out)
    (hne : out ≠ []) (habove : ∀ x ∈ out, start < timestamp x) :
    ¬ Bounded timestamp start call := by
  intro hbounded
  obtain ⟨x, hx⟩ := List.exists_mem_of_ne_nil out hne
  have hle := hbounded out hout x hx
  have hlt := habove x hx
  omega

omit [DecidableEq κ] in
/-- A list that has a record has one in its tail. -/
lemma sliceTail_ne_nil {xs : List α} {n : ℤ} (hne : xs ≠ []) (hn : 1 ≤ n) :
    sliceTail xs n ≠ [] := by
  intro hnil
  rcases (sliceTail_eq_nil_iff xs n).mp hnil with hnil | ⟨hneg, -⟩
  · exact hne hnil
  · omega

variable (modelDumpJson) in
/-- The walk over such pages. -/
lemma walk_above {fetch : Upstream α} (hfetch : FetchAbove timestamp start fetch)
    (query : ℕ → PageRequest → Query) {limit : ℤ} (l : ℤ) (hlimit : 1 ≤ limit) :
    ∃ out, (walk timestamp modelDumpJson fetch query limit l).result = .ok out ∧
      ∀ x ∈ out, start < timestamp x := by
  have hrejection : ∀ n request e, fetch n request = .error e → e.isRejection := by
    intro n request e he
    obtain ⟨batch, hbatch, -⟩ := hfetch n request
    rw [hbatch] at he
    exact absurd he (by simp)
  obtain ⟨-, -, ⟨out, records, hout, -, -, -, -, hof, -⟩, -⟩ :=
    paginateBackwards_safe timestamp modelDumpJson fetch limit l hlimit hrejection
  refine ⟨out, hout, fun x hx => ?_⟩
  obtain ⟨n, request, batch, hbatch, hmem⟩ := hof x hx
  obtain ⟨batch', hbatch', habove⟩ := hfetch n request
  rw [hbatch, Except.ok.injEq] at hbatch'
  exact habove x (hbatch' ▸ hmem)

/-- A paged read over such pages, whose first is not empty. -/
lemma PagedRead.callWith_not_bounded (r : PagedRead) {fetch : Upstream α}
    (hfetch : FetchAbove timestamp start fetch) (hfirst : ∀ l, fetch 0 ⟨none, l⟩ ≠ .ok [])
    (hlimit : 1 ≤ r.limit) :
    ¬ Bounded timestamp start (r.callWith timestamp modelDumpJson fetch) := by
  unfold PagedRead.callWith
  split
  · obtain ⟨out, hout, habove⟩ := walk_above modelDumpJson hfetch r.query r.perReq hlimit
    apply not_bounded_of_above hout _ habove
    rintro rfl
    obtain ⟨batch, hbatch, -⟩ := hfetch 0 ⟨none, r.perReq⟩
    have hempty := ((paginateBackwards_first timestamp modelDumpJson fetch r.perReq hlimit).2.2
      batch hbatch).mp hout
    rw [hempty] at hbatch
    exact hfirst r.perReq hbatch
  · obtain ⟨batch, hbatch, habove⟩ := hfetch 0 ⟨none, r.limit⟩
    have hne : batch ≠ [] := by
      rintro rfl
      exact hfirst r.limit hbatch
    have hout : (onePage fetch r.query r.trims r.limit).result =
        .ok (if r.trims then sliceTail batch r.limit else batch) := by
      simp [onePage, hbatch, Except.map]
    apply not_bounded_of_above hout
    · split
      · exact sliceTail_ne_nil hne hlimit
      · exact hne
    · intro x hx
      split at hx
      · exact habove x (mem_of_mem_sliceTail hx)
      · exact habove x hx

end

/-! ### A venue with one candle -/

/-- A candle of November 2023, all of whose prices and volumes are one. -/
def lateRow : KlineRow := ⟨some 1700000000000, List.replicate 6 (some 1)⟩

/-- The rows as the exchange wraps them. -/
def CandlesPath.body : CandlesPath → List KlineRow → KlineReply
  | binance _, rs => .array rs
  | bybit _ _ _, rs => .object [("list", some rs)]
  | okx _ _, rs => .array rs
  | kraken _ _, rs => .object [("candles", some rs)]

lemma CandlesPath.rows_body (path : CandlesPath) (rs : List KlineRow) :
    (path.body rs).rows = rs := by
  cases path <;> simp [body, KlineReply.rows]

section

variable {m : Market}

lemma buildVolumeValue_ok (hsized : m.Sized) (native close : ℚ) :
    ∃ v, buildVolumeValue native m.unit m.contractSize close = .ok v := by
  cases hunit : m.unit with
  | base => exact ⟨_, rfl⟩
  | contract =>
    have hinverse : m.marketType = .inverse := by
      by_contra hnot
      have hbase : m.unit = .base := if_neg hnot
      rw [hbase] at hunit
      exact absurd hunit (by simp)
    obtain ⟨size, hsize⟩ := Option.ne_none_iff_exists'.mp (hsized hinverse)
    rw [hsize]
    exact ⟨_, rfl⟩

/-- The one row can be read, wherever the volume stands. -/
lemma candle_lateRow (hsized : m.Sized) (volumeAt : ℕ) (hlow : 1 ≤ volumeAt) (hhigh : volumeAt ≤ 6)
    (ts : ℤ) : ∃ c, m.candle volumeAt lateRow ts 1 = .ok c ∧ c.timestamp = ts := by
  have hcell : ∀ i, 1 ≤ i → i ≤ 6 → lateRow.float i = .ok 1 := by
    intro i hi hi'
    have hget : lateRow.cells[i - 1]? = some (some 1) := by
      show (List.replicate 6 (some 1))[i - 1]? = some (some 1)
      rw [List.getElem?_replicate, if_pos (by omega)]
    unfold KlineRow.float
    rw [hget]
  obtain ⟨v, hv⟩ := buildVolumeValue_ok hsized 1 1
  refine ⟨⟨ts, 1, ⟨m.symbol, m.marketType, m.quote, m.interval, 1, 1, 1, v⟩⟩, ?_, rfl⟩
  unfold Market.candle
  rw [hcell 1 (by omega) (by omega), hcell 2 (by omega) (by omega),
    hcell 3 (by omega) (by omega), hcell volumeAt hlow hhigh]
  show (buildVolumeValue 1 m.unit m.contractSize 1).bind _ = _
  rw [hv]
  rfl

lemma time_lateRow : lateRow.time = .ok 1700000000000 := by decide

/-- The late row is read. -/
lemma readRow_lateRow (hsized : m.Sized) (volumeAt : ℕ) (hlow : 1 ≤ volumeAt)
    (hhigh : volumeAt ≤ 6) :
    ∃ c, m.readRow volumeAt lateRow = .ok c ∧ c.timestamp = 1700000000000 := by
  obtain ⟨c, hc, hts⟩ := candle_lateRow hsized volumeAt hlow hhigh 1700000000000
  refine ⟨c, ?_, hts⟩
  unfold Market.readRow
  rw [time_lateRow]
  exact hc

/-- So can a reply of it. -/
lemma mapM_lateRow (hsized : m.Sized) (volumeAt : ℕ) (hlow : 1 ≤ volumeAt) (hhigh : volumeAt ≤ 6) :
    ∃ c, [lateRow].mapM (m.readRow volumeAt) = .ok [c] ∧ c.timestamp = 1700000000000 := by
  obtain ⟨c, hc, hts⟩ := readRow_lateRow hsized volumeAt hlow hhigh
  refine ⟨c, ?_, hts⟩
  simp only [List.mapM_cons, List.mapM_nil, hc]
  rfl

lemma Okx.readRow_lateRow (hsized : m.Sized) :
    ∃ c, readRow m lateRow = some c ∧ c.timestamp = 1700000000000 := by
  obtain ⟨c, hc, hts⟩ := candle_lateRow hsized
    (if m.marketType = .linear ∧ 7 ≤ lateRow.cells.length + 1 then 6 else 5)
    (by split <;> omega) (by split <;> omega) 1700000000000
  refine ⟨c, ?_, hts⟩
  unfold readRow
  rw [if_neg (by decide), time_lateRow]
  dsimp only
  rw [if_neg (by decide)]
  show (m.candle _ lateRow 1700000000000 1).toOption = some c
  rw [hc]
  rfl

end

section

variable {ρ α β : Type*} {timestamp : α → ℤ} {start : ℤ} {parse : ρ → Except Fault (List α)}
  {body : List β → ρ} {row : β}

/-- The pages of a venue with one row, when it is read as a record after the start. -/
lemma fetchAbove_oneRow (hnil : parse (body []) = .ok [])
    (hone : ∃ c, parse (body [row]) = .ok [c] ∧ start < timestamp c)
    (query : ℕ → PageRequest → Query) :
    FetchAbove timestamp start (fetchPage (oneRow body row) parse query) := by
  intro n request
  obtain ⟨c, hc, hlt⟩ := hone
  by_cases hends : (query n request).ends = true
  · refine ⟨[], ?_, fun x hx => absurd hx List.not_mem_nil⟩
    show parse (body (if (query n request).ends then [] else [row])) = _
    rw [if_pos hends, hnil]
  · refine ⟨[c], ?_, fun x hx => ?_⟩
    · show parse (body (if (query n request).ends then [] else [row])) = _
      rw [if_neg hends, hc]
    · rw [List.mem_singleton.mp hx]
      exact hlt

/-- A request without an end gets the row. -/
lemma fetchPage_oneRow_ne_nil (hone : ∃ c, parse (body [row]) = .ok [c] ∧ start < timestamp c)
    {query : ℕ → PageRequest → Query} {request : PageRequest}
    (hends : (query 0 request).ends = false) :
    fetchPage (oneRow body row) parse query 0 request ≠ .ok [] := by
  obtain ⟨c, hc, -⟩ := hone
  have hpage : fetchPage (oneRow body row) parse query 0 request = .ok [c] := by
    show parse (body (if (query 0 request).ends then [] else [row])) = _
    rw [hends, ← hc]
    rfl
  rw [hpage]
  simp

/-- A paged read from such a venue whose first request names no end. -/
lemma PagedRead.call_not_bounded {κ : Type*} [DecidableEq κ] {modelDumpJson : α → κ}
    (r : PagedRead) (hnil : parse (body []) = .ok [])
    (hone : ∃ c, parse (body [row]) = .ok [c] ∧ start < timestamp c)
    (hends : ∀ l, (r.query 0 ⟨none, l⟩).ends = false) (hlimit : 1 ≤ r.limit) :
    ¬ Bounded timestamp start (r.call timestamp modelDumpJson (oneRow body row) parse) := by
  apply PagedRead.callWith_not_bounded
  · exact fetchAbove_oneRow hnil hone _
  · intro l
    exact fetchPage_oneRow_ne_nil hone (hends l)
  · exact hlimit

end

section

variable {κ : Type*} [DecidableEq κ] {m : Market} {limit : ℤ}

/-- An aggregate trade of the same time. -/
def Binance.lateAgg : AggRow := ⟨"1", some 1, some 1, "1", "1", true, some 1700000000000⟩

/-- With the start zero a later trade comes back. -/
lemma Binance.aggTrades_not_bounded (modelDumpJson : AggTrade → κ) (hsized : m.Sized)
    (hlimit : 1 ≤ limit) (apiSymbol : String) :
    ¬ Bounded AggTrade.timestamp 0
      (aggTradesCall modelDumpJson m (oneRow id lateAgg) apiSymbol (some 0) limit) := by
  have hqty : ∃ v, qtyValue m 1 1 = .ok v := by
    obtain ⟨v, hv⟩ := buildVolumeValue_ok hsized 1 1
    unfold qtyValue
    cases hunit : m.unit with
    | base => exact ⟨_, rfl⟩
    | contract =>
      cases hsize : m.contractSize with
      | none => simp [hunit, hsize, buildVolumeValue] at hv
      | some size => exact ⟨_, rfl⟩
  have hone : ∃ t, parseAggTrades m (id [lateAgg]) = .ok [t] ∧ 0 < t.timestamp := by
    obtain ⟨v, hv⟩ := hqty
    refine ⟨⟨"1", m.symbol, m.marketType, m.quote, 1, v, "1", "1", "sell", 1700000000000⟩, ?_, ?_⟩
    rotate_left
    · show (0 : ℤ) < 1700000000000
      omega
    have hread : readAggTrade m lateAgg = .ok
        ⟨"1", m.symbol, m.marketType, m.quote, 1, v, "1", "1", "sell", 1700000000000⟩ := by
      show (qtyValue m 1 1).bind _ = _
      rw [hv]
      rfl
    simp only [parseAggTrades, id_eq, List.mapM_cons, List.mapM_nil, hread]
    rfl
  apply PagedRead.call_not_bounded _ rfl hone _ hlimit
  intro l
  simp [getAggTrades, ifAnchor, Query.ends]

variable (modelDumpJson : Kline → κ)

/-- With the start zero a later candle comes back. -/
lemma Binance.candles_not_bounded (hsized : m.Sized) (hlimit : 1 ≤ limit) (apiSymbol : String) :
    ¬ Bounded Candle.timestamp 0 ((CandlesPath.binance apiSymbol).call modelDumpJson m
      (oneRow (CandlesPath.binance apiSymbol).body lateRow) (some 0) limit) := by
  have hone : ∃ c, parseCandles m ((CandlesPath.binance apiSymbol).body [lateRow]) = .ok [c] ∧
      0 < c.timestamp := by
    obtain ⟨c, hc, hts⟩ := mapM_lateRow hsized 5 (by omega) (by omega)
    exact ⟨c, hc, by omega⟩
  apply PagedRead.call_not_bounded _ rfl hone _ hlimit
  intro l
  simp [getCandles, ifAnchor, Query.ends]

lemma Bybit.candles_not_bounded (hsized : m.Sized) (hlimit : 1 ≤ limit)
    (cat apiSymbol bybitInterval : String) :
    ¬ Bounded Candle.timestamp 0
      ((CandlesPath.bybit cat apiSymbol bybitInterval).call modelDumpJson m
        (oneRow (CandlesPath.bybit cat apiSymbol bybitInterval).body lateRow) (some 0) limit) := by
  have hone : ∃ c, parseCandles m
      ((CandlesPath.bybit cat apiSymbol bybitInterval).body [lateRow]) = .ok [c] ∧
      0 < c.timestamp := by
    obtain ⟨c, hc, hts⟩ := mapM_lateRow hsized 5 (by omega) (by omega)
    refine ⟨c, ?_, by omega⟩
    simp only [CandlesPath.body, parseCandles, entry, List.lookup_cons, beq_self_eq_true, hc]
    rfl
  apply PagedRead.call_not_bounded _ rfl hone _ hlimit
  intro l
  simp [getCandles, ifAnchor, Query.ends]

/-- Recent candles that are too few are joined with what the walk behind them returns. -/
lemma Okx.getCandles_of_few_ok {venue : Venue KlineReply} {c : CandlesRead} {oldest : Kline}
    {rest history : List Kline} (hpage : (venue 0 c.first).bind (parseCandles m) =
      .ok (oldest :: rest))
    (hfew : ¬ (c.single = true ∨ c.limit ≤ ((oldest :: rest).length : ℤ)))
    (hhistory : (historyWalk Candle.timestamp modelDumpJson venue (parseCandles m) c
      (fun r => ⟨anchor r.endTs (some (oldest.timestamp - 1)), r.limit⟩)
      (c.limit - ((oldest :: rest).length : ℤ))).result = .ok history) :
    (getCandles Candle.timestamp modelDumpJson venue (parseCandles m) c).result =
      .ok (sliceTail (byTimestamp Candle.timestamp (history ++ oldest :: rest)) c.limit) := by
  push Not at hfew
  unfold getCandles
  simp only [hpage, if_neg hfew.1, if_neg (not_le.mpr hfew.2)]
  rw [hhistory]
  rfl

/-- The recent page has the candle, and history behind it nothing before. -/
lemma Okx.candles_not_bounded (hsized : m.Sized) (hlimit : 1 ≤ limit) (apiSymbol bar : String) :
    ¬ Bounded Candle.timestamp 0 ((CandlesPath.okx apiSymbol bar).call modelDumpJson m
      (oneRow (CandlesPath.okx apiSymbol bar).body lateRow) (some 0) limit) := by
  obtain ⟨c, hread, hts⟩ := readRow_lateRow hsized
  have hc : parseCandles m (.array [lateRow]) = .ok [c] := by
    simp only [parseCandles, List.filterMap_cons, hread, List.filterMap_nil]
    rfl
  have hpos : 0 < c.timestamp := by omega
  show ¬ Bounded Candle.timestamp 0 (getCandles Candle.timestamp modelDumpJson
    (oneRow .array lateRow) (parseCandles m) ⟨apiSymbol, bar, some 0, limit⟩)
  generalize hr : (⟨apiSymbol, bar, some 0, limit⟩ : CandlesRead) = r
  have hrlimit : r.limit = limit := by rw [← hr]
  have hpage : (oneRow .array lateRow 0 r.first).bind (parseCandles m) = .ok [c] := by
    have hends : r.first.ends = false := by
      rw [← hr]
      simp [CandlesRead.first, CandlesRead.recent, candleQuery, ifAnchor, Query.ends]
    show parseCandles m (.array (if r.first.ends then [] else [lateRow])) = _
    rw [hends, ← hc]
    rfl
  by_cases henough : r.single = true ∨ r.limit ≤ ([c].length : ℤ)
  · apply not_bounded_of_above (getCandles_of_enough _ modelDumpJson hpage henough)
    · apply sliceTail_ne_nil (List.cons_ne_nil _ _)
      omega
    · intro x hx
      rw [List.mem_singleton.mp (mem_of_mem_sliceTail hx)]
      exact hpos
  · have hfew := getCandles_of_few Candle.timestamp modelDumpJson hpage henough
    have hmore : 1 ≤ r.limit - ([c].length : ℤ) := by
      push Not at henough
      have hlt := henough.2
      omega
    have hfetch : FetchAbove Candle.timestamp 0
        (fetchPage (oneRow .array lateRow) (parseCandles m)
          fun _ q => r.history ⟨anchor q.endTs (some (c.timestamp - 1)), q.limit⟩) :=
      fetchAbove_oneRow rfl ⟨c, hc, hpos⟩ _
    obtain ⟨history, hhistory, habove⟩ := walk_above modelDumpJson hfetch
      (fun _ q => r.history ⟨anchor q.endTs (some (c.timestamp - 1)), q.limit⟩) 100 hmore
    have hresult := getCandles_of_few_ok modelDumpJson hpage henough hhistory
    rw [hresult] at hfew
    apply not_bounded_of_above hresult
    · intro hnil
      rw [hnil] at hfew
      exact hfew rfl
    · intro x hx
      have hmem := mem_of_mem_byTimestamp (mem_of_mem_sliceTail hx)
      rcases List.mem_append.mp hmem with hmem | hmem
      · exact habove x hmem
      · rw [List.mem_singleton.mp hmem]
        exact hpos

namespace Kraken

omit [DecidableEq κ] in
/-- At a start of zero nothing is cut, so one late candle comes back. -/
lemma finish_zero {c : Kline} (hlimit : 1 ≤ limit) : finish (some 0) limit [c] ≠ [] :=
  sliceTail_ne_nil (List.cons_ne_nil _ _) hlimit

lemma candlesSpot_not_bounded (hsized : m.Sized) (hlimit : 1 ≤ limit) (apiSymbol : String)
    (nowSecs : ℤ) (hinterval : spotIntervals.lookup m.interval ≠ none) :
    ¬ Bounded Candle.timestamp 0 (getCandlesSpot m
      (oneRow (CandlesPath.kraken apiSymbol nowSecs).body lateRow) apiSymbol (some 0) limit) := by
  obtain ⟨minutes, hminutes⟩ := Option.ne_none_iff_exists'.mp hinterval
  obtain ⟨c, hrows, hts⟩ := mapM_lateRow hsized 6 (by omega) (by omega)
  have hends : (spotQuery apiSymbol minutes (some 0) limit).ends = false := by
    simp [spotQuery, ifAnchor, Query.ends]
  have hresult : (getCandlesSpot m (oneRow (CandlesPath.kraken apiSymbol nowSecs).body lateRow)
      apiSymbol (some 0) limit).result = .ok (finish (some 0) limit [c]) := by
    simp only [getCandlesSpot, mapSpotInterval, hminutes, oneRow, hends]
    show Except.bind ([lateRow].mapM (m.readRow 6)) _ = _
    rw [hrows]
    rfl
  apply not_bounded_of_above hresult (finish_zero hlimit)
  intro x hx
  rw [List.mem_singleton.mp (mem_finish hx).1]
  omega

/-- The first round reads the candle. -/
lemma chartStep_lateRow {c : Kline} (hc : m.candle 5 lateRow 1700000000000 1 = .ok c)
    (apiSymbol : String) (nowSecs intervalSecs anchorSecs fromTs : ℤ) :
    ∃ w, w.allCandles = [c] ∧ w.seenTs = [1700000000000] ∧
      (chartStep m (oneRow (CandlesPath.kraken apiSymbol nowSecs).body lateRow) apiSymbol
          intervalSecs anchorSecs { fromTs := fromTs } = .stop w none ∨
        chartStep m (oneRow (CandlesPath.kraken apiSymbol nowSecs).body lateRow) apiSymbol
          intervalSecs anchorSecs { fromTs := fromTs } = .again w) := by
  have hends : (chartQuery m apiSymbol fromTs).ends = false := by
    simp [chartQuery, Query.ends]
  have hscan : scanBatch m ⟨[], [], 0, fromTs⟩ [lateRow] =
      .ok ⟨[c], [1700000000000], 1, 1700000000⟩ := by
    unfold scanBatch
    rw [time_lateRow]
    show Except.bind (m.candle 5 lateRow 1700000000000 1) _ = _
    rw [hc]
    rfl
  by_cases hlast : anchorSecs - intervalSecs ≤ 1700000000
  · refine ⟨⟨fromTs, [c], [1700000000000], [chartQuery m apiSymbol fromTs]⟩, rfl, rfl, Or.inl ?_⟩
    simp [chartStep, oneRow, hends, CandlesPath.body, chartBatch, entry, hscan, hlast]
  · refine ⟨⟨1700000000 + intervalSecs, [c], [1700000000000], [chartQuery m apiSymbol fromTs]⟩,
      rfl, rfl, Or.inr ?_⟩
    simp [chartStep, oneRow, hends, CandlesPath.body, chartBatch, entry, hscan, hlast]

/-- A later round reads nothing new and ends the walk. -/
lemma chartStep_again (apiSymbol : String) (nowSecs intervalSecs anchorSecs : ℤ) {w : ChartWalk}
    (hseen : w.seenTs = [1700000000000]) :
    ∃ w', w'.allCandles = w.allCandles ∧
      chartStep m (oneRow (CandlesPath.kraken apiSymbol nowSecs).body lateRow) apiSymbol
        intervalSecs anchorSecs w = .stop w' none := by
  have hends : (chartQuery m apiSymbol w.fromTs).ends = false := by
    simp [chartQuery, Query.ends]
  have hscan : scanBatch m ⟨w.allCandles, w.seenTs, 0, w.fromTs⟩ [lateRow] =
      .ok ⟨w.allCandles, w.seenTs, 0, 1700000000⟩ := by
    unfold scanBatch
    rw [time_lateRow, hseen]
    rfl
  refine ⟨{ w with asked := w.asked ++ [chartQuery m apiSymbol w.fromTs] }, rfl, ?_⟩
  simp [chartStep, oneRow, hends, CandlesPath.body, chartBatch, entry, hscan]

lemma candlesFutures_not_bounded (hsized : m.Sized) (hlimit : 1 ≤ limit) (apiSymbol : String)
    (nowSecs : ℤ) (hinterval : intervalSecsMap.lookup m.interval ≠ none) :
    ¬ Bounded Candle.timestamp 0 (getCandlesFutures m
      (oneRow (CandlesPath.kraken apiSymbol nowSecs).body lateRow) apiSymbol nowSecs (some 0)
      limit) := by
  obtain ⟨secs, hsecs⟩ := Option.ne_none_iff_exists'.mp hinterval
  obtain ⟨c, hc, hts⟩ := candle_lateRow hsized 5 (by omega) (by omega) 1700000000000
  have hrun : ∃ w, w.allCandles = [c] ∧
      chartLoop m (oneRow (CandlesPath.kraken apiSymbol nowSecs).body lateRow) apiSymbol secs
        (anchorSecsOf (some 0) nowSecs) 20
        { fromTs := anchorSecsOf (some 0) nowSecs - limit * secs } = (w, none) := by
    obtain ⟨w, hall, hseen, hstop | hagain⟩ := chartStep_lateRow hc apiSymbol nowSecs secs
      (anchorSecsOf (some 0) nowSecs) (anchorSecsOf (some 0) nowSecs - limit * secs)
    · refine ⟨w, hall, ?_⟩
      unfold chartLoop
      rw [hstop]
    · obtain ⟨w', hall', hstop⟩ := chartStep_again (m := m) apiSymbol nowSecs secs
        (anchorSecsOf (some 0) nowSecs) hseen
      refine ⟨w', hall'.trans hall, ?_⟩
      unfold chartLoop
      rw [hagain]
      dsimp only
      unfold chartLoop
      rw [hstop]
  obtain ⟨w, hall, hloop⟩ := hrun
  have hresult : (getCandlesFutures m (oneRow (CandlesPath.kraken apiSymbol nowSecs).body lateRow)
      apiSymbol nowSecs (some 0) limit).result = .ok (finish (some 0) limit [c]) := by
    simp only [getCandlesFutures, hsecs, hloop, hall]
  apply not_bounded_of_above hresult (finish_zero hlimit)
  intro x hx
  rw [List.mem_singleton.mp (mem_finish hx).1]
  omega

lemma candles_not_bounded (hsized : m.Sized) (hlimit : 1 ≤ limit) (apiSymbol : String)
    (nowSecs : ℤ) (hsupports : (CandlesPath.kraken apiSymbol nowSecs).Supports m) :
    ¬ Bounded Candle.timestamp 0 ((CandlesPath.kraken apiSymbol nowSecs).call modelDumpJson m
      (oneRow (CandlesPath.kraken apiSymbol nowSecs).body lateRow) (some 0) limit) := by
  simp only [CandlesPath.Supports] at hsupports
  show ¬ Bounded Candle.timestamp 0 (getCandles m _ apiSymbol nowSecs (some 0) limit)
  unfold getCandles
  split
  · next hspot =>
    rw [if_pos hspot] at hsupports
    exact candlesSpot_not_bounded hsized hlimit apiSymbol nowSecs hsupports
  · next hspot =>
    rw [if_neg hspot] at hsupports
    exact candlesFutures_not_bounded hsized hlimit apiSymbol nowSecs hsupports

end Kraken

/-! ## The bound -/

/-- A start that is not zero bounds every path, and so does a call that can read nothing. -/
lemma CandlesPath.call_bounded (path : CandlesPath) {venue : Venue KlineReply} {start : ℤ}
    (hvenue : HonoursEnd KlineReply.rows KlineRow.stamp venue) (hstart : 0 ≤ start)
    (hcond : start ≠ 0 ∨ ¬ m.Sized ∨ ¬ path.Supports m) :
    Bounded Candle.timestamp start (path.call modelDumpJson m venue (some start) limit) := by
  cases path with
  | binance apiSymbol =>
    apply Binance.candles_bounded limit modelDumpJson hvenue
    intro hsized
    have hne : start ≠ 0 := hcond.resolve_right fun h => h.elim (· hsized) (· trivial)
    omega
  | bybit cat apiSymbol bybitInterval =>
    apply Bybit.candles_bounded limit modelDumpJson hvenue
    intro hsized
    have hne : start ≠ 0 := hcond.resolve_right fun h => h.elim (· hsized) (· trivial)
    omega
  | okx apiSymbol bar =>
    apply Okx.candles_bounded limit modelDumpJson hvenue
    intro hsized
    have hne : start ≠ 0 := hcond.resolve_right fun h => h.elim (· hsized) (· trivial)
    omega
  | kraken apiSymbol nowSecs =>
    apply Kraken.candles_bounded limit modelDumpJson
    intro hsized hsupports
    exact hcond.resolve_right fun h => h.elim (· hsized) (· hsupports)

/-- At a start of zero every path that can read a row returns the venue's one candle. -/
lemma CandlesPath.call_zero (path : CandlesPath) (hsized : m.Sized) (hsupports : path.Supports m)
    (hlimit : 1 ≤ limit) :
    ¬ Bounded Candle.timestamp 0
      (path.call modelDumpJson m (oneRow path.body lateRow) (some 0) limit) := by
  cases path with
  | binance apiSymbol => exact Binance.candles_not_bounded modelDumpJson hsized hlimit apiSymbol
  | bybit cat apiSymbol bybitInterval =>
    exact Bybit.candles_not_bounded modelDumpJson hsized hlimit cat apiSymbol bybitInterval
  | okx apiSymbol bar => exact Okx.candles_not_bounded modelDumpJson hsized hlimit apiSymbol bar
  | kraken apiSymbol nowSecs =>
    exact Kraken.candles_not_bounded modelDumpJson hsized hlimit apiSymbol nowSecs hsupports

end

/-- `BTCUSDT` on the spot market, by the minute. -/
def btcusdtMinutes : Market := ⟨"BTCUSDT", .spot, "USDT", "1m", none⟩

/-- For every start and limit: the start bounds what comes back exactly when it is not zero,
where a row of the market can be read at all. -/
theorem start_bounds_iff {κ κ' : Type*} [DecidableEq κ] [DecidableEq κ']
    (dumpCandle : Kline → κ) (dumpTrade : Binance.AggTrade → κ') (m : Market) (start limit : ℤ)
    (hstart : 0 ≤ start) (hlimit : 1 ≤ limit) :
    (∀ path : CandlesPath,
      (∀ venue, HonestVenue KlineReply.rows KlineRow.stamp venue →
        Bounded Candle.timestamp start (path.call dumpCandle m venue (some start) limit)) ↔
      start ≠ 0 ∨ ¬ m.Sized ∨ ¬ path.Supports m) ∧
    ∀ apiSymbol,
      (∀ venue, HonestVenue id Binance.AggRow.stamp venue →
        Bounded Binance.AggTrade.timestamp start
          (Binance.aggTradesCall dumpTrade m venue apiSymbol (some start) limit)) ↔
      start ≠ 0 ∨ ¬ m.Sized := by
  constructor
  · intro path
    constructor
    · intro hbounded
      by_contra hcond
      push Not at hcond
      obtain ⟨rfl, hsized, hsupports⟩ := hcond
      have hhonest : HonestVenue KlineReply.rows KlineRow.stamp (oneRow path.body lateRow) :=
        honest_oneRow path.rows_body lateRow
      exact path.call_zero dumpCandle hsized hsupports hlimit (hbounded _ hhonest)
    · intro hcond venue hvenue
      exact path.call_bounded dumpCandle hvenue.honoursEnd hstart hcond
  · intro apiSymbol
    constructor
    · intro hbounded
      by_contra hcond
      push Not at hcond
      obtain ⟨rfl, hsized⟩ := hcond
      have hhonest : HonestVenue id Binance.AggRow.stamp (oneRow id Binance.lateAgg) :=
        honest_oneRow (fun _ => rfl) Binance.lateAgg
      exact Binance.aggTrades_not_bounded dumpTrade hsized hlimit apiSymbol (hbounded _ hhonest)
    · intro hcond venue hvenue
      apply Binance.aggTrades_bounded limit dumpTrade hvenue.honoursEnd
      intro hsized
      have hne : start ≠ 0 := hcond.resolve_right fun h => h hsized
      omega

/-- Candles of Binance by the minute up to a start in November 2023, from the venue with one. -/
theorem start_bounds_iff_btcusdt :
    Bounded Candle.timestamp 1700000000000
      ((CandlesPath.binance "BTCUSDT").call id btcusdtMinutes
        (oneRow (CandlesPath.binance "BTCUSDT").body lateRow) (some 1700000000000) 5) :=
  ((start_bounds_iff id (fun t => t.aggId) btcusdtMinutes 1700000000000 5 (by decide)
    (by decide)).1 (.binance "BTCUSDT")).mpr (Or.inl (by decide)) _
    (honest_oneRow (CandlesPath.rows_body _) lateRow)

/-- `?start=0&limit=5` returns a candle of November 2023 from a venue that honours its end. -/
theorem start_zero_returns_later :
    HonestVenue KlineReply.rows KlineRow.stamp
      (oneRow (CandlesPath.binance "BTCUSDT").body lateRow) ∧
    ¬ Bounded Candle.timestamp 0 ((CandlesPath.binance "BTCUSDT").call id btcusdtMinutes
      (oneRow (CandlesPath.binance "BTCUSDT").body lateRow) (some 0) 5) := by
  have hsized : btcusdtMinutes.Sized := by
    intro hinverse
    exact absurd hinverse (by decide)
  exact ⟨honest_oneRow (CandlesPath.rows_body _) lateRow,
    (CandlesPath.binance "BTCUSDT").call_zero id hsized trivial (by decide)⟩

end ExchangeRouter
