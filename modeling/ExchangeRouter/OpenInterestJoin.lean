import ExchangeRouter.FetchTheorems
import ExchangeRouter.Lib.Chronological
import ExchangeRouter.Lib.Fallible
import Mathlib.Tactic.Linarith
import Mathlib.Tactic.Ring

/-!
# The candle join of open interest

A row of a linear market is stamped with the close of its bucket, a candle with its opening, so a
row gets the close of the candle that opened one period before it. The last candle is still
forming and is left out.
-/

namespace ExchangeRouter

open Newest

section

variable {J : Type}

/-! ## Rows -/

/-- `close` and `close_ts` are set together or not at all, as the model's validator has it. -/
def UsdBasis.Paired : UsdBasis → Prop
  | .contractSize => True
  | .candleClose close closeTs => close.isSome = closeTs.isSome

/-- A row of a linear market: in units of the base, without a contract size. -/
structure OpenInterest.Linear (row : OpenInterest J) : Prop where
  unit : row.openInterest.unit = .base
  contractSize : row.openInterest.contractSize = none
  paired : row.openInterest.usdBasis.Paired

/-- The row with its notional at a close. -/
def OpenInterest.withClose (row : OpenInterest J) (close : ℚ) : OpenInterest J :=
  { row with
    openInterest :=
      { row.openInterest with
        usd := some (row.openInterest.native * close)
        usdBasis := .candleClose (some close) (some row.timestamp) } }

/-- All of a row but its notional and how it was computed. -/
def OpenInterest.kept (row : OpenInterest J) : ℚ × QtyUnit × Option ℚ × ℤ × J :=
  (row.openInterest.native, row.openInterest.unit, row.openInterest.contractSize, row.timestamp,
    row.json)

lemma OpenInterest.Linear.withClose {row : OpenInterest J} (h : row.Linear) (close : ℚ) :
    (row.withClose close).Linear :=
  ⟨h.unit, h.contractSize, rfl⟩

/-! ## One row -/

/-- `period_ms`: without a period that can be read, the distance of the first two candles. -/
def joinWidth (period : String) : List (Candle J) → ℤ
  | first :: second :: _ => (periodToMs period).getD (second.timestamp - first.timestamp)
  | _ => 0

/-- A row has the close of the candle that opened a period before it, if there is one that is not
the last, and is as it was otherwise. -/
def Joined (candles : List (Candle J)) (width : ℤ) (row row' : OpenInterest J) : Prop :=
  (∀ c ∈ candles.dropLast, c.timestamp = row.timestamp - width → row' = row.withClose c.close) ∧
    ((∀ c ∈ candles.dropLast, c.timestamp ≠ row.timestamp - width) → row' = row)

lemma closeAt_of_mem {candles : List (Candle J)} (hchrono : Chronological Candle.timestamp candles)
    {width ts : ℤ} {c : Candle J} (hc : c ∈ candles.dropLast) (hts : c.timestamp = ts - width) :
    closeAt candles width ts = some c.close := by
  unfold closeAt
  have hsome : (candles.dropLast.reverse.find? fun c =>
      decide (c.timestamp + width = ts)).isSome :=
    List.find?_isSome.mpr ⟨c, List.mem_reverse.mpr hc, decide_eq_true (by omega)⟩
  obtain ⟨d, hd⟩ := Option.isSome_iff_exists.mp hsome
  have hmem : d ∈ candles.dropLast := List.mem_reverse.mp (List.mem_of_find?_eq_some hd)
  have htime : d.timestamp + width = ts := by simpa using List.find?_some hd
  -- times are distinct, so the candle that the dictionary keeps is this one
  have heq : d = c :=
    (hchrono.sublist (List.dropLast_sublist candles)).eq_of_time hmem hc (by omega)
  rw [hd, heq, Option.map_some]

lemma closeAt_eq_none {candles : List (Candle J)} {width ts : ℤ}
    (hnone : ∀ c ∈ candles.dropLast, c.timestamp ≠ ts - width) :
    closeAt candles width ts = none := by
  unfold closeAt
  rw [Option.map_eq_none_iff, List.find?_eq_none]
  intro c hc hts
  have htime : c.timestamp + width = ts := of_decide_eq_true hts
  exact hnone c (List.mem_reverse.mp hc) (by omega)

lemma joinRow_of_close {candles : List (Candle J)} {width : ℤ} {row : OpenInterest J}
    (hlinear : row.Linear) {close : ℚ} (hclose : closeAt candles width row.timestamp = some close) :
    joinRow candles width row = .ok (row.withClose close) := by
  obtain ⟨⟨native, unit, size, usd, basis⟩, ts, json⟩ := row
  obtain rfl : unit = .base := hlinear.unit
  obtain rfl : size = none := hlinear.contractSize
  unfold joinRow
  rw [hclose]
  rfl

lemma joinRow_of_none {candles : List (Candle J)} {width : ℤ} {row : OpenInterest J}
    (hclose : closeAt candles width row.timestamp = none) :
    joinRow candles width row = .ok row := by
  unfold joinRow
  rw [hclose]

/-- What the body of the loop makes of a linear row. -/
lemma joinRow_linear {candles : List (Candle J)}
    (hchrono : Chronological Candle.timestamp candles) (width : ℤ) {row : OpenInterest J}
    (hlinear : row.Linear) :
    ∃ row', joinRow candles width row = .ok row' ∧ Joined candles width row row' ∧ row'.Linear ∧
      row'.kept = row.kept := by
  by_cases hcandle : ∃ c ∈ candles.dropLast, c.timestamp = row.timestamp - width
  · obtain ⟨c, hc, hts⟩ := hcandle
    have hclose := closeAt_of_mem hchrono hc hts
    refine ⟨_, joinRow_of_close hlinear hclose, ⟨?_, ?_⟩, hlinear.withClose _, rfl⟩
    · intro d hd hts'
      have hclose' := closeAt_of_mem hchrono hd hts'
      rw [Option.some.inj (hclose.symm.trans hclose')]
    · exact fun hnone => absurd hts (hnone c hc)
  · have hnone : ∀ c ∈ candles.dropLast, c.timestamp ≠ row.timestamp - width :=
      fun c hc hts => hcandle ⟨c, hc, hts⟩
    refine ⟨row, joinRow_of_none (closeAt_eq_none hnone), ⟨?_, fun _ => rfl⟩, hlinear, rfl⟩
    exact fun c hc hts => absurd hts (hnone c hc)

/-! ## All rows -/

/-- The join is row by row. -/
lemma mapM_joinRow {candles : List (Candle J)}
    (hchrono : Chronological Candle.timestamp candles) (width : ℤ) {rows : List (OpenInterest J)}
    (hlinear : ∀ row ∈ rows, row.Linear) :
    ∃ joined, rows.mapM (joinRow candles width) = .ok joined ∧
      List.Forall₂ (fun row row' => Joined candles width row row' ∧ row'.Linear ∧
        row'.kept = row.kept) rows joined := by
  obtain ⟨joined, hjoined, hall⟩ := Fallible.exists_mapM <| List.forall₂_same.mpr fun row hrow =>
    joinRow_linear hchrono width (hlinear row hrow)
  exact ⟨joined, hjoined, hall.flip⟩

section

variable {adapter : Adapter J} {symbol period : String} {startTime : Option ℤ} {limit : ℤ}
  {rows : List (OpenInterest J)} {candles : List (Candle J)}

lemma join_of_error {e : Fault}
    (hfetch : adapter.getCandles .linear symbol period startTime (limit + 1) = .error e) :
    joinOpenInterestBasis adapter .linear symbol period startTime limit rows = .ok rows := by
  unfold joinOpenInterestBasis
  rw [hfetch]
  split
  · rfl
  · rfl

lemma join_of_short
    (hfetch : adapter.getCandles .linear symbol period startTime (limit + 1) = .ok candles)
    (hshort : candles.length < 2) :
    joinOpenInterestBasis adapter .linear symbol period startTime limit rows = .ok rows := by
  unfold joinOpenInterestBasis
  rw [hfetch]
  split
  · rfl
  · match candles, hshort with
    | [], _ => rfl
    | [c], _ => rfl

lemma join_of_candles
    (hfetch : adapter.getCandles .linear symbol period startTime (limit + 1) = .ok candles)
    (hlong : 2 ≤ candles.length) :
    joinOpenInterestBasis adapter .linear symbol period startTime limit rows =
      rows.mapM (joinRow candles (joinWidth period candles)) := by
  unfold joinOpenInterestBasis
  rw [hfetch]
  split
  · next hnone =>
    obtain hspot | rfl := hnone
    · exact absurd rfl hspot
    · rfl
  · match candles, hlong with
    | first :: second :: rest, _ => rfl

end

lemma joinWidth_eq {period : String} {p : ℤ} (hperiod : periodToMs period = some p)
    {candles : List (Candle J)} (hlong : 2 ≤ candles.length) : joinWidth period candles = p := by
  match candles, hlong with
  | first :: second :: rest, _ =>
    unfold joinWidth
    rw [hperiod]
    rfl

/-! ## Rows and candles of one grid -/

/-- The last point at or before `start` of the grid of width `p` through `origin`. -/
def lastPoint (origin p start : ℤ) : ℤ := origin + (start - origin) / p * p

/-- The candles open at the last `n` points at or before `start`. -/
def OpensAtLast (origin p start : ℤ) (n : ℕ) (candles : List (Candle J)) : Prop :=
  candles.map Candle.timestamp =
    (List.range n).map fun i : ℕ => lastPoint origin p start - ((n : ℤ) - 1 - i) * p

/-- The row is stamped at one of the last `n` points at or before `start`. -/
def StampedAtLast (origin p start : ℤ) (n : ℕ) (row : OpenInterest J) : Prop :=
  ∃ k : ℕ, k < n ∧ row.timestamp = lastPoint origin p start - k * p

section

variable {origin p start : ℤ} {n : ℕ} {candles : List (Candle J)} {row : OpenInterest J}

lemma OpensAtLast.length (h : OpensAtLast origin p start n candles) : candles.length = n := by
  have hlen := congrArg List.length h
  rw [List.length_map, List.length_map, List.length_range] at hlen
  exact hlen

lemma OpensAtLast.chronological (h : OpensAtLast origin p start n candles) (hp : 0 < p) :
    Chronological Candle.timestamp candles := by
  unfold Chronological
  rw [← List.pairwise_map (f := Candle.timestamp) (R := (· < ·)), h, List.pairwise_map]
  refine List.pairwise_lt_range.imp ?_
  intro i j hij
  have hlt : (i : ℤ) < j := by exact_mod_cast hij
  nlinarith

/-- The candle that closes with the row is among the last `n + 1`, and not the last of them. -/
lemma OpensAtLast.opens_before (h : OpensAtLast origin p start (n + 1) candles)
    (hrow : StampedAtLast origin p start n row) :
    ∃ c ∈ candles.dropLast, c.timestamp = row.timestamp - p := by
  obtain ⟨k, hk, hts⟩ := hrow
  have hdrop : candles.dropLast.map Candle.timestamp =
      (List.range n).map fun i : ℕ => lastPoint origin p start - (((n + 1 : ℕ) : ℤ) - 1 - i) * p := by
    rw [List.map_dropLast, h, List.range_succ, List.map_append, List.map_singleton,
      List.dropLast_concat]
  have hmem : row.timestamp - p ∈ candles.dropLast.map Candle.timestamp := by
    rw [hdrop]
    refine List.mem_map.mpr ⟨n - 1 - k, List.mem_range.mpr (by omega), ?_⟩
    have hindex : ((n - 1 - k : ℕ) : ℤ) = (n : ℤ) - 1 - k := by omega
    rw [hindex, hts]
    push_cast
    ring
  exact List.mem_map.mp hmem

end

/-- The join of linear rows is exact: nothing but the notional of a row changes, and that exactly
where a candle closes with the row. Candles over the last `n + 1` points of a grid fill every row
that is stamped at one of the last `n`. -/
theorem joinOpenInterestBasis_exact (adapter : Adapter J) (symbol period : String)
    (startTime : Option ℤ) (limit : ℤ) {rows : List (OpenInterest J)}
    (hlinear : ∀ row ∈ rows, row.Linear) :
    (∀ e, adapter.getCandles .linear symbol period startTime (limit + 1) = .error e →
      joinOpenInterestBasis adapter .linear symbol period startTime limit rows = .ok rows) ∧
    ∀ candles, adapter.getCandles .linear symbol period startTime (limit + 1) = .ok candles →
      (candles.length < 2 →
        joinOpenInterestBasis adapter .linear symbol period startTime limit rows = .ok rows) ∧
      (2 ≤ candles.length → Chronological Candle.timestamp candles →
        ∃ joined,
          joinOpenInterestBasis adapter .linear symbol period startTime limit rows = .ok joined ∧
          List.Forall₂ (fun row row' => Joined candles (joinWidth period candles) row row' ∧
            row'.kept = row.kept ∧ row'.openInterest.usdBasis.Paired) rows joined) ∧
      ∀ (origin p start : ℤ) (n : ℕ), limit = n → 0 < p → periodToMs period = some p →
        OpensAtLast origin p start (n + 1) candles →
        (∀ row ∈ rows, StampedAtLast origin p start n row) →
        ∃ joined,
          joinOpenInterestBasis adapter .linear symbol period startTime limit rows = .ok joined ∧
          List.Forall₂ (fun row row' => ∃ c ∈ candles, c.timestamp + p = row.timestamp ∧
            row' = row.withClose c.close) rows joined := by
  refine ⟨fun e he => join_of_error he, fun candles hfetch => ⟨join_of_short hfetch, ?_, ?_⟩⟩
  · intro hlong hchrono
    obtain ⟨joined, hjoined, hall⟩ := mapM_joinRow hchrono (joinWidth period candles) hlinear
    refine ⟨joined, (join_of_candles hfetch hlong).trans hjoined, hall.imp ?_⟩
    rintro row row' ⟨hjoin, hrow', hkept⟩
    exact ⟨hjoin, hkept, hrow'.paired⟩
  · rintro origin p start n rfl hp hperiod hopens hstamped
    have hchrono := hopens.chronological hp
    obtain ⟨joined, hjoined, hall⟩ := mapM_joinRow hchrono p hlinear
    refine ⟨joined, ?_, ?_⟩
    · cases rows with
      -- without rows there may be one candle only, and nothing to join
      | nil => exact hjoined
      | cons row rest =>
        obtain ⟨k, hk, -⟩ := hstamped row List.mem_cons_self
        have hlong : 2 ≤ candles.length := by
          rw [hopens.length]
          omega
        rw [join_of_candles hfetch hlong, joinWidth_eq hperiod hlong]
        exact hjoined
    · refine List.forall₂_iff_zip.mpr ⟨hall.length_eq, fun {row row'} hzip => ?_⟩
      have hjoin := ((List.forall₂_iff_zip.mp hall).2 hzip).1
      obtain ⟨c, hc, hts⟩ := hopens.opens_before (hstamped row (List.of_mem_zip hzip).1)
      exact ⟨c, (List.dropLast_sublist candles).subset hc, by omega, hjoin.1 c hc hts⟩

end

/-! ## Hourly rows -/

/-- The last `n` hours at or before `start`, each with the number of the hour it closes at. -/
def hourlyCandles (start : ℤ) (n : ℕ) : List (Candle ℕ) :=
  (List.range n).map fun i : ℕ =>
    let opens := lastPoint 0 3600000 start - ((n : ℤ) - 1 - i) * 3600000
    ⟨opens, opens / 3600000 + 1, 0⟩

/-- A venue whose hourly candles have no gap. -/
def hourlyVenue : Adapter ℕ :=
  { fakeExchange with
    getCandles := fun _ _ _ start limit => .ok (hourlyCandles (start.getD 0) limit.toNat) }

lemma opensAtLast_hourlyCandles (start : ℤ) (n : ℕ) :
    OpensAtLast 0 3600000 start n (hourlyCandles start n) := by
  unfold OpensAtLast hourlyCandles
  rw [List.map_map]
  rfl

/-- A row of two units that has no notional yet. -/
def hourlyRow (hour : ℤ) : OpenInterest ℕ :=
  ⟨⟨2, .base, none, none, .candleClose none none⟩, hour * 3600000, 0⟩

lemma linear_hourlyRow (hour : ℤ) : (hourlyRow hour).Linear := ⟨rfl, rfl, rfl⟩

/-- Two rows that end an hour before the newest candle: the older one stays empty. -/
theorem joinOpenInterestBasis_rows_behind :
    hourlyVenue.getCandles .linear "BTCUSDT" "1h" (some 36000000) (2 + 1) =
        .ok (hourlyCandles 36000000 3) ∧
      OpensAtLast 0 3600000 36000000 3 (hourlyCandles 36000000 3) ∧
      joinOpenInterestBasis hourlyVenue .linear "BTCUSDT" "1h" (some 36000000) 2
        [hourlyRow 8, hourlyRow 9] = .ok [hourlyRow 8, (hourlyRow 9).withClose 9] ∧
      (hourlyRow 8).openInterest.usd = none := by
  refine ⟨rfl, opensAtLast_hourlyCandles _ _, ?_, rfl⟩
  have hlong : 2 ≤ (hourlyCandles 36000000 3).length := by decide
  have hwidth : joinWidth "1h" (hourlyCandles 36000000 3) = 3600000 :=
    joinWidth_eq (by decide +kernel) hlong
  have hempty : closeAt (hourlyCandles 36000000 3) 3600000 (hourlyRow 8).timestamp = none := by
    decide +kernel
  have hclose : closeAt (hourlyCandles 36000000 3) 3600000 (hourlyRow 9).timestamp = some 9 := by
    decide +kernel
  rw [join_of_candles rfl hlong, hwidth, List.mapM_cons, joinRow_of_none hempty, List.mapM_cons,
    joinRow_of_close (linear_hourlyRow 9) hclose]
  rfl

theorem joinOpenInterestBasis_exact_two_rows :
    ∃ joined, joinOpenInterestBasis hourlyVenue .linear "BTCUSDT" "1h" (some 36000000) 2
        [hourlyRow 9, hourlyRow 10] = .ok joined ∧
      List.Forall₂ (fun row row' => ∃ c ∈ hourlyCandles 36000000 3,
        c.timestamp + 3600000 = row.timestamp ∧ row' = row.withClose c.close)
        [hourlyRow 9, hourlyRow 10] joined := by
  have hlinear : ∀ row ∈ [hourlyRow 9, hourlyRow 10], row.Linear := by
    intro row hrow
    simp only [List.mem_cons, List.not_mem_nil, or_false] at hrow
    rcases hrow with rfl | rfl
    · exact linear_hourlyRow 9
    · exact linear_hourlyRow 10
  refine ((joinOpenInterestBasis_exact hourlyVenue "BTCUSDT" "1h" (some 36000000) 2 hlinear).2 _
    rfl).2.2 0 3600000 36000000 2 rfl (by decide) (by decide +kernel)
    (opensAtLast_hourlyCandles _ _) ?_
  intro row hrow
  simp only [List.mem_cons, List.not_mem_nil, or_false] at hrow
  rcases hrow with rfl | rfl
  · exact ⟨1, by decide, by decide +kernel⟩
  · exact ⟨0, by decide, by decide +kernel⟩

end ExchangeRouter
