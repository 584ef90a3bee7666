import ExchangeRouter.KlinesTheorems
import ExchangeRouter.PaginateExactTheorems

/-!
# Candle histories

The rows that a venue holds, and what an adapter makes of them. A row is full when every cell
that a candle is read from is there and is a number. On a sized market a full row is read, and
one that is dated in milliseconds is read as a candle of its own time.
-/

namespace ExchangeRouter

open Newest

/-- The time of a row, in the unit of the venue. -/
def KlineRow.opens (r : KlineRow) : ℤ := r.ts.getD 0

/-- At least the five cells after the time, each of them a number. -/
structure KlineRow.Full (r : KlineRow) : Prop where
  wide : 5 ≤ r.cells.length
  numbers : ∀ x ∈ r.cells, x ≠ none

/-- A time in milliseconds that `normalize_timestamp` leaves as it is, one after 1973. -/
def KlineRow.Dated (r : KlineRow) : Prop := ∃ t, r.ts = some t ∧ 100000000000 ≤ t

lemma KlineRow.Full.float {r : KlineRow} (h : r.Full) {i : ℕ} (hone : 1 ≤ i)
    (hle : i ≤ r.cells.length) : ∃ x, r.float i = .ok x := by
  have hlt : i - 1 < r.cells.length := by omega
  have hget := List.getElem?_eq_getElem hlt
  obtain ⟨x, hx⟩ := Option.ne_none_iff_exists'.mp (h.numbers _ (List.getElem_mem hlt))
  refine ⟨x, ?_⟩
  unfold KlineRow.float
  rw [hget, hx]

lemma KlineRow.Dated.time {r : KlineRow} (h : r.Dated) : r.time = .ok r.opens := by
  obtain ⟨t, ht, hlarge⟩ := h
  have hkeep : normalizeTimestamp r.ts = some r.opens := by
    simp [normalizeTimestamp, KlineRow.opens, ht, not_lt.mpr hlarge]
  simp [KlineRow.time, hkeep]

lemma KlineRow.Dated.le_opens {r : KlineRow} (h : r.Dated) : 100000000000 ≤ r.opens := by
  obtain ⟨t, ht, hlarge⟩ := h
  have hopens : r.opens = t := by simp [KlineRow.opens, ht]
  omega

/-- A sized market has a volume for every quantity. -/
lemma Market.Sized.volume {m : Market} (h : m.Sized) (native close : ℚ) :
    ∃ v, buildVolumeValue native m.unit m.contractSize close = .ok v := by
  unfold Market.unit MarketType.qtyUnit
  by_cases hinverse : m.marketType = .inverse
  · obtain ⟨size, hsize⟩ := Option.ne_none_iff_exists'.mp (h hinverse)
    rw [if_pos hinverse, hsize]
    exact ⟨_, rfl⟩
  · rw [if_neg hinverse]
    exact ⟨_, rfl⟩

/-- A full row has a candle at any time. -/
lemma Market.Sized.candle {m : Market} (h : m.Sized) {r : KlineRow} (hfull : r.Full)
    {volumeAt : ℕ} (hone : 1 ≤ volumeAt) (hle : volumeAt ≤ r.cells.length) (ts : ℤ) (close : ℚ) :
    ∃ c, m.candle volumeAt r ts close = .ok c ∧ c.timestamp = ts := by
  have hwide := hfull.wide
  obtain ⟨open_, hopen⟩ := hfull.float le_rfl (by omega)
  obtain ⟨high, hhigh⟩ := hfull.float (i := 2) (by omega) (by omega)
  obtain ⟨low, hlow⟩ := hfull.float (i := 3) (by omega) (by omega)
  obtain ⟨native, hnative⟩ := hfull.float hone hle
  obtain ⟨volume, hvolume⟩ := h.volume native close
  have hcandle : m.candle volumeAt r ts close = .ok
      ⟨ts, close, ⟨m.symbol, m.marketType, m.quote, m.interval, open_, high, low, volume⟩⟩ := by
    unfold Market.candle
    rw [hopen, hhigh, hlow, hnative]
    show (buildVolumeValue native m.unit m.contractSize close).bind _ = _
    rw [hvolume]
    rfl
  exact ⟨_, hcandle, rfl⟩

end ExchangeRouter
