import ExchangeRouter.Klines
import ExchangeRouter.Lib.Fallible

/-!
# What is read from a reply

`ParsesRows` for each of the adapters that hand their pages to a walk: a record carries the time
of a row of the reply, and none is read on an inverse market whose contract size is not known.
-/

namespace ExchangeRouter

open Fallible Newest

/-! ## Rows and their times -/

/-- The time of a row, where it has one. -/
def KlineRow.stamp (r : KlineRow) : Option ℤ := normalizeTimestamp r.ts

/-- The rows of a reply, wherever they stand in it. -/
def KlineReply.rows : KlineReply → List KlineRow
  | array rows => rows
  | object entries => entries.flatMap fun e => e.2.getD []

/-- The time of an aggregate trade's row. -/
def Binance.AggRow.stamp (r : Binance.AggRow) : Option ℤ := normalizeTimestamp r.time

/-- The contract size that an inverse market needs is known. Without it no row of the market can
be read. -/
def Market.Sized (m : Market) : Prop := m.marketType = .inverse → m.contractSize ≠ none

/-! ## Reading a row -/

lemma KlineRow.time_ok {r : KlineRow} {t : ℤ} (h : r.time = .ok t) : r.stamp = some t := by
  unfold KlineRow.time at h
  unfold KlineRow.stamp
  split at h
  · next ts hts => rw [hts, Except.ok.inj h]
  · exact absurd h (by simp)

/-- Without the size that its unit needs no volume is built. -/
lemma buildVolumeValue_sized {m : Market} {native close : ℚ} {v : VolumeValue}
    (h : buildVolumeValue native m.unit m.contractSize close = .ok v) : m.Sized := by
  intro hinverse hnone
  have hunit : m.unit = .contract := if_pos hinverse
  rw [hunit, hnone] at h
  exact absurd h (by simp [buildVolumeValue])

/-- A candle has the time it is given, and its market is sized. -/
lemma Market.candle_ok {m : Market} {volumeAt : ℕ} {r : KlineRow} {ts : ℤ} {close : ℚ} {c : Kline}
    (h : m.candle volumeAt r ts close = .ok c) : m.Sized ∧ c.timestamp = ts := by
  obtain ⟨open_, -, h⟩ := bind_ok h
  obtain ⟨high, -, h⟩ := bind_ok h
  obtain ⟨low, -, h⟩ := bind_ok h
  obtain ⟨native, -, h⟩ := bind_ok h
  obtain ⟨volume, hvolume, h⟩ := bind_ok h
  have hsized := buildVolumeValue_sized hvolume
  rw [← Except.ok.inj h]
  exact ⟨hsized, rfl⟩

/-- The record was read from that row. -/
structure Reads {α β : Type*} (m : Market) (stamp : β → Option ℤ) (timestamp : α → ℤ) (r : β)
    (c : α) : Prop where
  sized : m.Sized
  stamp_eq : stamp r = some (timestamp c)

lemma Market.readRow_ok {m : Market} {volumeAt : ℕ} {r : KlineRow} {c : Kline}
    (h : m.readRow volumeAt r = .ok c) : Reads m KlineRow.stamp Candle.timestamp r c := by
  obtain ⟨close, -, h⟩ := bind_ok h
  obtain ⟨ts, hts, h⟩ := bind_ok h
  obtain ⟨hsized, hstamp⟩ := Market.candle_ok h
  exact ⟨hsized, hstamp ▸ KlineRow.time_ok hts⟩

lemma Binance.readAggTrade_ok {m : Market} {r : AggRow} {t : AggTrade}
    (h : readAggTrade m r = .ok t) : Reads m AggRow.stamp AggTrade.timestamp r t := by
  obtain ⟨price, -, h⟩ := bind_ok h
  obtain ⟨native, -, h⟩ := bind_ok h
  obtain ⟨qty, hqty, h⟩ := bind_ok h
  obtain ⟨ts, hts, h⟩ := bind_ok h
  have hsized : m.Sized := by
    intro hinverse hnone
    have hunit : m.unit = .contract := if_pos hinverse
    simp [qtyValue, hunit, hnone, buildQtyValue] at hqty
  rw [← Except.ok.inj h]
  exact ⟨hsized, KlineRow.time_ok hts⟩

/-- `readRow` of OKX reads candles after the epoch only. -/
lemma Okx.readRow_some {m : Market} {r : KlineRow} {c : Kline} (h : readRow m r = some c) :
    Reads m KlineRow.stamp Candle.timestamp r c ∧ 0 < c.timestamp := by
  unfold readRow at h
  split at h
  · exact absurd h (by simp)
  split at h
  · exact absurd h (by simp)
  next ts hts =>
  split at h
  · exact absurd h (by simp)
  next hpos =>
  obtain ⟨close, -, hclose⟩ := bind_ok (toOption_some h)
  obtain ⟨hsized, hstamp⟩ := Market.candle_ok hclose
  refine ⟨⟨hsized, hstamp ▸ KlineRow.time_ok hts⟩, ?_⟩
  omega

/-- No whole number of seconds or of milliseconds is read as the first millisecond. -/
lemma normalizeTimestamp_ne_one (ts : Option ℤ) : normalizeTimestamp ts ≠ some 1 := by
  cases ts with
  | none => simp [normalizeTimestamp]
  | some t =>
    simp only [normalizeTimestamp, Option.map_some, ne_eq, Option.some.injEq]
    split <;> omega

/-! ## Reading a reply -/

/-- Every record was read from a row of the reply. -/
def ParsesRows {ρ α β : Type*} (m : Market) (rows : ρ → List β) (stamp : β → Option ℤ)
    (timestamp : α → ℤ) (parse : ρ → Except Fault (List α)) : Prop :=
  ∀ reply cs, parse reply = .ok cs → ∀ c ∈ cs, ∃ r ∈ rows reply, Reads m stamp timestamp r c

/-- A value of a dictionary is one of its values. -/
lemma mem_of_lookup {α β : Type*} [BEq α] {entries : List (α × β)} {key : α} {v : β}
    (h : entries.lookup key = some v) : ∃ k, (k, v) ∈ entries := by
  induction entries with
  | nil => exact absurd h (by simp)
  | cons e entries ih =>
    rw [List.lookup_cons] at h
    split at h
    · exact ⟨e.1, by rw [← Option.some.inj h]; exact List.mem_cons_self⟩
    · obtain ⟨k, hk⟩ := ih h
      exact ⟨k, List.mem_cons_of_mem _ hk⟩

/-- The rows under a key of an object are rows of the reply. -/
lemma KlineReply.rows_of_mem {entries : List (String × Option (List KlineRow))} {key : String}
    {rs : List KlineRow} (h : (key, some rs) ∈ entries) :
    rs ⊆ (KlineReply.object entries).rows := by
  intro r hr
  apply List.mem_flatMap.mpr
  exact ⟨_, h, hr⟩

lemma Binance.parsesRows_candles (m : Market) :
    ParsesRows m KlineReply.rows KlineRow.stamp Candle.timestamp (parseCandles m) := by
  intro reply cs hcs c hc
  cases reply with
  | array rs =>
    obtain ⟨r, hr, hread⟩ := mem_of_mapM_ok hcs c hc
    exact ⟨r, hr, Market.readRow_ok hread⟩
  | object entries =>
    cases entries with
    | nil =>
      rw [← Except.ok.inj hcs] at hc
      exact absurd hc List.not_mem_nil
    | cons e entries => exact absurd hcs (by simp [parseCandles])

lemma Binance.parsesRows_aggTrades (m : Market) :
    ParsesRows m id AggRow.stamp AggTrade.timestamp (parseAggTrades m) := by
  intro reply cs hcs c hc
  obtain ⟨r, hr, hread⟩ := mem_of_mapM_ok hcs c hc
  exact ⟨r, hr, readAggTrade_ok hread⟩

lemma Bybit.parsesRows (m : Market) :
    ParsesRows m KlineReply.rows KlineRow.stamp Candle.timestamp (parseCandles m) := by
  intro reply cs hcs c hc
  cases reply with
  | array rs => exact absurd hcs (by simp [parseCandles])
  | object entries =>
    unfold parseCandles at hcs
    dsimp only at hcs
    split at hcs
    · exact absurd hcs (by simp)
    · rw [← Except.ok.inj hcs] at hc
      exact absurd hc List.not_mem_nil
    · next rs hrs =>
      obtain ⟨key, hkey⟩ := mem_of_lookup hrs
      cases hread : rs.mapM (m.readRow 5) with
      | error e => simp [hread, Except.map] at hcs
      | ok parsed =>
        simp only [hread, Except.map, Except.ok.injEq] at hcs
        have hmem : c ∈ parsed := by
          rw [← hcs] at hc
          exact (mem_sortByTime _).mp hc
        obtain ⟨r, hr, hr'⟩ := mem_of_mapM_ok hread c hmem
        exact ⟨r, KlineReply.rows_of_mem hkey hr, Market.readRow_ok hr'⟩

/-- What OKX reads has a time after the first millisecond. -/
lemma Okx.parseCandles_ok {m : Market} {reply : KlineReply} {cs : List Kline}
    (h : parseCandles m reply = .ok cs) : ∀ c ∈ cs,
      1 < c.timestamp ∧ ∃ r ∈ reply.rows, Reads m KlineRow.stamp Candle.timestamp r c := by
  intro c hc
  cases reply with
  | array rs =>
    rw [← Except.ok.inj h] at hc
    obtain ⟨r, hr, hread⟩ := List.mem_filterMap.mp ((mem_sortByTime _).mp hc)
    obtain ⟨hreads, hpos⟩ := readRow_some hread
    have hone : c.timestamp ≠ 1 := by
      intro hone
      have hstamp := hreads.stamp_eq
      rw [hone] at hstamp
      exact normalizeTimestamp_ne_one r.ts hstamp
    exact ⟨by omega, r, hr, hreads⟩
  | object entries =>
    rw [← Except.ok.inj h] at hc
    exact absurd hc List.not_mem_nil

end ExchangeRouter
