import ExchangeRouter.CandleHistories
import ExchangeRouter.StartBound

/-!
# Spot candles of KuCoin

The venue answers with the candles that opened in a window of seconds, and a market that idles has
none for a while. One request looks back over as many intervals as candles are asked for, a walk
over 1500 intervals from each of its anchors, so what is returned is complete as long as no gap of
the history is wider than the window that has to bridge it (`candlesSpot_exact_iff`).
-/

namespace ExchangeRouter

open Newest

namespace Kucoin

/-- The venue answers for a symbol and a candle type with every row that opened in the half-open
window, in any order. -/
def ServesSpot (venue : Venue KlineReply) (apiSymbol ktype : String) (rows : List KlineRow) :
    Prop :=
  ∀ n q (a b : ℤ), q.path = "/api/v1/market/candles" →
    q.params.lookup "symbol" = some (.text apiSymbol) →
    q.params.lookup "type" = some (.text ktype) → q.params.lookup "startAt" = some (.int a) →
    q.params.lookup "endAt" = some (.int b) →
    ∃ page, venue n q = .ok (.array page) ∧
      page.Perm (rows.filter fun r => a ≤ r.opens ∧ r.opens < b)

/-- What the venue, the clock and the arguments of a call are: full rows at different seconds,
and without a start none of them ahead of the clock. -/
structure SpotSetting (venue : Venue KlineReply) (apiSymbol ktype : String) (now : ℕ → ℤ)
    (startTime : Option ℤ) (rows : List KlineRow) : Prop where
  chronological : Chronological KlineRow.opens rows
  full : ∀ r ∈ rows, r.Full
  dated : ∀ r ∈ rows, ∃ t, r.ts = some t ∧ 0 < t ∧ t < 100000000000
  serves : ServesSpot venue apiSymbol ktype rows
  past : startTime = none → ∀ r ∈ rows, r.opens * 1000 ≤ now 0

/-- Where the first window ends. -/
def endOf (startTime : Option ℤ) (now : ℕ → ℤ) : ℤ := startTime.getD (now 0)

/-- The time from which on the window of `l` intervals before `t` has candles. -/
def windowStart (intervalMs l t : ℤ) : ℤ :=
  max (t / 1000 + 1 - max (intervalMs * l / 1000) 60) 0 * 1000

lemma windowStart_mono {intervalMs l a b : ℤ} (h : a ≤ b) :
    windowStart intervalMs l a ≤ windowStart intervalMs l b := by
  unfold windowStart
  have hdiv : a / 1000 ≤ b / 1000 := Int.ediv_le_ediv (by decide) h
  omega

/-- The candles of a history. -/
def spotCandles (m : Market) (rows : List KlineRow) : List Kline := rows.filterMap (readSpotRow m)

section

variable {m : Market} {venue : Venue KlineReply} {apiSymbol ktype : String} {now : ℕ → ℤ}
  {startTime : Option ℤ} {rows : List KlineRow}

namespace SpotSetting

variable (h : SpotSetting venue apiSymbol ktype now startTime rows)

include h

lemma readsAs : ReadsAs Candle.timestamp (fun r : KlineRow => r.opens * 1000) (readSpotRow m)
    rows := by
  intro r hr
  have hfull := h.full r hr
  have hwide := hfull.wide
  obtain ⟨t, ht, hpos, hsmall⟩ := h.dated r hr
  have hopens : r.opens = t := by simp [KlineRow.opens, ht]
  have hms : sToMs r.ts = r.opens * 1000 := by simp [sToMs, ht, hopens, hsmall]
  obtain ⟨open_, hopen⟩ := hfull.float (i := 1) (by omega) (by omega)
  obtain ⟨close, hclose⟩ := hfull.float (i := 2) (by omega) (by omega)
  obtain ⟨high, hhigh⟩ := hfull.float (i := 3) (by omega) (by omega)
  obtain ⟨low, hlow⟩ := hfull.float (i := 4) (by omega) (by omega)
  obtain ⟨native, hnative⟩ := hfull.float (i := 5) (by omega) (by omega)
  refine ⟨⟨r.opens * 1000, close, ⟨m.symbol, .spot, m.quote, m.interval, open_, high, low,
    ⟨native, .base, none, native * close, .close⟩⟩⟩, ?_, rfl⟩
  unfold readSpotRow
  rw [if_neg (by omega), hms]
  show (if r.opens * 1000 ≤ 0 then none else _) = _
  rw [if_neg (by omega), hclose, hopen, hhigh, hlow, hnative]
  rfl

lemma chronological_candles : Chronological Candle.timestamp (spotCandles m rows) := by
  apply h.readsAs.chronological
  refine h.chronological.imp ?_
  intro r r' hlt
  show r.opens * 1000 < r'.opens * 1000
  omega

lemma candles_pos : ∀ x ∈ spotCandles m rows, 0 < x.timestamp := by
  intro x hx
  obtain ⟨r, hr, -, hts⟩ := h.readsAs.mem hx
  obtain ⟨t, ht, hpos, -⟩ := h.dated r hr
  have hopens : r.opens = t := by simp [KlineRow.opens, ht]
  omega

/-- A page is the candles of its window. -/
lemma page (intervalMs limit l : ℤ) (endTs : Option ℤ) (n : ℕ) :
    fetchPage venue (parseSpotCandles m)
        (getCandlesSpot apiSymbol ktype intervalMs now startTime limit).query n ⟨endTs, l⟩ =
      .ok ((spotCandles m rows).filter fun x =>
        windowStart intervalMs l ((anchor endTs startTime).getD (now n)) ≤ x.timestamp ∧
          x.timestamp ≤ (anchor endTs startTime).getD (now n)) := by
  generalize hend : (anchor endTs startTime).getD (now n) = t
  obtain ⟨page, hreply, hperm⟩ := h.serves n
    ((getCandlesSpot apiSymbol ktype intervalMs now startTime limit).query n ⟨endTs, l⟩)
    (max (t / 1000 + 1 - max (intervalMs * l / 1000) 60) 0) (t / 1000 + 1) rfl rfl rfl
    (by rw [← hend]; rfl) (by rw [← hend]; rfl)
  -- in milliseconds the window is closed at its end
  have hwindow : (rows.filter fun r =>
      max (t / 1000 + 1 - max (intervalMs * l / 1000) 60) 0 ≤ r.opens ∧ r.opens < t / 1000 + 1) =
        rows.filter fun r => windowStart intervalMs l t ≤ r.opens * 1000 ∧ r.opens * 1000 ≤ t := by
    apply List.filter_congr
    intro r _
    rw [Bool.eq_iff_iff, decide_eq_true_iff, decide_eq_true_iff, windowStart]
    omega
  rw [hwindow] at hperm
  unfold fetchPage
  rw [hreply]
  show Except.ok (sortByTime Candle.timestamp (page.filterMap (readSpotRow m))) = _
  rw [spotCandles, h.readsAs.filter fun s => decide (windowStart intervalMs l t ≤ s ∧ s ≤ t)]
  congr 1
  apply Chronological.sort_of_perm _ (hperm.filterMap _)
  rw [← h.readsAs.filter fun s => decide (windowStart intervalMs l t ≤ s ∧ s ≤ t)]
  exact h.chronological_candles.sublist List.filter_sublist

/-- The candles that a call may return. -/
lemma upTo_eq : upTo Candle.timestamp startTime (spotCandles m rows) =
    (spotCandles m rows).filter fun x => x.timestamp ≤ endOf startTime now := by
  refine upTo_eq_filter fun hstart x hx => ?_
  obtain ⟨r, hr, -, hts⟩ := h.readsAs.mem hx
  exact hts.le.trans (h.past hstart r hr)

/-- The pages of the walk are windows over them. -/
lemma servesSince (intervalMs limit l : ℤ) :
    ServesSince Candle.timestamp (upTo Candle.timestamp startTime (spotCandles m rows))
      (fun endTs => windowStart intervalMs l (endTs.getD (endOf startTime now))) l
      (fetchPage venue (parseSpotCandles m)
        (getCandlesSpot apiSymbol ktype intervalMs now startTime limit).query) := by
  intro n endTs hsets
  refine ⟨_, h.page intervalMs limit l endTs n, ?_⟩
  have hanchor : (anchor endTs startTime).getD (now n) = endTs.getD (endOf startTime now) := by
    cases endTs with
    | none =>
      obtain rfl : n = 0 := hsets
      rfl
    | some a => rfl
  have hend : endTs.getD (endOf startTime now) ≤ endOf startTime now := by
    cases endTs with
    | none => exact le_refl _
    | some a =>
      obtain ⟨x, hx, rfl⟩ := hsets
      rw [h.upTo_eq] at hx
      exact of_decide_eq_true (List.mem_filter.mp hx).2
  rw [hanchor, h.upTo_eq]
  refine ⟨fun x hx => ?_, fun x hx hsince hbefore => ?_⟩
  · obtain ⟨hmem, hwindow⟩ := List.mem_filter.mp hx
    obtain ⟨hfrom, huntil⟩ := of_decide_eq_true hwindow
    refine ⟨List.mem_filter.mpr ⟨hmem, decide_eq_true (huntil.trans hend)⟩, hfrom, ?_⟩
    intro a ha
    rw [ha] at huntil
    exact huntil
  · obtain ⟨hmem, hle⟩ := List.mem_filter.mp hx
    refine List.mem_filter.mpr ⟨hmem, decide_eq_true ⟨hsince, ?_⟩⟩
    cases endTs with
    | none => exact of_decide_eq_true hle
    | some a => exact (hbefore a rfl).le

/-- One page for the whole call. -/
lemma single_iff {κ : Type*} [DecidableEq κ] (modelDumpJson : Kline → κ) (intervalMs : ℤ)
    (limit : ℕ) (hlimit : 1 ≤ limit) (hstart : startTime = none) (hfew : limit ≤ 1500) :
    (candlesSpotCall modelDumpJson m venue apiSymbol ktype intervalMs now startTime limit).result =
        .ok ((upTo Candle.timestamp startTime (spotCandles m rows)).rtake limit) ↔
      ∀ x ∈ (upTo Candle.timestamp startTime (spotCandles m rows)).rtake limit,
        windowStart intervalMs limit (endOf startTime now) ≤ x.timestamp := by
  have hsingle : (getCandlesSpot apiSymbol ktype intervalMs now startTime limit).paginates =
      false := by
    simp [getCandlesSpot, hstart, hfew]
  have hall : Chronological Candle.timestamp
      (upTo Candle.timestamp startTime (spotCandles m rows)) :=
    chronological_upTo h.chronological_candles startTime
  have hpage : (spotCandles m rows).filter (fun x =>
      windowStart intervalMs limit (endOf startTime now) ≤ x.timestamp ∧
        x.timestamp ≤ endOf startTime now) =
      (upTo Candle.timestamp startTime (spotCandles m rows)).filter fun x =>
        windowStart intervalMs limit (endOf startTime now) ≤ x.timestamp := by
    rw [h.upTo_eq, List.filter_filter]
    simp
  unfold candlesSpotCall PagedRead.call PagedRead.callWith
  rw [hsingle]
  show Except.map _ (fetchPage _ _ (getCandlesSpot apiSymbol ktype intervalMs now startTime
    limit).query 0 ⟨none, limit⟩) = _ ↔ _
  rw [h.page]
  show Except.ok (sliceTail ((spotCandles m rows).filter fun x =>
    windowStart intervalMs limit (endOf startTime now) ≤ x.timestamp ∧
      x.timestamp ≤ endOf startTime now) limit) = _ ↔ _
  rw [hpage, sliceTail, if_pos (by omega), Int.toNat_natCast, Except.ok.injEq,
    hall.filter_rtake_iff]
  · simp only [decide_eq_true_eq]
  · intro x y hlt hx
    exact decide_eq_true ((of_decide_eq_true hx).trans hlt.le)

/-- The walk for every other call. -/
lemma walk_iff {κ : Type*} [DecidableEq κ] {modelDumpJson : Kline → κ}
    (hdump : DumpsTime Candle.timestamp modelDumpJson) (intervalMs : ℤ) {limit : ℕ}
    (hlimit : 1 ≤ limit) (hmore : ¬ (startTime = none ∧ limit ≤ 1500))
    (hcap : ¬ (pageRun Candle.timestamp modelDumpJson (fetchPage venue (parseSpotCandles m)
      (getCandlesSpot apiSymbol ktype intervalMs now startTime limit).query)
        limit 1500).1.truncated limit) :
    (candlesSpotCall modelDumpJson m venue apiSymbol ktype intervalMs now startTime limit).result =
        .ok ((upTo Candle.timestamp startTime (spotCandles m rows)).rtake limit) ↔
      ∀ x ∈ (upTo Candle.timestamp startTime (spotCandles m rows)).rtake limit,
        windowStart intervalMs 1500 (endOf startTime now) ≤ x.timestamp ∨
          ∃ y ∈ upTo Candle.timestamp startTime (spotCandles m rows),
            x.timestamp < y.timestamp ∧
              windowStart intervalMs 1500 y.timestamp ≤ x.timestamp := by
  have hwalks : (getCandlesSpot apiSymbol ktype intervalMs now startTime limit).paginates =
      true := by
    rw [not_and_or, not_le] at hmore
    rcases hmore with hstart | hmany
    · obtain ⟨s, hs⟩ := Option.ne_none_iff_exists'.mp hstart
      simp [getCandlesSpot, hs]
    · simp [getCandlesSpot, hmany]
  have hpos : ∀ x ∈ upTo Candle.timestamp startTime (spotCandles m rows), 0 < x.timestamp :=
    fun x hx => h.candles_pos x (mem_upTo.mp hx).1
  unfold candlesSpotCall PagedRead.call PagedRead.callWith
  rw [hwalks]
  exact paginateBackwards_windows hlimit (chronological_upTo h.chronological_candles startTime)
    hpos hdump (fun a b hab => windowStart_mono hab) (h.servesSince intervalMs limit 1500) hcap

end SpotSetting

/-- The window of the call's first page reaches the candle, or the window of 1500 intervals that
ends at a newer candle does, where the call walks on. -/
def InReach (all : List Kline) (intervalMs : ℤ) (now : ℕ → ℤ) (startTime : Option ℤ) (limit : ℕ)
    (x : Kline) : Prop :=
  if startTime = none ∧ limit ≤ 1500 then
    windowStart intervalMs limit (endOf startTime now) ≤ x.timestamp
  else
    windowStart intervalMs 1500 (endOf startTime now) ≤ x.timestamp ∨
      ∃ y ∈ all, x.timestamp < y.timestamp ∧
        windowStart intervalMs 1500 y.timestamp ≤ x.timestamp

/-- A call that the cap does not end returns the newest candles at or before its start exactly
when each of them is in reach. -/
theorem candlesSpot_exact_iff {κ : Type*} [DecidableEq κ] {modelDumpJson : Kline → κ}
    (h : SpotSetting venue apiSymbol ktype now startTime rows)
    (hdump : DumpsTime Candle.timestamp modelDumpJson) (intervalMs : ℤ) {limit : ℕ}
    (hlimit : 1 ≤ limit)
    (hcap : ¬ (startTime = none ∧ limit ≤ 1500) →
      ¬ (pageRun Candle.timestamp modelDumpJson (fetchPage venue (parseSpotCandles m)
        (getCandlesSpot apiSymbol ktype intervalMs now startTime limit).query)
          limit 1500).1.truncated limit) :
    (candlesSpotCall modelDumpJson m venue apiSymbol ktype intervalMs now startTime limit).result =
        .ok ((upTo Candle.timestamp startTime (spotCandles m rows)).rtake limit) ↔
      ∀ x ∈ (upTo Candle.timestamp startTime (spotCandles m rows)).rtake limit,
        InReach (upTo Candle.timestamp startTime (spotCandles m rows)) intervalMs now startTime
          limit x := by
  unfold InReach
  by_cases hsingle : startTime = none ∧ limit ≤ 1500
  · simp only [if_pos hsingle]
    exact h.single_iff modelDumpJson intervalMs limit hlimit hsingle.1 hsingle.2
  · simp only [if_neg hsingle]
    exact h.walk_iff hdump intervalMs hlimit hsingle (hcap hsingle)

end

/-! ## A market that idles -/

/-- Two candles ten minutes apart. -/
def idleRows : List KlineRow :=
  [⟨some 1700000000, [some 1, some 1, some 1, some 1, some 1]⟩,
    ⟨some 1700000600, [some 2, some 2, some 2, some 2, some 2]⟩]

/-- A venue that holds these rows, oldest first. -/
def serveSpot (rows : List KlineRow) : Venue KlineReply := fun _ q =>
  match q.params.lookup "startAt", q.params.lookup "endAt" with
  | some (.int a), some (.int b) => .ok (.array (rows.filter fun r => a ≤ r.opens ∧ r.opens < b))
  | _, _ => .ok (.array [])

/-- Minutes of a spot pair. -/
def kcsUsdt : Market := ⟨"KCS-USDT", .spot, "USDT", "1m", none⟩

lemma setting_idleRows (startTime : Option ℤ) :
    SpotSetting (serveSpot idleRows) "KCS-USDT" "1min" (fun _ => 1700000630000) startTime
      idleRows where
  chronological := by simp [Chronological, idleRows, KlineRow.opens]
  full := by
    intro r hr
    simp only [idleRows, List.mem_cons, List.not_mem_nil, or_false] at hr
    rcases hr with rfl | rfl <;> exact ⟨by decide, by simp⟩
  dated := by
    intro r hr
    simp only [idleRows, List.mem_cons, List.not_mem_nil, or_false] at hr
    rcases hr with rfl | rfl <;> exact ⟨_, rfl, by decide, by decide⟩
  serves := by
    intro n q a b _ _ _ hstart hend
    exact ⟨_, by simp only [serveSpot, hstart, hend], List.Perm.refl _⟩
  past := fun _ => by decide

/-- Two candles of one minute are asked for, and one page looks back over two minutes. -/
theorem candlesSpot_misses_idle :
    SpotSetting (serveSpot idleRows) "KCS-USDT" "1min" (fun _ => 1700000630000) none idleRows ∧
      (candlesSpotCall id kcsUsdt (serveSpot idleRows) "KCS-USDT" "1min" 60000
          (fun _ => 1700000630000) none 2).result ≠
        .ok ((upTo Candle.timestamp none (spotCandles kcsUsdt idleRows)).rtake 2) := by
  have hsetting := setting_idleRows none
  refine ⟨hsetting, fun hexact => ?_⟩
  have hreach := (hsetting.single_iff id 60000 2 (by decide) rfl (by decide)).mp hexact
  exact absurd hreach (by decide)

/-- With a start the same two candles are bridged. -/
theorem candlesSpot_exact_iff_bridged :
    (candlesSpotCall id kcsUsdt (serveSpot idleRows) "KCS-USDT" "1min" 60000
        (fun _ => 1700000630000) (some 1700000600000) (2 : ℕ)).result =
      .ok ((upTo Candle.timestamp (some 1700000600000) (spotCandles kcsUsdt idleRows)).rtake 2) := by
  have hdump : DumpsTime Candle.timestamp (id : Kline → Kline) := fun _ _ heq => congrArg _ heq
  refine (candlesSpot_exact_iff (setting_idleRows _) hdump 60000 (by decide)
    fun _ => not_truncated_of_le _ _ (by decide)).mpr ?_
  unfold InReach
  decide

end Kucoin

end ExchangeRouter
