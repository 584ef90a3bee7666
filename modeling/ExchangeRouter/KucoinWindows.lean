import ExchangeRouter.Adapters
import ExchangeRouter.PagedReads

/-!
# The windows that KuCoin is asked for

Every upper bound is exclusive at the venue, so an adapter that wants the record at its anchor
asks one unit further. Spot candles are asked for in seconds; the end of an open-interest window is
rounded down to the period after the one was added.
-/

namespace ExchangeRouter
namespace Kucoin

/-! ## Intervals -/

/-- `_interval_to_ms`. -/
def intervalToMs (interval : String) : ℤ :=
  match interval.toList.getLast? with
  | none => 0
  | some unit =>
    match pyInt (String.ofList interval.toList.dropLast) with
    | none => 0
    | some val => val * (periodMs unit).getD 0

/-- `_map_spot_interval`, `none` where it raises. -/
def mapSpotInterval (interval : String) : Option String :=
  [("1m", "1min"), ("3m", "3min"), ("5m", "5min"), ("15m", "15min"), ("30m", "30min"),
    ("1h", "1hour"), ("2h", "2hour"), ("4h", "4hour"), ("6h", "6hour"), ("8h", "8hour"),
    ("12h", "12hour"), ("1d", "1day"), ("1w", "1week")].lookup interval

/-- `_map_futures_granularity`, `none` where it raises. -/
def mapFuturesGranularity (interval : String) : Option ℤ :=
  [("1m", 1), ("5m", 5), ("15m", 15), ("30m", 30), ("1h", 60), ("2h", 120), ("4h", 240),
    ("8h", 480), ("12h", 720), ("1d", 1440), ("1w", 10080)].lookup interval

/-- `_map_oi_interval`, `none` where it raises. -/
def mapOiInterval (period : String) : Option String :=
  [("5m", "5min"), ("15m", "15min"), ("30m", "30min"), ("1h", "1hour"), ("4h", "4hour"),
    ("1d", "1day")].lookup period

/-! ## The fetch functions -/

/-- The fetch functions that a window is asked for by. -/
inductive Fetch where
  | candlesSpot (interval : String)
  | candlesFutures (interval : String)
  | fundingRate
  | openInterest (period : String)
deriving DecidableEq, Repr

/-- The read that a fetch belongs to, `none` where the interval is not declared. -/
def Fetch.read (apiSymbol : String) (now : ℕ → ℤ) (startTime : Option ℤ) (limit : ℤ) :
    Fetch → Option PagedRead
  | .candlesSpot interval => (mapSpotInterval interval).map fun ktype =>
    getCandlesSpot apiSymbol ktype (intervalToMs interval) now startTime limit
  | .candlesFutures interval => (mapFuturesGranularity interval).map fun granularity =>
    getCandlesFutures apiSymbol granularity startTime limit
  | .fundingRate => some (getFundingRate apiSymbol now startTime limit)
  | .openInterest period => (mapOiInterval period).map fun interval =>
    getOpenInterest apiSymbol interval (intervalToMs period) now startTime limit

/-! ## The windows -/

/-- A bound of a window. -/
def bound (q : Query) (key : String) : Option ℤ :=
  match q.params.lookup key with
  | some (.int n) => some n
  | _ => none

/-- A record with time `t`, in milliseconds, is in the window: the end is exclusive, and a bound
that is not sent does not bound. -/
def Fetch.Contains (q : Query) (t : ℤ) : Fetch → Prop
  | .candlesSpot _ =>
    (∀ a, bound q "startAt" = some a → a * 1000 ≤ t) ∧ ∀ b, bound q "endAt" = some b → t < b * 1000
  | .candlesFutures _ => ∀ b, bound q "to" = some b → t < b
  | .fundingRate => (∀ a, bound q "from" = some a → a ≤ t) ∧ ∀ b, bound q "to" = some b → t < b
  | .openInterest _ =>
    (∀ a, bound q "startAt" = some a → a ≤ t) ∧ ∀ b, bound q "endAt" = some b → t < b

/-- The times that a record can have: a spot candle opens at a whole second, open interest is
recorded at the multiples of its period. -/
def Fetch.OnGrid (t : ℤ) : Fetch → Prop
  | .candlesSpot _ => 1000 ∣ t
  | .candlesFutures _ => True
  | .fundingRate => True
  | .openInterest period => intervalToMs period ∣ t

/-- The window includes its anchor and nothing later. -/
def Fetch.EndsAt (f : Fetch) (q : Query) (a : ℤ) : Prop :=
  (f.OnGrid a → f.Contains q a) ∧ ∀ t, f.OnGrid t → a < t → ¬ f.Contains q t

/-- An anchor that the rounding of `get_open_interest` takes out of its own window. -/
def Fetch.Rounded (f : Fetch) (a : ℤ) : Prop :=
  ∃ period, f = .openInterest period ∧ intervalToMs period ∣ a

/-! ## What each window holds -/

section

variable {apiSymbol : String} {now : ℕ → ℤ} {startTime endTs : Option ℤ} {limit l a : ℤ} {n : ℕ}

lemma endsAt_candlesSpot {interval ktype : String} {intervalMs : ℤ}
    (hanchor : anchor endTs startTime = some a) (hpos : 0 < a) :
    (Fetch.candlesSpot interval).EndsAt
      ((getCandlesSpot apiSymbol ktype intervalMs now startTime limit).query n ⟨endTs, l⟩) a := by
  have hstart : bound ((getCandlesSpot apiSymbol ktype intervalMs now startTime limit).query n
      ⟨endTs, l⟩) "startAt" = some (max (a / 1000 + 1 - max (intervalMs * l / 1000) 60) 0) := by
    show some (max ((anchor endTs startTime).getD (now n) / 1000 + 1 - _) 0) = _
    rw [hanchor]
    rfl
  have hend : bound ((getCandlesSpot apiSymbol ktype intervalMs now startTime limit).query n
      ⟨endTs, l⟩) "endAt" = some (a / 1000 + 1) := by
    show some ((anchor endTs startTime).getD (now n) / 1000 + 1) = _
    rw [hanchor]
    rfl
  constructor
  · rintro ⟨s, rfl⟩
    refine ⟨fun b hb => ?_, fun b hb => ?_⟩
    -- the window is a minute wide at least, so it begins ahead of the anchor
    · obtain rfl := Option.some.inj (hstart.symm.trans hb)
      omega
    · obtain rfl := Option.some.inj (hend.symm.trans hb)
      omega
  · rintro t ⟨s, rfl⟩ hlt ⟨-, hbefore⟩
    have hin := hbefore _ hend
    omega

lemma endsAt_candlesFutures {interval : String} {granularity : ℤ}
    (hanchor : anchor endTs startTime = some a) (hpos : 0 < a) :
    (Fetch.candlesFutures interval).EndsAt
      ((getCandlesFutures apiSymbol granularity startTime limit).query n ⟨endTs, l⟩) a := by
  have hto : bound ((getCandlesFutures apiSymbol granularity startTime limit).query n ⟨endTs, l⟩)
      "to" = some (a + 1) := by
    have hsent : ifAnchor (some a) (fun a => ("to", Param.int (a + 1))) =
        [("to", .int (a + 1))] := if_neg hpos.ne'
    unfold bound getCandlesFutures
    simp only [hanchor, hsent]
    rfl
  constructor
  · intro _ b hb
    obtain rfl := Option.some.inj (hto.symm.trans hb)
    omega
  · intro t _ hlt hin
    have hbefore := hin _ hto
    omega

lemma toMs_of_anchor (hanchor : anchor endTs startTime = some a) (hpos : 0 < a) (now : ℤ) :
    toMs (anchor endTs startTime) now = a + 1 := by
  rw [hanchor]
  exact if_neg hpos.ne'

lemma endsAt_fundingRate (hanchor : anchor endTs startTime = some a) (hpos : 0 < a) :
    Fetch.fundingRate.EndsAt
      ((getFundingRate apiSymbol now startTime limit).query n ⟨endTs, l⟩) a := by
  have hto := toMs_of_anchor hanchor hpos (now n)
  have hquery : (getFundingRate apiSymbol now startTime limit).query n ⟨endTs, l⟩ =
      { path := "/api/v1/contract/funding-rates"
        params := [("symbol", .text apiSymbol),
          ("from", .int (max (a + 1 - 8 * 60 * 60 * 1000 * 100) 0)), ("to", .int (a + 1))] } := by
    unfold getFundingRate
    simp only [hto]
  rw [hquery]
  constructor
  · intro _
    refine ⟨fun b hb => ?_, fun b hb => ?_⟩
    · obtain rfl := Option.some.inj hb
      omega
    · obtain rfl := Option.some.inj hb
      omega
  · rintro t - hlt ⟨-, hbefore⟩
    have hin : t < a + 1 := hbefore _ rfl
    omega

/-- The end of an open-interest window: the rounding undoes the one that was added exactly where
the anchor is a multiple of the period. -/
lemma rounded_end {p : ℤ} (hp : 1 < p) :
    (p ∣ a → a + 1 - (a + 1) % p = a) ∧ ∀ t, a < t → a + 1 - (a + 1) % p ≤ t := by
  constructor
  · rintro ⟨k, rfl⟩
    have hone : (p * k + 1) % p = 1 := by
      rw [Int.mul_add_emod_self_left]
      exact Int.emod_eq_of_lt (by omega) hp
    omega
  · intro t hlt
    have hnonneg : 0 ≤ (a + 1) % p := Int.emod_nonneg _ (by omega)
    omega

lemma endsAt_openInterest {period interval : String} (hperiod : 1 < intervalToMs period)
    (hanchor : anchor endTs startTime = some a) (hpos : 0 < a) :
    (Fetch.openInterest period).EndsAt
        ((getOpenInterest apiSymbol interval (intervalToMs period) now startTime limit).query n
          ⟨endTs, l⟩) a ↔
      ¬ intervalToMs period ∣ a := by
  have hto := toMs_of_anchor hanchor hpos (now n)
  have hend : bound ((getOpenInterest apiSymbol interval (intervalToMs period) now startTime
      limit).query n ⟨endTs, l⟩) "endAt" = some (a + 1 - (a + 1) % intervalToMs period) := by
    unfold getOpenInterest
    simp only [hto, if_neg (show intervalToMs period ≠ 0 by omega)]
    rfl
  obtain ⟨hdvd, hlater⟩ := rounded_end (a := a) hperiod
  constructor
  · rintro ⟨hin, -⟩ hgrid
    have hbefore := (hin hgrid).2 _ hend
    rw [hdvd hgrid] at hbefore
    exact lt_irrefl a hbefore
  · intro hoff
    refine ⟨fun hgrid => absurd hgrid hoff, ?_⟩
    rintro t - hlt ⟨-, hbefore⟩
    exact absurd (hbefore _ hend) (not_lt.mpr (hlater t hlt))

end

lemma period_of_mapOiInterval {period interval : String}
    (h : mapOiInterval period = some interval) : 1 < intervalToMs period := by
  have hall : ∀ entry ∈ [("5m", "5min"), ("15m", "15min"), ("30m", "30min"), ("1h", "1hour"),
      ("4h", "4hour"), ("1d", "1day")], 1 < intervalToMs entry.1 := by decide
  obtain ⟨before, after, heq, -⟩ := List.lookup_eq_some_iff.mp h
  exact hall (period, interval) (heq ▸ by simp)

/-- The window of a fetch includes its anchor and nothing later, unless it is an open-interest
window whose anchor is a multiple of the period. -/
theorem window_endsAt_anchor_iff {apiSymbol : String} {now : ℕ → ℤ} {startTime : Option ℤ}
    {limit : ℤ} {f : Fetch} {read : PagedRead}
    (hread : f.read apiSymbol now startTime limit = some read) (n : ℕ) (r : PageRequest) {a : ℤ}
    (hanchor : anchor r.endTs startTime = some a) (hpos : 0 < a) :
    f.EndsAt (read.query n r) a ↔ ¬ f.Rounded a := by
  obtain ⟨endTs, l⟩ := r
  cases f with
  | candlesSpot interval =>
    obtain ⟨ktype, -, rfl⟩ := Option.map_eq_some_iff.mp hread
    exact iff_of_true (endsAt_candlesSpot hanchor hpos) (by rintro ⟨p, hp, -⟩; cases hp)
  | candlesFutures interval =>
    obtain ⟨granularity, -, rfl⟩ := Option.map_eq_some_iff.mp hread
    exact iff_of_true (endsAt_candlesFutures hanchor hpos) (by rintro ⟨p, hp, -⟩; cases hp)
  | fundingRate =>
    obtain rfl := Option.some.inj hread
    exact iff_of_true (endsAt_fundingRate hanchor hpos) (by rintro ⟨p, hp, -⟩; cases hp)
  | openInterest period =>
    obtain ⟨interval, hinterval, rfl⟩ := Option.map_eq_some_iff.mp hread
    rw [endsAt_openInterest (period_of_mapOiInterval hinterval) hanchor hpos]
    exact not_congr ⟨fun hdvd => ⟨period, rfl, hdvd⟩, fun ⟨p, hp, hdvd⟩ => by cases hp; exact hdvd⟩

/-- The hourly open interest up to a start on the hour. -/
def hourlyFrom (start : ℤ) : PagedRead :=
  getOpenInterest "XBTUSDTM" "1hour" (intervalToMs "1h") (fun _ => 0) (some start) 30

lemma read_hourlyFrom (start : ℤ) :
    (Fetch.openInterest "1h").read "XBTUSDTM" (fun _ => 0) (some start) 30 =
      some (hourlyFrom start) := rfl

/-- The record at a start on the hour is not in the window. -/
theorem window_lacks_start_on_the_hour :
    (Fetch.openInterest "1h").OnGrid 7200000 ∧
      ¬ (Fetch.openInterest "1h").Contains ((hourlyFrom 7200000).query 0 ⟨none, 30⟩) 7200000 := by
  have hend : bound ((hourlyFrom 7200000).query 0 ⟨none, 30⟩) "endAt" = some 7200000 := by
    decide +kernel
  have hgrid : intervalToMs "1h" ∣ 7200000 := by decide +kernel
  exact ⟨hgrid, fun hin => lt_irrefl _ (hin.2 _ hend)⟩

theorem window_endsAt_anchor_iff_two_starts :
    ¬ (Fetch.openInterest "1h").EndsAt ((hourlyFrom 7200000).query 0 ⟨none, 30⟩) 7200000 ∧
      (Fetch.openInterest "1h").EndsAt ((hourlyFrom 7200001).query 0 ⟨none, 30⟩) 7200001 := by
  constructor
  · intro hends
    refine (window_endsAt_anchor_iff (read_hourlyFrom 7200000) 0 ⟨none, 30⟩ rfl (by decide)).mp
      hends ⟨"1h", rfl, ?_⟩
    decide +kernel
  · refine (window_endsAt_anchor_iff (read_hourlyFrom 7200001) 0 ⟨none, 30⟩ rfl (by decide)).mpr ?_
    rintro ⟨period, hperiod, hdvd⟩
    obtain rfl := Fetch.openInterest.inj hperiod
    exact absurd hdvd (by decide +kernel)

end Kucoin
end ExchangeRouter
