import ExchangeRouter.KrakenAnalytics
import ExchangeRouter.Lib.Chronological
import ExchangeRouter.Lib.Fallible
import Mathlib.Data.List.ReduceOption
import Mathlib.Tactic.Linarith

/-!
# What the analytics of Kraken futures return

A reply in any of the three shapes is read as the same points (`extract_encoded`). Where the venue
has a point in every interval, the window of a request holds the newest `limit` of them, and the
last lines cut exactly these out.
-/

namespace ExchangeRouter
namespace KrakenAnalytics

open BybitTicker (Raised Texts)
open Fallible (mapM_ok)
open MakeRequest (Json PyFloat)
open Newest (Chronological Ascending UpperPart sortByTime)

/-! ## Points and their shapes -/

/-- A point of a chart, under a number of seconds. -/
structure Point where
  time : ℤ
  value : ℚ
deriving DecidableEq

/-- A number of seconds that `normalize_timestamp` takes for one, and a thousand of which it does
not: from 1973 on. -/
def Point.Dated (p : Point) : Prop := 100000000 ≤ p.time ∧ p.time < 100000000000

/-- A row of `data` that ends in the value, or is it. -/
def IsRow (row : Json) (p : Point) : Prop :=
  row = .num p.value ∨ ∃ before, row = .arr (before ++ [.num p.value])

/-- A reply that holds the points, in one of its three shapes. -/
inductive Encodes (field : String) (data : Json) (ps : List Point) : Prop where
  | candles (cs : List Json) (hne : ps ≠ []) (hcandles : data.item? "candles" = some (.arr cs))
      (hpoints : List.Forall₂ (fun c p => c.item? field = some (.num p.value) ∧
        c.item? "time" = some (.num p.time)) cs ps)
  | rows (res : List (String × Json)) (rows : List Json) (hcandles : data.item? "candles" = none)
      (hresult : data.item? "result" = some (.obj res))
      (htimes : (Json.obj res).item? "timestamp" = some (.arr (ps.map fun p => .num p.time)))
      (hdata : (Json.obj res).item? "data" = some (.arr rows))
      (hpoints : List.Forall₂ IsRow rows ps)
  | columns (res payload : List (String × Json)) (hcandles : data.item? "candles" = none)
      (hresult : data.item? "result" = some (.obj res))
      (htimes : (Json.obj res).item? "timestamp" = some (.arr (ps.map fun p => .num p.time)))
      (hdata : (Json.obj res).item? "data" = some (.obj payload))
      (hvalues : (Json.obj payload).item? field = some (.arr (ps.map fun p => .num p.value)))

/-- An element is read as the point. -/
def Reads (texts : Texts) (e : Element) (p : Point) : Prop :=
  e.value.toFloat texts = .ok (.finite p.value) ∧
    BybitTicker.normalizeTimestamp texts e.time = .ok (p.time * 1000)

lemma trunc_mul (n : ℤ) (hn : 0 ≤ n) : BybitTicker.trunc ((n : ℚ) * 1000) = n * 1000 := by
  have hmul : (n : ℚ) * 1000 = ((n * 1000 : ℤ) : ℚ) := by push_cast; rfl
  have hpos : (0 : ℚ) ≤ ((n * 1000 : ℤ) : ℚ) := by exact_mod_cast (by omega : (0 : ℤ) ≤ n * 1000)
  unfold BybitTicker.trunc
  rw [hmul, if_pos hpos, Rat.floor_intCast]

lemma normalizeTimestamp_seconds (texts : Texts) {p : Point} (hp : p.Dated) :
    BybitTicker.normalizeTimestamp texts (.num p.time) = .ok (p.time * 1000) := by
  have hlt : (p.time : ℚ) < 100000000000 := by exact_mod_cast hp.2
  have hpos : 0 ≤ p.time := by
    have := hp.1
    omega
  show Except.ok (if (p.time : ℚ) < 100000000000 then BybitTicker.trunc (p.time * 1000)
    else BybitTicker.trunc p.time) = _
  rw [if_pos hlt, trunc_mul _ hpos]

lemma normalizeTimestamp_thousandfold (texts : Texts) {p : Point} (hp : p.Dated) :
    BybitTicker.normalizeTimestamp texts (.num (p.time * 1000)) = .ok (p.time * 1000) := by
  have hge : (100000000 : ℚ) ≤ p.time := by exact_mod_cast hp.1
  have hpos : 0 ≤ p.time := by
    have := hp.1
    omega
  show Except.ok (if (p.time : ℚ) * 1000 < 100000000000 then
    BybitTicker.trunc ((p.time : ℚ) * 1000 * 1000) else BybitTicker.trunc ((p.time : ℚ) * 1000)) = _
  rw [if_neg (by linarith), trunc_mul _ hpos]

/-! ## `_extract_analytics` of a shape -/

lemma rowValue_of_isRow {row : Json} {p : Point} (h : IsRow row p) : rowValue row = .num p.value := by
  rcases h with rfl | ⟨before, rfl⟩
  · rfl
  · unfold rowValue
    simp only [List.getLast?_append, List.getLast?_singleton, Option.some_or, Option.getD_some]

/-- A loop that appends at every entry. -/
lemma appended_map {α : Type} {f : α → Except Raised (Option Element)} {xs : List α}
    {elements : List Element} (h : List.Forall₂ (fun x e => f x = .ok (some e)) xs elements) :
    appended (xs.mapM f) = .ok elements := by
  have hall : xs.mapM f = .ok (elements.map some) := by
    apply Fallible.mapM_forall₂
    rw [List.forall₂_map_right_iff]
    exact h
  rw [hall]
  show Except.ok (List.reduceOption (elements.map some)) = _
  rw [List.reduceOption, List.filterMap_map]
  exact congrArg Except.ok List.filterMap_some

lemma candles_elements {field : String} {cs : List Json} {ps : List Point}
    (h : List.Forall₂ (fun c p => c.item? field = some (.num p.value) ∧
      c.item? "time" = some (.num p.time)) cs ps) :
    appended (cs.mapM (candleElement field)) =
      .ok (ps.map fun p => ⟨.num (p.time * 1000), .json (.num p.value)⟩) := by
  apply appended_map
  rw [List.forall₂_map_right_iff]
  refine h.imp fun c p hc => ?_
  unfold candleElement
  rw [hc.1, hc.2]
  rfl

lemma rows_elements (texts : Texts) {rows : List Json} {ps : List Point}
    (h : List.Forall₂ IsRow rows ps) :
    appended (((ps.map fun p => Json.num p.time).zip rows).mapM (rowElement texts)) =
      .ok (ps.map fun p => ⟨.num p.time, .float (.finite p.value)⟩) := by
  apply appended_map
  rw [List.forall₂_map_right_iff]
  induction h with
  | nil => exact .nil
  | cons hrow _ ih =>
    refine .cons ?_ ih
    unfold rowElement
    simp only [rowValue_of_isRow hrow]
    rfl

lemma columns_elements (ps : List Point) :
    ((((ps.map fun p => Json.num p.time).zip (ps.map fun p => Json.num p.value)).filter
      fun e => !isNone e.2).map fun e => Element.mk e.1 (.json e.2)) =
      ps.map fun p => ⟨.num p.time, .json (.num p.value)⟩ := by
  induction ps with
  | nil => rfl
  | cons p ps ih => exact congrArg (List.cons _) ih

/-- A reply in any of its shapes is read as its points. -/
lemma extract_encoded (texts : Texts) {field : String} {data : Json} {ps : List Point}
    (h : Encodes field data ps) (hdated : ∀ p ∈ ps, p.Dated) :
    ∃ elements, extractAnalytics texts data field = .ok elements ∧
      List.Forall₂ (Reads texts) elements ps := by
  cases h with
  | candles cs hne hcandles hpoints =>
    refine ⟨ps.map fun p => ⟨.num (p.time * 1000), .json (.num p.value)⟩, ?_, ?_⟩
    · have hsome : (ps.map fun p =>
          Element.mk (.num (p.time * 1000)) (.json (.num p.value))).isEmpty = false := by
        simpa using hne
      unfold extractAnalytics
      simp only [hcandles, candles_elements hpoints]
      show (if List.isEmpty _ = true then _ else _) = _
      rw [if_neg (by rw [hsome]; decide)]
    · rw [List.forall₂_map_left_iff, List.forall₂_same]
      exact fun p hp => ⟨rfl, normalizeTimestamp_thousandfold texts (hdated p hp)⟩
  | rows res rows hcandles hresult htimes hdata hpoints =>
    refine ⟨ps.map fun p => ⟨.num p.time, .float (.finite p.value)⟩, ?_, ?_⟩
    · unfold extractAnalytics
      simp only [hcandles, hresult]
      show resultElements texts field (.obj res) = _
      unfold resultElements
      simp only [htimes, hdata]
      exact rows_elements texts hpoints
    · rw [List.forall₂_map_left_iff, List.forall₂_same]
      exact fun p hp => ⟨rfl, normalizeTimestamp_seconds texts (hdated p hp)⟩
  | columns res payload hcandles hresult htimes hdata hvalues =>
    refine ⟨ps.map fun p => ⟨.num p.time, .json (.num p.value)⟩, ?_, ?_⟩
    · unfold extractAnalytics
      simp only [hcandles, hresult]
      show resultElements texts field (.obj res) = _
      unfold resultElements
      simp only [htimes, hdata, hvalues]
      exact congrArg Except.ok (columns_elements ps)
    · rw [List.forall₂_map_left_iff, List.forall₂_same]
      exact fun p hp => ⟨rfl, normalizeTimestamp_seconds texts (hdated p hp)⟩

/-! ## The cut -/

/-- What of a history is at or before the start, where there is one. -/
def atOrBefore {α : Type} (time : α → ℤ) (startTime : Option ℤ) (history : List α) : List α :=
  match startTime with
  | none => history
  | some s => if s = 0 then history else history.filter fun x => decide (time x ≤ s)

/-- The start may be applied before the records are made. -/
lemma atOrBefore_map {α β : Type} {f : α → β} {time : β → ℤ} (startTime : Option ℤ)
    (history : List α) :
    atOrBefore time startTime (history.map f) =
      (atOrBefore (fun x => time (f x)) startTime history).map f := by
  cases startTime with
  | none => rfl
  | some s =>
    unfold atOrBefore
    dsimp only
    split
    · rfl
    · rw [List.filter_map]
      rfl

lemma atOrBefore_filter {α : Type} (time : α → ℤ) (startTime : Option ℤ) (q : α → Bool)
    (history : List α) :
    atOrBefore time startTime (history.filter q) = (atOrBefore time startTime history).filter q := by
  cases startTime with
  | none => rfl
  | some s =>
    unfold atOrBefore
    dsimp only
    split
    · rfl
    · exact List.filter_comm _ _ _

lemma atOrBefore_sublist {α : Type} (time : α → ℤ) (startTime : Option ℤ) (history : List α) :
    (atOrBefore time startTime history).Sublist history := by
  cases startTime with
  | none => exact List.Sublist.refl _
  | some s =>
    unfold atOrBefore
    dsimp only
    split
    · exact List.Sublist.refl _
    · exact List.filter_sublist

/-- The cut of records of a history, in whatever order they were read. -/
lemma cut_perm {α β : Type} {f : α → β} {time : β → ℤ} {history : List α}
    (horder : Chronological (fun x => time (f x)) history) {results : List β}
    (hperm : results.Perm (history.map f)) (startTime : Option ℤ) {limit : ℕ} (hlimit : 1 ≤ limit) :
    cut time startTime limit results =
      ((atOrBefore (fun x => time (f x)) startTime history).rtake limit).map f := by
  have hmap : Chronological time (history.map f) := List.pairwise_map.mpr horder
  have hcut : cut time startTime limit results =
      sliceTail (atOrBefore time startTime (sortByTime time results)) limit := by
    unfold cut atOrBefore
    cases startTime <;> rfl
  have htail : ∀ xs : List β, sliceTail xs limit = xs.rtake limit := by
    intro xs
    rw [sliceTail, if_pos (by omega), Int.toNat_natCast]
  rw [hcut, htail, hmap.sort_of_perm hperm, atOrBefore_map, List.rtake, List.rtake, List.map_drop,
    List.length_map]

/-! ## The window -/

/-- The points at or before the start. -/
def pointsUpTo (startTime : Option ℤ) (history : List Point) : List Point :=
  atOrBefore (fun p => p.time * 1000) startTime history

/-- The points that a request with that `since` is answered with. -/
def pointsSince (since : ℤ) (history : List Point) : List Point :=
  history.filter fun p => decide (since ≤ p.time)

/-- A chart that has a point in every interval, up to less than one before the anchor. -/
structure Regular (history : List Point) (startTime : Option ℤ) (anchor interval : ℤ) : Prop where
  order : Chronological Point.time history
  dated : ∀ p ∈ history, p.Dated
  gaps : (pointsUpTo startTime history).IsChain fun p q => q.time ≤ p.time + interval
  reaches : ∀ p ∈ (pointsUpTo startTime history).getLast?, anchor < p.time + interval

/-- The window of `limit` intervals before the anchor has the newest `limit` points. -/
lemma Regular.window {history : List Point} {startTime : Option ℤ} {anchor interval : ℤ}
    (h : Regular history startTime anchor interval) (hinterval : 0 ≤ interval) (limit : ℕ) :
    (pointsUpTo startTime (pointsSince (max 0 (anchor - limit * interval)) history)).rtake limit =
      (pointsUpTo startTime history).rtake limit := by
  have hsub : (pointsUpTo startTime history).Sublist history := atOrBefore_sublist _ _ _
  have horder := h.order.sublist hsub
  have hpart : UpperPart Point.time (pointsUpTo startTime history)
      (pointsSince (max 0 (anchor - limit * interval)) (pointsUpTo startTime history)) := by
    refine horder.upperPart_filter fun p q hlt hp => ?_
    simp only [decide_eq_true_eq] at hp ⊢
    omega
  have hsorted : Chronological Point.time
      (pointsSince (max 0 (anchor - limit * interval)) (pointsUpTo startTime history)) :=
    horder.sublist List.filter_sublist
  have htail := (hpart.rtake_eq_iff horder limit).mpr ?_
  · rw [hsorted.ascending.sort_eq] at htail
    rw [← htail]
    exact congrArg (List.rtake · limit) (atOrBefore_filter _ _ _ _)
  · intro p hp
    have hmem := List.mem_of_mem_drop hp
    have hwithin := Newest.rtake_within hinterval h.gaps h.reaches limit p hp
    have hdated := (h.dated p (hsub.subset hmem)).1
    refine List.mem_filter.mpr ⟨hmem, decide_eq_true ?_⟩
    omega

/-! ## The reads -/

/-- A venue that answers every request with the points of its window, in any order and any of the
three shapes. -/
def Serves (field : String) (history : List Point) (venue : ℤ → ℤ → Except Raised Json) : Prop :=
  ∀ interval since, ∃ data ps, venue interval since = .ok data ∧ Encodes field data ps ∧
    ps.Perm (pointsSince since history)

lemma intervals_nonneg {period : String} {interval : ℤ}
    (h : analyticsIntervals.lookup period = some interval) : 0 ≤ interval := by
  have hall : ∀ e ∈ analyticsIntervals, 0 ≤ e.2 := by decide
  obtain ⟨before, after, hsplit, -⟩ := List.lookup_eq_some_iff.mp h
  exact hall (period, interval) (by rw [hsplit]; simp)

/-- Where every value makes a record, the read returns those of the newest `limit` points. -/
lemma getAnalytics_newest {α : Type} (texts : Texts) {field : String} {make : Make α} {time : α → ℤ}
    {recordOf : Point → α} (hmake : ∀ p, ∃ build, make (.finite p.value) = .ok build ∧
      build (p.time * 1000) = recordOf p) (htime : ∀ p, time (recordOf p) = p.time * 1000)
    {m : Market} (hspot : m.marketType ≠ .spot) {interval : ℤ}
    (hinterval : analyticsIntervals.lookup m.period = some interval) {nowSecs : ℤ}
    {startTime : Option ℤ} {history : List Point} {venue : ℤ → ℤ → Except Raised Json}
    (hregular : Regular history startTime (Kraken.anchorSecsOf startTime nowSecs) interval)
    (hserves : Serves field history venue) {limit : ℕ} (hlimit : 1 ≤ limit) :
    getAnalytics texts field make time venue m nowSecs startTime limit =
      .ok (((pointsUpTo startTime history).rtake limit).map recordOf) := by
  obtain ⟨data, ps, hdata, hencodes, hperm⟩ := hserves interval
    (max 0 (Kraken.anchorSecsOf startTime nowSecs - limit * interval))
  have hdated : ∀ p ∈ ps, p.Dated := fun p hp =>
    hregular.dated p (List.mem_filter.mp (hperm.mem_iff.mp hp)).1
  obtain ⟨elements, hextract, hreads⟩ := extract_encoded texts hencodes hdated
  have hrecords : elements.mapM (record texts make) = .ok (ps.map recordOf) := by
    apply Fallible.mapM_forall₂
    rw [List.forall₂_map_right_iff]
    refine hreads.imp fun e p he => ?_
    obtain ⟨build, hbuild, hrecord⟩ := hmake p
    unfold record
    rw [he.1]
    show (make (.finite p.value)).bind _ = _
    rw [hbuild]
    show (BybitTicker.normalizeTimestamp texts e.time).bind _ = _
    rw [he.2, ← hrecord]
    rfl
  have horder : Chronological (fun p => time (recordOf p))
      (pointsSince (max 0 (Kraken.anchorSecsOf startTime nowSecs - limit * interval)) history) := by
    refine (hregular.order.sublist List.filter_sublist).imp fun {p q} hlt => ?_
    show time (recordOf p) < time (recordOf q)
    rw [htime, htime]
    omega
  unfold getAnalytics
  rw [if_neg hspot, hinterval]
  show (venue _ _).bind _ = _
  rw [hdata]
  show (extractAnalytics texts data field).bind _ = _
  rw [hextract]
  show (elements.mapM (record texts make)).bind _ = _
  rw [hrecords]
  show Except.ok (cut time startTime limit (ps.map recordOf)) = _
  rw [cut_perm horder (hperm.map recordOf) startTime hlimit]
  simp only [htime]
  exact congrArg (fun xs => Except.ok (xs.map recordOf))
    (hregular.window (intervals_nonneg hinterval) limit)

/-- The record of a point. -/
def openInterestOf (m : Market) (p : Point) : OpenInterest :=
  match m.marketType.qtyUnit, m.contractSize with
  | .contract, some size => ⟨m.symbol, m.marketType, m.quote, m.period, .finite p.value, .contract,
      some size, some (.finite (p.value * size)), p.time * 1000⟩
  | _, _ => ⟨m.symbol, m.marketType, m.quote, m.period, .finite p.value, .base, none, none,
      p.time * 1000⟩

/-- A point a minute. -/
def minutes : List Point := [⟨100000000, 5⟩, ⟨100000060, 7⟩, ⟨100000120, 9⟩]

/-- A venue that lists its columns newest first. -/
def newestFirst (since : ℤ) : List Point := (pointsSince since minutes).reverse

/-- A reply with one field. -/
def columnsOf (field : String) (ps : List Point) : Json :=
  .obj [("result", .obj [("timestamp", .arr (ps.map fun p => .num p.time)),
    ("data", .obj [(field, .arr (ps.map fun p => .num p.value))])])]

/-- The reply is read as its points. -/
lemma columnsOf_encodes {field : String} (ps : List Point) :
    Encodes field (columnsOf field ps) ps := by
  refine .columns _ _ rfl rfl rfl rfl ?_
  simp [Json.item?]

lemma minutes_regular : Regular minutes (some 100000100000) 100000100 60 where
  order := by unfold minutes; simp [Chronological]
  dated := by unfold minutes Point.Dated; simp
  gaps := by
    have hup : pointsUpTo (some 100000100000) minutes = [⟨100000000, 5⟩, ⟨100000060, 7⟩] := by decide
    rw [hup]
    simp
  reaches := by
    have hup : pointsUpTo (some 100000100000) minutes = [⟨100000000, 5⟩, ⟨100000060, 7⟩] := by decide
    rw [hup]
    simp

/-- The record of a point of the ratio. -/
def longShortRatioOf (m : Market) (p : Point) : LongShortRatio :=
  ⟨m.symbol, m.marketType, m.period, .finite p.value, p.time * 1000⟩

/-- The same of `get_long_short_ratio`. -/
theorem long_short_ratio_newest (texts : Texts) (m : Market) (hspot : m.marketType ≠ .spot)
    (interval : ℤ) (hinterval : analyticsIntervals.lookup m.period = some interval) (nowSecs : ℤ)
    (startTime : Option ℤ) (history : List Point) (venue : ℤ → ℤ → Except Raised Json)
    (hregular : Regular history startTime (Kraken.anchorSecsOf startTime nowSecs) interval)
    (hserves : Serves "ratio" history venue) (limit : ℕ) (hlimit : 1 ≤ limit) :
    getLongShortRatio texts venue m nowSecs startTime limit =
      .ok (((pointsUpTo startTime history).rtake limit).map (longShortRatioOf m)) :=
  getAnalytics_newest texts (fun _ => ⟨_, rfl, rfl⟩) (fun _ => rfl) hspot hinterval hregular hserves
    hlimit

/-! ## Funding -/

/-- A settlement, under a number of milliseconds. -/
structure Settled where
  time : ℤ
  rate : ℚ
deriving DecidableEq

/-- An entry of `rates` that is read as the settlement. -/
structure IsRate (texts : Texts) (r : Json) (p : Settled) : Prop where
  time : (get r "timestamp" .null).bind (BybitTicker.normalizeTimestamp texts) = .ok p.time
  rate : (get r "relativeFundingRate" (.num 0)).bind (BybitTicker.float texts) =
    .ok (.finite p.rate)

/-- The record of a settlement. -/
def fundingRateOf (m : Market) (p : Settled) : FundingRate :=
  ⟨m.symbol, m.marketType, m.quote, .finite p.rate, p.time⟩

/-- Whether the start leaves a settlement in. -/
def upToStart (startTime : Option ℤ) (p : Settled) : Bool :=
  !startTime.any fun s => decide (s ≠ 0 ∧ s < p.time)

lemma atOrBefore_eq_filter (startTime : Option ℤ) (history : List Settled) :
    atOrBefore Settled.time startTime history = history.filter (upToStart startTime) := by
  cases startTime with
  | none => exact (List.filter_eq_self.mpr fun _ _ => rfl).symm
  | some s =>
    unfold atOrBefore
    dsimp only
    split
    · next hzero => exact (List.filter_eq_self.mpr fun p _ => by simp [upToStart, hzero]).symm
    · next hne =>
      refine List.filter_congr fun p _ => ?_
      rw [Bool.eq_iff_iff]
      simp [upToStart, hne]

/-- An entry of `rates` gives the record of its settlement, unless the start leaves it out. -/
lemma fundingRate_isRate {texts : Texts} {r : Json} {p : Settled} (h : IsRate texts r p)
    (m : Market) (startTime : Option ℤ) :
    fundingRate texts m startTime r =
      .ok (if upToStart startTime p then some (fundingRateOf m p) else none) := by
  unfold fundingRate
  rw [h.time]
  show (if startTime.any _ = true then _ else _) = _
  cases hafter : startTime.any fun s => decide (s ≠ 0 ∧ s < p.time) with
  | true =>
    have hout : upToStart startTime p = false := by
      rw [upToStart, hafter]
      rfl
    rw [if_pos rfl, hout]
    rfl
  | false =>
    simp only [upToStart, hafter, Bool.false_eq_true, if_false, Bool.not_false, if_true]
    rw [h.rate]
    rfl

/-- What is chosen, without the gaps of the rest. -/
lemma reduceOption_chosen {α β : Type} (q : α → Bool) (f : α → β) (xs : List α) :
    (xs.map fun x => if q x then some (f x) else none).reduceOption = (xs.filter q).map f := by
  induction xs with
  | nil => rfl
  | cons x xs ih =>
    rw [List.map_cons]
    by_cases hx : q x = true
    · rw [if_pos hx, List.reduceOption_cons_of_some, ih, List.filter_cons_of_pos hx, List.map_cons]
    · rw [if_neg hx, List.reduceOption_cons_of_none, ih, List.filter_cons_of_neg hx]

/-- `get_funding_rate` on futures returns the newest `limit` settlements at or before the start, in
time order, in whatever order the venue lists them. -/
theorem funding_rate_newest (texts : Texts) (m : Market) (hspot : m.marketType ≠ .spot)
    (startTime : Option ℤ) (history : List Settled) (horder : Chronological Settled.time history)
    (data : Json) (rates : List Json) (ps : List Settled)
    (hdata : get data "rates" (.arr []) = .ok (.arr rates))
    (hrates : List.Forall₂ (IsRate texts) rates ps) (hperm : ps.Perm history) (limit : ℕ)
    (hlimit : 1 ≤ limit) :
    getFundingRate texts (.ok data) m startTime limit =
      .ok (((atOrBefore Settled.time startTime history).rtake limit).map (fundingRateOf m)) := by
  have hread : rates.mapM (fundingRate texts m startTime) =
      .ok (ps.map fun p => if upToStart startTime p then some (fundingRateOf m p) else none) := by
    apply Fallible.mapM_forall₂
    rw [List.forall₂_map_right_iff]
    exact hrates.imp fun r p h => fundingRate_isRate h m startTime
  have hsorted : sortByTime FundingRate.timestamp
      ((ps.filter (upToStart startTime)).map (fundingRateOf m)) =
      (atOrBefore Settled.time startTime history).map (fundingRateOf m) := by
    rw [atOrBefore_eq_filter]
    have horder' : Chronological FundingRate.timestamp
        ((history.filter (upToStart startTime)).map (fundingRateOf m)) :=
      List.pairwise_map.mpr (horder.sublist List.filter_sublist)
    exact horder'.sort_of_perm ((hperm.filter _).map _)
  unfold getFundingRate
  rw [if_neg hspot]
  show (get data "rates" (.arr [])).bind _ = _
  rw [hdata]
  show (rates.mapM (fundingRate texts m startTime)).bind _ = _
  rw [hread]
  show Except.ok (sliceTail (sortByTime FundingRate.timestamp (List.reduceOption _)) limit) = _
  rw [reduceOption_chosen, hsorted, sliceTail, if_pos (by omega), Int.toNat_natCast, List.rtake,
    List.rtake, List.map_drop, List.length_map]

end KrakenAnalytics
end ExchangeRouter
