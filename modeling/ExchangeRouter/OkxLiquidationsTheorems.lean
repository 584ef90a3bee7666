import ExchangeRouter.FundingHistories
import ExchangeRouter.Lib.Chronological
import ExchangeRouter.OkxLiquidations
import ExchangeRouter.StartBound
import Std.Data.String.ToInt

/-!
# OKX liquidations with and without a start

A walk over a history of one page drops the records of that page whose dump it has seen, within
the page too; a call without a start does not. So the two return the same events exactly where
no two events are the same record (`liquidations_same_iff`).
-/

namespace ExchangeRouter

open Newest

/-! ## A walk over a history of one page -/

section

variable {α κ : Type*} [DecidableEq κ] {timestamp : α → ℤ} {modelDumpJson : α → κ}

/-- Where no dump repeats, nothing is dropped. -/
lemma dropSeen_of_nodup {seen : List κ} {xs : List α} (hnodup : (xs.map modelDumpJson).Nodup)
    (hnew : ∀ x ∈ xs, modelDumpJson x ∉ seen) : (dropSeen modelDumpJson seen xs).1 = xs := by
  induction xs generalizing seen with
  | nil => rfl
  | cons x xs ih =>
    obtain ⟨hx, hnodup⟩ := List.nodup_cons.mp hnodup
    rw [dropSeen, if_neg (hnew x List.mem_cons_self)]
    have hrest : (dropSeen modelDumpJson (modelDumpJson x :: seen) xs).1 = xs := by
      refine ih hnodup fun y hy hin => ?_
      rcases List.mem_cons.mp hin with heq | hin
      · exact hx (heq ▸ List.mem_map_of_mem hy)
      · exact hnew y (List.mem_cons_of_mem x hy) hin
    exact congrArg (x :: ·) hrest

/-- A batch without what it repeats is the batch, exactly where no dump repeats. -/
lemma dropSeen_perm_iff {xs : List α} :
    (dropSeen modelDumpJson [] xs).1.Perm xs ↔ (xs.map modelDumpJson).Nodup := by
  constructor
  · intro hperm
    exact (hperm.map modelDumpJson).nodup_iff.mp (dropSeen_nodup modelDumpJson [] xs).1
  · intro hnodup
    rw [dropSeen_of_nodup hnodup fun _ _ => List.not_mem_nil]

/-- A batch of records that were all seen brings nothing. -/
lemma dropSeen_eq_nil {seen : List κ} {xs : List α} (h : ∀ x ∈ xs, modelDumpJson x ∈ seen) :
    (dropSeen modelDumpJson seen xs).1 = [] := by
  apply List.eq_nil_iff_forall_not_mem.mpr
  intro x hx
  have hin := (dropSeen_sublist modelDumpJson seen xs).subset hx
  exact (dropSeen_nodup modelDumpJson seen xs).2 _ (h x hin) (List.mem_map_of_mem hx)

lemma pageLoop_stop {fetch : Upstream α} {l limit : ℤ} {s s' : PageState α κ}
    {fault : Option Fault} (hfew : (s.collected : ℤ) < limit)
    (hstep : pageStep timestamp modelDumpJson fetch l s = .stop s' fault) (left : ℕ) :
    pageLoop timestamp modelDumpJson fetch limit l (left + 1) s = (s', fault) := by
  rw [pageLoop, if_pos hfew, hstep]

lemma pageLoop_again {fetch : Upstream α} {l limit : ℤ} {s s' : PageState α κ}
    (hfew : (s.collected : ℤ) < limit)
    (hstep : pageStep timestamp modelDumpJson fetch l s = .again s') (left : ℕ) :
    pageLoop timestamp modelDumpJson fetch limit l (left + 1) s =
      pageLoop timestamp modelDumpJson fetch limit l left s' := by
  rw [pageLoop, if_pos hfew, hstep]

variable (timestamp) in
/-- A page of records that the walk has seen is its last. -/
lemma pageStep_of_seen {fetch : Upstream α} {l : ℤ} {s : PageState α κ} {page : List α}
    (hpage : fetch s.reqCount ⟨s.currentEnd, l⟩ = .ok page)
    (hseen : ∀ x ∈ page, modelDumpJson x ∈ s.seen) :
    ∃ s', pageStep timestamp modelDumpJson fetch l s = .stop s' none ∧ s'.chunks = s.chunks := by
  rcases pageStep_cases timestamp modelDumpJson fetch l s with ⟨e, herr, -⟩ | ⟨page', hok, hcases⟩
  · exact absurd (hpage.symm.trans herr) (by simp)
  obtain rfl : page = page' := Except.ok.inj (hpage.symm.trans hok)
  rcases hcases with ⟨-, hstep⟩ | ⟨oldest, rest, newItems, seen, hsort, hdrop, hcases⟩
  · exact ⟨_, hstep, rfl⟩
  have hnil : (dropSeen modelDumpJson s.seen (oldest :: rest)).1 = [] :=
    dropSeen_eq_nil fun x hx => hseen x ((mem_sortByTime timestamp).mp (hsort ▸ hx))
  rw [hdrop] at hnil
  rcases hcases with ⟨-, hstep⟩ | ⟨hne, -⟩ | ⟨hne, -⟩
  · exact ⟨_, hstep, rfl⟩
  · exact absurd hnil hne
  · exact absurd hnil hne

variable (modelDumpJson) in
/-- After the first page the walk holds it, without what it repeats, and nothing comes later. -/
lemma pageRun_onePage {fetch : Upstream α} {l limit : ℤ} {batch : List α}
    (hlimit : 0 < limit) (hfirst : fetch 0 ⟨none, l⟩ = .ok batch)
    (hpos : ∀ x ∈ batch, 0 < timestamp x)
    (hagain : ∀ x ∈ batch, ∃ page, fetch 1 ⟨some (timestamp x), l⟩ = .ok page ∧ page ⊆ batch) :
    ∃ s, pageRun timestamp modelDumpJson fetch limit l = (s, none) ∧
      (s.chunks = [] ∧ (dropSeen modelDumpJson [] (sortByTime timestamp batch)).1 = [] ∨
        s.chunks = [(dropSeen modelDumpJson [] (sortByTime timestamp batch)).1]) := by
  rcases pageStep_cases timestamp modelDumpJson fetch l {} with ⟨e, herr, -⟩ | ⟨page, hok, hcases⟩
  · exact absurd (hfirst.symm.trans herr) (by simp)
  obtain rfl : batch = page := Except.ok.inj (hfirst.symm.trans hok)
  rcases hcases with ⟨rfl, hstep⟩ | ⟨oldest, rest, newItems, seen, hsort, hdrop, hcases⟩
  · exact ⟨_, pageLoop_stop hlimit hstep 99, Or.inl ⟨rfl, rfl⟩⟩
  have holdest : oldest ∈ batch := by
    rw [← mem_sortByTime timestamp, hsort]
    exact List.mem_cons_self
  have hmoves : stalled none (timestamp oldest) = false := by
    simp [stalled, hpos oldest holdest]
  have hnew : newItems ≠ [] := by
    rintro rfl
    have hcovers := dropSeen_covers modelDumpJson [] (oldest :: rest) List.mem_cons_self
    rw [hdrop] at hcovers
    simp at hcovers
  rw [hsort, hdrop]
  rcases hcases with ⟨hnil, -⟩ | ⟨-, hstall, -⟩ | ⟨-, -, hstep⟩
  · exact absurd hnil hnew
  · exact absurd (hstall.symm.trans hmoves) (by simp)
  have hrun := pageLoop_again hlimit hstep 99
  generalize hs : { (PageState.sent {} ⟨none, l⟩).absorb newItems seen with
    currentEnd := some (timestamp oldest) } = s at hrun
  have hchunks : s.chunks = [newItems] := by rw [← hs]; rfl
  have hseen : s.seen = seen := by rw [← hs]; rfl
  have hend : s.currentEnd = some (timestamp oldest) := by rw [← hs]
  have hcount : s.reqCount = 1 := by rw [← hs]; rfl
  by_cases hfew : (s.collected : ℤ) < limit
  · -- the second page ends at the oldest record, and the walk has all of it
    obtain ⟨page, hok, hsub⟩ := hagain oldest holdest
    have hall : ∀ x ∈ batch, modelDumpJson x ∈ seen := by
      intro x hx
      have hcovers := dropSeen_covers modelDumpJson [] (oldest :: rest)
        (hsort ▸ (mem_sortByTime timestamp).mpr hx)
      have hsnd := mem_dropSeen_snd modelDumpJson [] (oldest :: rest) (modelDumpJson x)
      rw [hdrop] at hcovers hsnd
      exact hsnd.mpr hcovers
    have hpage : fetch s.reqCount ⟨s.currentEnd, l⟩ = .ok page := by
      rw [hcount, hend]
      exact hok
    obtain ⟨s', hstop, hsame⟩ := pageStep_of_seen timestamp hpage fun x hx => by
      rw [hseen]
      exact hall x (hsub hx)
    refine ⟨s', hrun.trans (pageLoop_stop hfew hstop 98), Or.inr ?_⟩
    rw [hsame, hchunks]
  · refine ⟨s, hrun.trans ?_, Or.inr hchunks⟩
    rw [pageLoop, if_neg hfew]

variable (modelDumpJson) in
/-- The walk over a first page and pages that repeat it returns the first page, without what it
repeats itself. -/
theorem paginateBackwards_onePage {fetch : Upstream α} {l limit : ℤ} {batch : List α}
    (hlimit : 0 < limit) (hfirst : fetch 0 ⟨none, l⟩ = .ok batch)
    (hpos : ∀ x ∈ batch, 0 < timestamp x)
    (hagain : ∀ x ∈ batch, ∃ page, fetch 1 ⟨some (timestamp x), l⟩ = .ok page ∧ page ⊆ batch) :
    (paginateBackwards timestamp modelDumpJson fetch limit l).result =
      .ok (sliceTail (dropSeen modelDumpJson [] (sortByTime timestamp batch)).1 limit) := by
  obtain ⟨s, hrun, hheld⟩ := pageRun_onePage modelDumpJson hlimit hfirst hpos hagain
  have hsorted : Ascending timestamp (dropSeen modelDumpJson [] (sortByTime timestamp batch)).1 :=
    (ascending_sortByTime timestamp batch).sublist (dropSeen_sublist modelDumpJson [] _)
  have hout : s.out timestamp = (dropSeen modelDumpJson [] (sortByTime timestamp batch)).1 := by
    unfold PageState.out
    rcases hheld with ⟨hchunks, hnil⟩ | hchunks
    · rw [hchunks, hnil]
      rfl
    · rw [hchunks]
      simpa using hsorted.sort_eq
  simp only [paginateBackwards, hrun, hout]

end

namespace Okx

/-! ## The events of a venue -/

/-- The time of an event, as the venue has it. -/
def LiquidationDetail.stamp (d : LiquidationDetail) : ℤ := d.ts.getD 0

/-- An event with a side, a price and a size, and a time in milliseconds after 1973. -/
structure LiquidationDetail.Full (d : LiquidationDetail) : Prop where
  side : d.sideText ∈ ["buy", "sell"]
  price : ∃ x, d.bkPx = .num x
  size : ∃ x, d.sz = .num x
  dated : ∃ t, d.ts = some t ∧ 100000000000 ≤ t

/-- The contract size of an inverse market is known. -/
def LiquidationMarket.Sized (m : LiquidationMarket) : Prop :=
  m.marketType = .inverse → m.contractSize ≠ none

instance (m : LiquidationMarket) : Decidable m.Sized := inferInstanceAs (Decidable (_ → _))

/-- The record of an event, where it has one. -/
def record (m : LiquidationMarket) (d : LiquidationDetail) : Option Liquidation :=
  (readLiquidation m d).toOption.join

/-- The venue serves the events of the instrument: all of those before `after`, and all without
it, when they fit in the page that is asked for. It may send other instruments beside them. -/
def ServesLiquidations (venue : Venue (List LiquidationEntry)) (m : LiquidationMarket)
    (events : List LiquidationDetail) : Prop :=
  ∀ n q (l : ℕ), q.path = "/api/v5/public/liquidation-orders" →
    q.params.lookup "instType" = some (.text "SWAP") →
    q.params.lookup "uly" = some (.text m.uly) → q.params.lookup "state" = some (.text "filled") →
    q.params.lookup "limit" = some (.int l) → events.length ≤ l →
    (∀ a : ℤ, q.params.lookup "after" = some (.text (toString a)) →
      ∃ rows, venue n q = .ok rows ∧ (m.events rows).Perm (events.filter fun d => d.stamp < a)) ∧
    (q.params.lookup "after" = none → ∃ rows, venue n q = .ok rows ∧ (m.events rows).Perm events)

/-- A venue that serves the events, in one entry. -/
def serveLiquidations (m : LiquidationMarket) (events : List LiquidationDetail) :
    Venue (List LiquidationEntry) := fun _ q =>
  match q.params.lookup "after" with
  | some (.text a) =>
    .ok [⟨some m.apiSymbol, events.filter fun d => a.toInt?.any fun t => d.stamp < t⟩]
  | _ => .ok [⟨some m.apiSymbol, events⟩]

lemma events_one (m : LiquidationMarket) (events : List LiquidationDetail) :
    m.events [⟨some m.apiSymbol, events⟩] = events := by
  simp [LiquidationMarket.events]

lemma servesLiquidations (m : LiquidationMarket) (events : List LiquidationDetail) :
    ServesLiquidations (serveLiquidations m events) m events := by
  intro n q l _ _ _ _ _ _
  constructor
  · intro a hafter
    have hparse : (toString a).toInt? = some a := Int.toInt?_repr a
    refine ⟨[⟨some m.apiSymbol, events.filter fun d => d.stamp < a⟩], ?_, ?_⟩
    · simp only [serveLiquidations, hafter, hparse, Option.any_some]
    · rw [events_one]
  · intro hafter
    refine ⟨[⟨some m.apiSymbol, events⟩], ?_, ?_⟩
    · simp only [serveLiquidations, hafter]
    · rw [events_one]

lemma LiquidationDetail.Full.le_stamp {d : LiquidationDetail} (h : d.Full) :
    100000000000 ≤ d.stamp := by
  obtain ⟨t, ht, hlarge⟩ := h.dated
  unfold stamp
  rw [ht]
  exact hlarge

lemma LiquidationDetail.Full.time {d : LiquidationDetail} (h : d.Full) : d.time = .ok d.stamp := by
  obtain ⟨t, ht, hlarge⟩ := h.dated
  simp [LiquidationDetail.time, stamp, normalizeTimestamp, ht, not_lt.mpr hlarge]

/-- A size has a quantity exactly where the market is sized. -/
lemma LiquidationMarket.qty_cases (m : LiquidationMarket) (size price : ℚ) :
    (m.Sized → ∃ qty, m.qty size price = .ok qty) ∧
      (¬ m.Sized → ∃ e, m.qty size price = .error e ∧ e.isRejection) := by
  unfold Sized qty MarketType.qtyUnit
  by_cases hinverse : m.marketType = .inverse
  · rw [if_pos hinverse]
    cases hsize : m.contractSize with
    | none => exact ⟨fun h => absurd rfl (h hinverse), fun _ => ⟨_, rfl, rfl⟩⟩
    | some x => exact ⟨fun _ => ⟨_, rfl⟩, fun h => absurd (fun _ => by simp) h⟩
  · rw [if_neg hinverse]
    exact ⟨fun _ => ⟨_, rfl⟩, fun h => absurd (fun heq => absurd heq hinverse) h⟩

/-- A full event is read on a sized market, and refused on another. -/
lemma LiquidationDetail.Full.read_cases {d : LiquidationDetail} (h : d.Full)
    (m : LiquidationMarket) :
    (m.Sized → ∃ l, readLiquidation m d = .ok (some l) ∧ l.timestamp = d.stamp) ∧
      (¬ m.Sized → ∃ e, readLiquidation m d = .error e ∧ e.isRejection) := by
  obtain ⟨price, hprice⟩ := h.price
  obtain ⟨size, hsize⟩ := h.size
  have hread : readLiquidation m d = (m.qty size price).bind fun qty =>
      .ok (some ⟨m.symbol, m.marketType, m.quote, d.sideText, price, qty, d.stamp⟩) := by
    unfold readLiquidation
    rw [if_neg (not_not.mpr h.side), hprice, hsize, h.time]
    rfl
  rw [hread]
  obtain ⟨hsized, hunsized⟩ := m.qty_cases size price
  refine ⟨fun hm => ?_, fun hm => ?_⟩
  · obtain ⟨qty, hqty⟩ := hsized hm
    rw [hqty]
    exact ⟨_, rfl, rfl⟩
  · obtain ⟨e, he, hrejected⟩ := hunsized hm
    rw [he]
    exact ⟨e, rfl, hrejected⟩

/-- What `_parse` makes of full events. -/
lemma parse_cases {m : LiquidationMarket} {rows : List LiquidationEntry}
    (hfull : ∀ d ∈ m.events rows, d.Full) :
    ((m.events rows ≠ [] → m.Sized) → parseLiquidations m rows =
        .ok (sortByTime Liquidation.timestamp ((m.events rows).filterMap (record m)))) ∧
      (¬ m.Sized → m.events rows ≠ [] →
        ∃ e, parseLiquidations m rows = .error e ∧ e.isRejection) := by
  unfold parseLiquidations
  constructor
  · intro hsized
    have hmap := Fallible.mapM_eq_filterMap fun d hd => by
      obtain ⟨l, hl, -⟩ :=
        ((hfull d hd).read_cases m).1 (hsized (List.ne_nil_of_mem hd))
      exact ⟨some l, hl⟩
    rw [hmap]
    show Except.ok (sortByTime _ (List.filterMap id _)) = _
    rw [List.filterMap_filterMap]
    rfl
  · intro hunsized hne
    obtain ⟨d, ds, hds⟩ := List.exists_cons_of_ne_nil hne
    obtain ⟨e, he, hrejected⟩ :=
      ((hfull d (hds ▸ List.mem_cons_self)).read_cases m).2 hunsized
    refine ⟨e, ?_, hrejected⟩
    rw [hds, List.mapM_cons, he]
    rfl

lemma record_stamp {m : LiquidationMarket} (hsized : m.Sized) {d : LiquidationDetail}
    (hfull : d.Full) : ∃ l, record m d = some l ∧ l.timestamp = d.stamp := by
  obtain ⟨l, hl, hts⟩ := (hfull.read_cases m).1 hsized
  refine ⟨l, ?_, hts⟩
  unfold record
  rw [hl]
  rfl

/-! ## Pages -/

/-- The records of the events. -/
def records (m : LiquidationMarket) (events : List LiquidationDetail) : List Liquidation :=
  events.filterMap (record m)

/-- What the venue is and has: full events of one instrument that fit in one page. -/
structure OnePage (venue : Venue (List LiquidationEntry)) (m : LiquidationMarket)
    (events : List LiquidationDetail) : Prop where
  full : ∀ d ∈ events, d.Full
  fits : events.length ≤ 100
  serves : ServesLiquidations venue m events

section

variable {κ : Type*} [DecidableEq κ] {modelDumpJson : Liquidation → κ} {m : LiquidationMarket}
  {venue : Venue (List LiquidationEntry)} {events : List LiquidationDetail}

namespace OnePage

variable (h : OnePage venue m events)

include h

/-- A page brings events of the instrument, all of them where its anchor is at or after them. -/
lemma rows (startTime : Option ℤ) (limit : ℤ) (request : PageRequest)
    (hfits : events.length ≤ min request.limit 100)
    (n : ℕ) :
    ∃ rows, venue n ((getLiquidations m.uly startTime limit).query n request) = .ok rows ∧
      m.events rows ⊆ events ∧
      ((∀ a ∈ anchor request.endTs startTime, ∀ d ∈ events, d.stamp ≤ a) →
        (m.events rows).Perm events) := by
  obtain ⟨l, hl⟩ := Int.eq_ofNat_of_zero_le ((Int.natCast_nonneg events.length).trans hfits)
  have hserves := h.serves n ((getLiquidations m.uly startTime limit).query n request) l rfl rfl rfl
    rfl (by rw [← hl]; rfl) (by omega)
  have hafter : ((getLiquidations m.uly startTime limit).query n request).params.lookup "after" =
      (ifAnchor (anchor request.endTs startTime)
        fun a => ("after", .text (toString (a + 1)))).lookup "after" := rfl
  by_cases hsent : ∃ a, anchor request.endTs startTime = some a ∧ a ≠ 0
  · obtain ⟨a, hanchor, ha⟩ := hsent
    have hparam : ifAnchor (some a) (fun a => ("after", Param.text (toString (a + 1)))) =
        [("after", .text (toString (a + 1)))] := if_neg ha
    rw [hanchor, hparam] at hafter
    obtain ⟨rows, hrows, hperm⟩ := hserves.1 (a + 1) hafter
    refine ⟨rows, hrows, List.Subset.trans hperm.subset List.filter_sublist.subset, fun hbound => ?_⟩
    have hall : events.filter (fun d => decide (d.stamp < a + 1)) = events :=
      List.filter_eq_self.mpr fun d hd =>
        decide_eq_true (Int.lt_add_one_of_le (hbound a hanchor d hd))
    rw [hall] at hperm
    exact hperm
  · -- an anchor of zero is not sent either
    have hparam : ifAnchor (anchor request.endTs startTime)
        (fun a => ("after", Param.text (toString (a + 1)))) = [] := by
      cases hanchor : anchor request.endTs startTime with
      | none => rfl
      | some a =>
        have ha : a = 0 := by_contra fun hne => hsent ⟨a, hanchor, hne⟩
        rw [ha]
        rfl
    rw [hparam] at hafter
    obtain ⟨rows, hrows, hperm⟩ := hserves.2 hafter
    exact ⟨rows, hrows, hperm.subset, fun _ => hperm⟩

/-- What a fetch makes of a page, where the market is sized or there is nothing to size. -/
lemma fetch (startTime : Option ℤ) (limit : ℤ) (request : PageRequest)
    (hsized : events ≠ [] → m.Sized) (hfits : events.length ≤ min request.limit 100) (n : ℕ) :
    ∃ batch, fetchLiquidations venue (parseLiquidations m)
        (getLiquidations m.uly startTime limit).query n request = .ok batch ∧
      batch ⊆ records m events ∧
      ((∀ a ∈ anchor request.endTs startTime, ∀ d ∈ events, d.stamp ≤ a) →
        batch.Perm (records m events)) := by
  obtain ⟨rows, hrows, hsub, hall⟩ := h.rows startTime limit request hfits n
  have hparse := (parse_cases fun d hd => h.full d (hsub hd)).1 fun hne =>
    hsized fun hnil => hne (List.subset_nil.mp (hnil ▸ hsub))
  have hsorted := sortByTime_perm Liquidation.timestamp ((m.events rows).filterMap (record m))
  refine ⟨_, ?_, List.Subset.trans hsorted.subset (List.filterMap_subset _ hsub), fun hbound =>
    hsorted.trans ((hall hbound).filterMap _)⟩
  unfold fetchLiquidations
  rw [hrows]
  exact hparse

/-- On an inverse market without a contract size the one page of a call is refused. -/
lemma fetch_unsized (startTime : Option ℤ) (limit : ℤ) (request : PageRequest)
    (hunsized : ¬ m.Sized) (hne : events ≠ [])
    (hfits : events.length ≤ min request.limit 100)
    (hbound : ∀ a ∈ anchor request.endTs startTime, ∀ d ∈ events, d.stamp ≤ a) (n : ℕ) :
    ∃ e, fetchLiquidations venue (parseLiquidations m)
      (getLiquidations m.uly startTime limit).query n request = .error e := by
  obtain ⟨rows, hrows, hsub, hall⟩ := h.rows startTime limit request hfits n
  have hsome : m.events rows ≠ [] := fun hnil =>
    hne (List.perm_nil.mp (hnil ▸ (hall hbound).symm))
  obtain ⟨e, he, -⟩ := (parse_cases fun d hd => h.full d (hsub hd)).2 hunsized hsome
  refine ⟨e, ?_⟩
  unfold fetchLiquidations
  rw [hrows]
  exact he

lemma records_pos (hsized : events ≠ [] → m.Sized) :
    ∀ l ∈ records m events, 0 < l.timestamp ∧ ∃ d ∈ events, l.timestamp = d.stamp := by
  intro l hl
  obtain ⟨d, hd, hrecord⟩ := List.mem_filterMap.mp hl
  obtain ⟨l', hl', hts⟩ := record_stamp (hsized (List.ne_nil_of_mem hd)) (h.full d hd)
  obtain rfl : l = l' := Option.some.inj (hrecord.symm.trans hl')
  have hlarge := (h.full d hd).le_stamp
  exact ⟨by omega, d, hd, hts⟩

end OnePage

lemma sliceTail_of_le {α : Type*} {xs : List α} {n : ℕ} (h : xs.length ≤ n) :
    sliceTail xs n = xs := by
  unfold sliceTail
  split
  · exact rtake_of_le (by omega)
  · next hzero =>
    have hn : n = 0 := by omega
    rw [hn]
    rfl

lemma records_length (m : LiquidationMarket) (events : List LiquidationDetail) :
    (records m events).length ≤ events.length := List.length_filterMap_le _ _

variable (modelDumpJson venue) in
/-- The one page of a call without a start. -/
lemma result_single (hmarket : m.marketType ≠ .spot)
    (hlinear : m.marketType = .linear → m.multiplier ≠ none) {limit : ℕ} (hfew : limit ≤ 100) :
    liquidations modelDumpJson m venue none limit =
      (fetchLiquidations venue (parseLiquidations m) (getLiquidations m.uly none limit).query 0
        ⟨none, limit⟩).map fun batch => sliceTail batch limit := by
  have hpaginates : (getLiquidations m.uly none limit).paginates = false := by
    show (false || decide ((100 : ℤ) < limit)) = false
    rw [Bool.false_or, decide_eq_false_iff_not]
    omega
  unfold liquidations readLiquidations PagedRead.callWith
  rw [if_neg hmarket, if_neg fun hrefused => hlinear hrefused.1 hrefused.2, hpaginates]
  rfl

/-- The walk of a call with a start. -/
lemma result_walk (hmarket : m.marketType ≠ .spot)
    (hlinear : m.marketType = .linear → m.multiplier ≠ none) (start limit : ℤ) :
    liquidations modelDumpJson m venue (some start) limit =
      (paginateBackwards Liquidation.timestamp modelDumpJson
        (fetchLiquidations venue (parseLiquidations m)
          (getLiquidations m.uly (some start) limit).query) limit 100).result := by
  unfold liquidations
  rw [if_neg hmarket, if_neg fun hrefused => hlinear hrefused.1 hrefused.2]
  rfl

/-- One request asks for all the events. -/
lemma OnePage.fits_asked (h : OnePage venue m events) {limit : ℕ} (hmany : events.length ≤ limit) :
    (events.length : ℤ) ≤ min (limit : ℤ) 100 := by
  have := h.fits
  omega

variable (modelDumpJson) in
/-- What a call without a start returns: the records. -/
lemma OnePage.result_single (h : OnePage venue m events) (hmarket : m.marketType ≠ .spot)
    (hlinear : m.marketType = .linear → m.multiplier ≠ none) (hsized : events ≠ [] → m.Sized)
    {limit : ℕ} (hmany : events.length ≤ limit) (hfew : limit ≤ 100) :
    ∃ batch, batch.Perm (records m events) ∧
      liquidations modelDumpJson m venue none limit = .ok batch := by
  obtain ⟨batch, hbatch, -, hall⟩ :=
    h.fetch none limit ⟨none, limit⟩ hsized (h.fits_asked hmany) 0
  have hperm : batch.Perm (records m events) := hall fun a ha => absurd ha (by simp)
  have hlength : batch.length ≤ limit := by
    rw [hperm.length_eq]
    exact (records_length m events).trans hmany
  refine ⟨batch, hperm, ?_⟩
  rw [Okx.result_single modelDumpJson venue hmarket hlinear hfew, hbatch]
  simp only [Except.map, sliceTail_of_le hlength]

variable (modelDumpJson) in
/-- What a call with a start returns: the records without what repeats. -/
lemma OnePage.result_walk (h : OnePage venue m events) (hmarket : m.marketType ≠ .spot)
    (hlinear : m.marketType = .linear → m.multiplier ≠ none) (hsized : events ≠ [] → m.Sized)
    {limit : ℕ} (hmany : events.length ≤ limit) {start : ℤ}
    (hstart : ∀ d ∈ events, d.stamp ≤ start) :
    ∃ batch, batch.Perm (records m events) ∧
      liquidations modelDumpJson m venue (some start) limit =
        .ok (dropSeen modelDumpJson [] (sortByTime Liquidation.timestamp batch)).1 := by
  have hfits : (events.length : ℤ) ≤ min 100 100 := h.fits_asked h.fits
  obtain ⟨batch, hbatch, -, hall⟩ := h.fetch (some start) limit ⟨none, 100⟩ hsized hfits 0
  have hperm : batch.Perm (records m events) := hall fun a ha d hd => by
    obtain rfl := Option.some.inj ha
    exact hstart d hd
  have hlength : (dropSeen modelDumpJson [] (sortByTime Liquidation.timestamp batch)).1.length ≤
      limit := by
    have hdropped := (dropSeen_sublist modelDumpJson []
      (sortByTime Liquidation.timestamp batch)).length_le
    rw [length_sortByTime, hperm.length_eq] at hdropped
    exact hdropped.trans ((records_length m events).trans hmany)
  refine ⟨batch, hperm, ?_⟩
  rw [Okx.result_walk hmarket hlinear]
  rcases Nat.eq_zero_or_pos limit with hzero | hpos
  · -- a call for nothing sends no request
    have hnil : batch = [] := by
      apply List.eq_nil_of_length_eq_zero
      have hle := (records_length m events).trans hmany
      rw [hperm.length_eq]
      omega
    rw [hnil, hzero]
    rfl
  · have hlimit : (0 : ℤ) < limit := by omega
    have hwalk := paginateBackwards_onePage modelDumpJson hlimit hbatch
      (fun l hl => (h.records_pos hsized l (hperm.subset hl)).1) fun l hl => by
        obtain ⟨page, hpage, hsub, -⟩ := h.fetch (some start) limit ⟨some l.timestamp, 100⟩
          hsized hfits 1
        exact ⟨page, hpage, List.Subset.trans hsub hperm.symm.subset⟩
    rw [hwalk, sliceTail_of_le hlength]

/-- With a start and without one the call returns the same events, exactly where no two events are
one record; on an inverse market with events the contract size has to be known besides. -/
theorem liquidations_same_iff (hinj : Function.Injective modelDumpJson)
    (hmarket : m.marketType ≠ .spot) (hlinear : m.marketType = .linear → m.multiplier ≠ none)
    {venue' : Venue (List LiquidationEntry)} (h : OnePage venue m events)
    (h' : OnePage venue' m events) {limit : ℕ} (hmany : events.length ≤ limit) (hfew : limit ≤ 100)
    {start : ℤ} (hstart : ∀ d ∈ events, d.stamp ≤ start) :
    (∃ single paged, liquidations modelDumpJson m venue none limit = .ok single ∧
        liquidations modelDumpJson m venue' (some start) limit = .ok paged ∧
        paged.Perm single) ↔
      (events ≠ [] → m.Sized) ∧ (records m events).Nodup := by
  by_cases hsized : events ≠ [] → m.Sized
  · obtain ⟨batch, hperm, hsingle⟩ :=
      h.result_single modelDumpJson hmarket hlinear hsized hmany hfew
    obtain ⟨batch', hperm', hpaged⟩ :=
      h'.result_walk modelDumpJson hmarket hlinear hsized hmany hstart
    have hsorted : (sortByTime Liquidation.timestamp batch').Perm (records m events) :=
      (sortByTime_perm _ _).trans hperm'
    have hsame : (dropSeen modelDumpJson [] (sortByTime Liquidation.timestamp batch')).1.Perm
        batch ↔ (records m events).Nodup := by
      rw [(hperm.trans hsorted.symm).congr_right, dropSeen_perm_iff,
        (hsorted.map modelDumpJson).nodup_iff, List.nodup_map_iff hinj]
    rw [hsingle, hpaged]
    constructor
    · rintro ⟨single, paged, hs, hp, hboth⟩
      obtain rfl := Except.ok.inj hs
      obtain rfl := Except.ok.inj hp
      exact ⟨hsized, hsame.mp hboth⟩
    · rintro ⟨-, hnodup⟩
      exact ⟨_, _, rfl, rfl, hsame.mpr hnodup⟩
  · -- the call without a start raises what the walk stops on
    refine iff_of_false ?_ fun hboth => hsized hboth.1
    rintro ⟨single, paged, hs, -⟩
    have hne : events ≠ [] := fun hnil => hsized fun hne => absurd hnil hne
    obtain ⟨e, he⟩ := h.fetch_unsized none limit ⟨none, limit⟩ (fun hm => hsized fun _ => hm) hne
      (h.fits_asked hmany) (fun a ha => absurd ha (by simp)) 0
    rw [result_single modelDumpJson venue hmarket hlinear hfew, he] at hs
    exact absurd hs (by simp [Except.map])

end

/-! ## A cascade -/

/-- A linear swap of a hundredth of a coin a contract. -/
def btcUsdtSwap : LiquidationMarket :=
  ⟨"BTCUSDT", "BTC-USDT-SWAP", "USDT", .linear, none, some (1 / 100)⟩

/-- A fill of `size` contracts at one price and in one millisecond. -/
def fill (size : ℚ) : LiquidationDetail :=
  ⟨some "sell", .num 60000, .num size, some 1700000000000⟩

lemma onePage_fills (sizes : List ℚ) (h : sizes.length ≤ 100) :
    OnePage (serveLiquidations btcUsdtSwap (sizes.map fill)) btcUsdtSwap (sizes.map fill) where
  full := by
    intro d hd
    obtain ⟨size, -, rfl⟩ := List.mem_map.mp hd
    have hside : (fill 0).sideText ∈ ["buy", "sell"] := by decide +kernel
    exact ⟨hside, ⟨_, rfl⟩, ⟨_, rfl⟩, ⟨_, rfl, by decide⟩⟩
  fits := by
    rw [List.length_map]
    exact h
  serves := servesLiquidations _ _

/-- Of two fills of one size in one millisecond a call with a start returns one. -/
theorem liquidations_twins :
    OnePage (serveLiquidations btcUsdtSwap [fill 1, fill 1]) btcUsdtSwap [fill 1, fill 1] ∧
      ¬ ∃ single paged,
        liquidations id btcUsdtSwap (serveLiquidations btcUsdtSwap [fill 1, fill 1]) none 2 =
            .ok single ∧
          liquidations id btcUsdtSwap (serveLiquidations btcUsdtSwap [fill 1, fill 1])
            (some 1700000000000) 2 = .ok paged ∧ paged.Perm single := by
  have h := onePage_fills [1, 1] (by decide)
  refine ⟨h, ?_⟩
  rintro ⟨single, paged, hs, hp, hboth⟩
  have hmany : [fill 1, fill 1].length ≤ 2 := by decide
  have hstart : ∀ d ∈ [fill 1, fill 1], d.stamp ≤ 1700000000000 := by decide
  obtain ⟨batch, hperm, hsingle⟩ :=
    h.result_single id (by decide) (by decide) (fun _ => by decide) hmany (by decide)
  obtain ⟨batch', -, hpaged⟩ :=
    h.result_walk id (by decide) (by decide) (fun _ => by decide) hmany hstart
  obtain rfl := Except.ok.inj (hsingle.symm.trans hs)
  obtain rfl := Except.ok.inj (hpaged.symm.trans hp)
  have hnodup := (dropSeen_nodup id [] (sortByTime Liquidation.timestamp batch')).1
  rw [List.map_id, (hboth.trans hperm).nodup_iff] at hnodup
  exact absurd hnodup (by decide +kernel)

theorem liquidations_same_iff_two_sizes :
    ∃ single paged,
      liquidations id btcUsdtSwap (serveLiquidations btcUsdtSwap [fill 1, fill 2]) none 2 =
          .ok single ∧
        liquidations id btcUsdtSwap (serveLiquidations btcUsdtSwap [fill 1, fill 2])
          (some 1700000000000) 2 = .ok paged ∧ paged.Perm single := by
  have h := onePage_fills [1, 2] (by decide)
  have hmany : [fill 1, fill 2].length ≤ 2 := by decide
  have hstart : ∀ d ∈ [fill 1, fill 2], d.stamp ≤ 1700000000000 := by decide
  refine (liquidations_same_iff Function.injective_id (by decide) (by decide) h h hmany (by decide)
    hstart).mpr ⟨fun _ => by decide, ?_⟩
  decide +kernel

end Okx
end ExchangeRouter
