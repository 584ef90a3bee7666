import ExchangeRouter.FundingHistories
import Mathlib.Order.Interval.Finset.Defs
import Mathlib.Data.Int.Interval

/-!
# Funding history of Hyperliquid

`fundingHistory` answers with the oldest 500 rows of a closed window, and the windows of the walk
are 500 hours long. With one row in each hour a window that ends at a row can hold 501 of them: on
a later page that row is held already, on the first page it is the newest row of all, and it is
lost (`fundingRate_exact_iff`).
-/

namespace ExchangeRouter

open Newest

namespace Hyperliquid

/-- The venue answers for a coin with the oldest 500 rows of the closed window, in any order. -/
def ServesFunding (venue : Venue (List FundingRow)) (coin : String) (rows : List FundingRow) :
    Prop :=
  ∀ n q (a b : ℤ), q.path = "fundingHistory" → q.params.lookup "coin" = some (.text coin) →
    q.params.lookup "startTime" = some (.int a) → q.params.lookup "endTime" = some (.int b) →
    ∃ page, venue n q = .ok page ∧
      page.Perm ((rows.filter fun r => a ≤ r.settles ∧ r.settles ≤ b).take 500)

/-- The hour of a time. -/
def hour (t : ℤ) : ℤ := t / fundingCycleMs

/-- One row in each hour, from the first row to the last. -/
def Hourly (rows : List FundingRow) : Prop :=
  rows.IsChain fun r r' => hour r'.settles = hour r.settles + 1

/-- Later rows are of later hours. -/
lemma Hourly.hours {rows : List FundingRow} (h : Hourly rows) :
    rows.Pairwise fun r r' => hour r.settles < hour r'.settles := by
  have hlt : rows.IsChain fun r r' => hour r.settles < hour r'.settles :=
    h.imp fun _ _ hnext => by omega
  have : IsTrans FundingRow fun r r' => hour r.settles < hour r'.settles :=
    ⟨fun _ _ _ => lt_trans⟩
  exact hlt.pairwise

lemma Hourly.chronological {rows : List FundingRow} (h : Hourly rows) :
    Chronological FundingRow.settles rows := by
  refine h.hours.imp ?_
  intro r r' hlt
  simp only [hour, fundingCycleMs] at hlt
  omega

/-! ## The rows of a window -/

/-- No more rows than hours. -/
lemma Hourly.length_le {rows : List FundingRow} (h : Hourly rows) {p : FundingRow → Bool}
    {a b : ℤ} (hp : ∀ r ∈ rows, p r = true → a ≤ hour r.settles ∧ hour r.settles < b) :
    (rows.filter p).length ≤ (b - a).toNat := by
  have hnodup : ((rows.filter p).map fun r => hour r.settles).Nodup := by
    rw [List.Nodup, List.pairwise_map]
    exact (h.hours.sublist List.filter_sublist).imp fun hlt => hlt.ne
  have hsub : ((rows.filter p).map fun r => hour r.settles).toFinset ⊆ Finset.Ico a b := by
    intro t ht
    obtain ⟨r, hr, rfl⟩ := List.mem_map.mp (List.mem_toFinset.mp ht)
    obtain ⟨hmem, hpr⟩ := List.mem_filter.mp hr
    exact Finset.mem_Ico.mpr (hp r hmem hpr)
  have hcard := Finset.card_le_card hsub
  rw [List.toFinset_card_of_nodup hnodup, List.length_map, Int.card_Ico] at hcard
  exact hcard

/-- What the venue, the clock and the arguments of a call are. The interval cache holds the funding
cycle or nothing, and without a start no row is ahead of the clock. -/
structure FundingSetting (m : FundingMarket) (venue : Venue (List FundingRow)) (now : ℕ → ℤ)
    (startTime : Option ℤ) (rows : List FundingRow) : Prop where
  interval : ∀ c ∈ m.intervalMs, c = fundingCycleMs
  hourly : Hourly rows
  sound : ∀ r ∈ rows, r.Sound
  serves : ServesFunding venue m.coin rows
  past : startTime = none → ∀ r ∈ rows, r.settles ≤ now 0

/-- The records of the market. -/
def FundingMarket.rates (m : FundingMarket) (rows : List FundingRow) : List FundingRate :=
  fundingRates (fun _ => m.symbol) .linear m.quote m.cycleMs rows

/-- The length of a page's window. -/
def windowMs : ℤ := 500 * fundingCycleMs

/-- The rows in the window that ends at `t`. -/
def windowAt (t : ℤ) (rows : List FundingRow) : List FundingRow :=
  rows.filter fun r => t - windowMs ≤ r.settles ∧ r.settles ≤ t

section

variable {m : FundingMarket} {venue : Venue (List FundingRow)} {now : ℕ → ℤ}
  {startTime : Option ℤ} {rows : List FundingRow}

namespace FundingSetting

variable (h : FundingSetting m venue now startTime rows)

include h

lemma settled : Settled rows := ⟨h.hourly.chronological, h.sound⟩

lemma readsAs : ReadsAs FundingRate.timestamp FundingRow.settles
    (fun r => (r.read (fun _ => m.symbol) .linear m.quote m.cycleMs).toOption) rows :=
  h.settled.readsAs

lemma chronological : Chronological FundingRate.timestamp (m.rates rows) :=
  h.settled.chronological_rates

lemma cycle_eq : m.cycleMs = fundingCycleMs := by
  unfold FundingMarket.cycleMs
  cases hinterval : m.intervalMs with
  | none => rfl
  | some c => exact h.interval c hinterval

/-- A page is the oldest 500 records of its window. -/
lemma page (limit : ℤ) (endTs : Option ℤ) (n : ℕ) :
    fetchPage venue (parseFunding m) (getFundingRate m.coin m.cycleMs now startTime limit).query n
        ⟨endTs, 500⟩ =
      .ok (((m.rates rows).filter fun x =>
        (anchor endTs startTime).getD (now n) - windowMs ≤ x.timestamp ∧
          x.timestamp ≤ (anchor endTs startTime).getD (now n)).take 500) := by
  have hcycle := h.cycle_eq
  generalize hend : (anchor endTs startTime).getD (now n) = t
  obtain ⟨reply, hreply, hperm⟩ := h.serves n
    ((getFundingRate m.coin m.cycleMs now startTime limit).query n ⟨endTs, 500⟩)
    (t - windowMs) t rfl rfl (by rw [← hend, windowMs, ← hcycle]; rfl) (by rw [← hend]; rfl)
  have hwindow : Settled ((rows.filter fun r => t - windowMs ≤ r.settles ∧ r.settles ≤ t).take 500) :=
    h.settled.sublist ((List.take_sublist _ _).trans List.filter_sublist)
  unfold fetchPage
  rw [hreply]
  show parseFunding m reply = _
  unfold parseFunding
  rw [hwindow.mapM_read hperm.subset]
  show Except.ok (sortByTime FundingRate.timestamp _) = _
  have hread : fundingRates (fun _ => m.symbol) .linear m.quote m.cycleMs
      ((rows.filter fun r => t - windowMs ≤ r.settles ∧ r.settles ≤ t).take 500) =
        ((m.rates rows).filter fun x => t - windowMs ≤ x.timestamp ∧ x.timestamp ≤ t).take 500 := by
    rw [FundingMarket.rates, fundingRates, fundingRates,
      h.readsAs.filter fun s => decide (t - windowMs ≤ s ∧ s ≤ t),
      (h.readsAs.subset fun r hr => List.mem_of_mem_filter hr).take]
  rw [← hread]
  congr 1
  exact hwindow.chronological_rates.sort_of_perm (hperm.filterMap _)

/-- The next record is in the next hour. -/
lemma hourly_rates :
    (m.rates rows).IsChain fun x y => hour y.timestamp = hour x.timestamp + 1 := by
  have htimes : ((m.rates rows).map FundingRate.timestamp).IsChain
      fun a b => hour b = hour a + 1 := by
    rw [FundingMarket.rates, fundingRates, h.readsAs.map_time, List.isChain_map]
    exact h.hourly
  exact (List.isChain_map _).mp htimes

end FundingSetting

/-! ## What the walk can reach -/

/-- Where the first window ends. -/
def endOf (startTime : Option ℤ) (now : ℕ → ℤ) : ℤ := startTime.getD (now 0)

/-- The records that a call may return. -/
def FundingMarket.available (m : FundingMarket) (rows : List FundingRow) (e : ℤ) :
    List FundingRate := (m.rates rows).filter fun x => x.timestamp ≤ e

/-- Those of them in the first window. -/
def FundingMarket.firstWindow (m : FundingMarket) (rows : List FundingRow) (e : ℤ) :
    List FundingRate := (m.available rows e).filter fun x => e - windowMs ≤ x.timestamp

/-- Those that are left when the first page has lost what is over 500. -/
def FundingMarket.reachable (m : FundingMarket) (rows : List FundingRow) (e : ℤ) :
    List FundingRate :=
  (m.available rows e).take ((m.available rows e).length - ((m.firstWindow rows e).length - 500))

namespace FundingSetting

variable (h : FundingSetting m venue now startTime rows)

include h

/-- What a start leaves in is what a call may return. -/
lemma upTo_eq : upTo FundingRate.timestamp startTime (m.rates rows) =
    m.available rows (endOf startTime now) := by
  refine upTo_eq_filter fun hstart x hx => ?_
  obtain ⟨r, hr, -, hts⟩ := h.readsAs.mem hx
  exact hts.le.trans (h.past hstart r hr)

lemma chronological_available (e : ℤ) :
    Chronological FundingRate.timestamp (m.available rows e) :=
  h.chronological.sublist List.filter_sublist

lemma chronological_reachable (e : ℤ) :
    Chronological FundingRate.timestamp (m.reachable rows e) :=
  (h.chronological_available e).sublist (List.take_sublist _ _)

/-- What is reachable is a beginning of the history. -/
lemma reachable_eq_take (e : ℤ) : ∃ k, m.reachable rows e = (m.rates rows).take k := by
  unfold FundingMarket.reachable
  rw [FundingMarket.available, h.chronological.filter_until e, List.take_take]
  exact ⟨_, rfl⟩

/-- What is older than a reachable record is reachable. -/
lemma mem_reachable_of_le {e : ℤ} {x y : FundingRate} (hx : x ∈ m.reachable rows e)
    (hy : y ∈ m.rates rows) (hle : y.timestamp ≤ x.timestamp) : y ∈ m.reachable rows e := by
  obtain ⟨k, hk⟩ := h.reachable_eq_take e
  rw [hk] at hx ⊢
  have hsplit : (m.rates rows).take k ++ (m.rates rows).drop k = m.rates rows :=
    List.take_append_drop _ _
  have hpair := hsplit ▸ h.chronological
  rw [← hsplit] at hy
  rcases List.mem_append.mp hy with hin | hout
  · exact hin
  · have hlt := (List.pairwise_append.mp hpair).2.2 x hx y hout
    omega

/-- The first 500 records of the first window are what is reachable in it. -/
lemma take_firstWindow (e : ℤ) : (m.firstWindow rows e).take 500 =
    (m.reachable rows e).filter fun x => e - windowMs ≤ x.timestamp := by
  apply (h.chronological_available e).take_filter
  intro x y hlt hx
  exact decide_eq_true ((of_decide_eq_true hx).trans hlt.le)

omit h in
/-- The first window, by its two ends. -/
lemma firstWindow_eq (e : ℤ) : ((m.rates rows).filter fun x =>
    e - windowMs ≤ x.timestamp ∧ x.timestamp ≤ e) = m.firstWindow rows e := by
  simp [FundingMarket.firstWindow, FundingMarket.available, List.filter_filter]

/-- Before a row there are at most 499 rows of the window that ends at a later one. -/
lemma few_before {x a : FundingRate} (hx : x ∈ m.rates rows) (ha : a ∈ m.rates rows)
    (hlt : x.timestamp < a.timestamp) :
    (((m.rates rows).filter fun y =>
      a.timestamp - windowMs ≤ y.timestamp ∧ y.timestamp ≤ a.timestamp).filter
        fun y => y.timestamp < x.timestamp).length < 500 := by
  have hours : Chronological (fun r : FundingRow => hour r.settles) rows := h.hourly.hours
  -- of two rows the older one is in an earlier hour
  have hhour : ∀ r ∈ rows, ∀ r' ∈ rows, r.settles < r'.settles →
      hour r.settles < hour r'.settles := by
    intro r hr r' hr' hlt
    refine lt_of_le_of_ne (Int.ediv_le_ediv (by decide) hlt.le) fun heq => ?_
    obtain rfl := hours.eq_of_time hr hr' heq
    exact lt_irrefl _ hlt
  obtain ⟨rx, hrx, -, hxts⟩ := h.readsAs.mem hx
  obtain ⟨ra, hra, -, hats⟩ := h.readsAs.mem ha
  have hrow_lt : hour rx.settles < hour ra.settles := hhour rx hrx ra hra (by omega)
  rw [List.filter_filter, FundingMarket.rates, fundingRates,
    h.readsAs.filter fun t => decide (t < x.timestamp) &&
      decide (a.timestamp - windowMs ≤ t ∧ t ≤ a.timestamp),
    (h.readsAs.subset fun r hr => List.mem_of_mem_filter hr).length_eq]
  have hcount := h.hourly.length_le (a := hour ra.settles - 500) (b := hour rx.settles)
    (p := fun r => decide (r.settles < x.timestamp) &&
      decide (a.timestamp - windowMs ≤ r.settles ∧ r.settles ≤ a.timestamp)) fun r hr hp => by
    simp only [Bool.and_eq_true, decide_eq_true_eq] at hp
    obtain ⟨hbefore, hfrom, -⟩ := hp
    refine ⟨?_, hhour r hr rx hrx (by omega)⟩
    rw [hats] at hfrom
    simp only [hour, windowMs, fundingCycleMs] at hfrom ⊢
    omega
  omega

/-- The pages of the walk are windows over what is reachable. -/
lemma servesSince (limit : ℤ) :
    ServesSince FundingRate.timestamp (m.reachable rows (endOf startTime now))
      (fun endTs => endTs.getD (endOf startTime now) - windowMs) 500
      (fetchPage venue (parseFunding m)
        (getFundingRate m.coin m.cycleMs now startTime limit).query) := by
  intro n endTs hsets
  refine ⟨_, h.page limit endTs n, ?_⟩
  cases endTs with
  | none =>
    obtain rfl : n = 0 := hsets
    show (∀ x ∈ ((m.rates rows).filter fun x => endOf startTime now - windowMs ≤ x.timestamp ∧
      x.timestamp ≤ endOf startTime now).take 500, _) ∧ ∀ x ∈ _, _ → _ → x ∈
        ((m.rates rows).filter fun x => endOf startTime now - windowMs ≤ x.timestamp ∧
          x.timestamp ≤ endOf startTime now).take 500
    rw [firstWindow_eq, h.take_firstWindow]
    refine ⟨fun x hx => ?_, fun x hx hsince _ => ?_⟩
    · obtain ⟨hmem, hsince⟩ := List.mem_filter.mp hx
      exact ⟨hmem, of_decide_eq_true hsince, fun a ha => absurd ha (by simp)⟩
    · exact List.mem_filter.mpr ⟨hx, decide_eq_true hsince⟩
  | some t =>
    obtain ⟨a, ha, rfl⟩ := hsets
    obtain ⟨k, hk⟩ := h.reachable_eq_take (endOf startTime now)
    have hsub : ∀ x ∈ m.reachable rows (endOf startTime now), x ∈ m.rates rows := by
      intro x hx
      rw [hk] at hx
      exact List.mem_of_mem_take hx
    refine ⟨fun x hx => ?_, fun x hx hsince hbefore => ?_⟩
    · obtain ⟨hmem, hwindow⟩ := List.mem_filter.mp (List.mem_of_mem_take hx)
      obtain ⟨hfrom, huntil⟩ := of_decide_eq_true hwindow
      refine ⟨h.mem_reachable_of_le ha hmem huntil, hfrom, fun b hb => ?_⟩
      rw [← Option.some.inj hb]
      exact huntil
    · have hlt : x.timestamp < a.timestamp := hbefore _ rfl
      apply (h.chronological.sublist List.filter_sublist).mem_take
      · exact List.mem_filter.mpr ⟨hsub x hx, decide_eq_true ⟨hsince, hlt.le⟩⟩
      · exact h.few_before (hsub x hx) (hsub a ha) hlt

/-- A reachable record has a successor an hour on, or there is nothing newer. -/
lemma next_hour (e : ℤ) {x : FundingRate} (hx : x ∈ m.reachable rows e) :
    (∀ y ∈ m.reachable rows e, y.timestamp ≤ x.timestamp) ∨
      ∃ y ∈ m.reachable rows e, x.timestamp < y.timestamp ∧
        y.timestamp - windowMs ≤ x.timestamp := by
  obtain ⟨k, hk⟩ := h.reachable_eq_take e
  have hchain : (m.reachable rows e).IsChain
      fun x y => hour y.timestamp = hour x.timestamp + 1 := by
    rw [hk]
    exact h.hourly_rates.take k
  have hchrono := h.chronological_reachable e
  generalize m.reachable rows e = all at hx hchain hchrono
  obtain ⟨before, after, rfl⟩ := List.append_of_mem hx
  cases after with
  | nil =>
    left
    intro y hy
    rcases List.mem_append.mp hy with hin | hin
    · exact ((List.pairwise_append.mp hchrono).2.2 y hin x List.mem_cons_self).le
    · rw [List.mem_singleton.mp hin]
  | cons y after =>
    right
    refine ⟨y, by simp, ?_, ?_⟩
    · have htail := (List.pairwise_append.mp hchrono).2.1
      exact List.rel_of_pairwise_cons htail List.mem_cons_self
    · have hnext := (List.isChain_append.mp hchain).2.1
      have hstep := (List.isChain_cons_cons.mp hnext).1
      simp only [hour, windowMs, fundingCycleMs] at hstep ⊢
      omega

/-- Every reachable record is linked once the first window holds one. -/
lemma linked_iff {limit : ℕ} (hlimit : 1 ≤ limit) (e : ℤ) :
    (∀ x ∈ (m.reachable rows e).rtake limit, Linked FundingRate.timestamp (m.reachable rows e)
        (fun endTs => endTs.getD e - windowMs) x) ↔
      (m.reachable rows e ≠ [] → ∃ x ∈ m.reachable rows e, e - windowMs ≤ x.timestamp) := by
  constructor
  · intro hlinked hne
    obtain ⟨z, hz, hnewest, htail⟩ := (h.chronological_reachable e).exists_newest hne
    rcases hlinked z (htail limit hlimit) with hwindow | ⟨y, hy, hlt, -⟩
    · exact ⟨z, hz, hwindow⟩
    · exact absurd (hnewest y hy) hlt.not_ge
  · intro hfirst x hx
    have hx := List.mem_of_mem_drop hx
    rcases h.next_hour e hx with hnewest | hnext
    · obtain ⟨z, hz, hwindow⟩ := hfirst (List.ne_nil_of_mem hx)
      exact Or.inl (hwindow.trans (hnewest z hz))
    · exact Or.inr hnext

lemma windowAt_length (e : ℤ) : (windowAt e rows).length = (m.firstWindow rows e).length := by
  have hread := h.readsAs.filter fun t => decide (e - windowMs ≤ t ∧ t ≤ e)
  have hlength := (h.readsAs.subset fun r hr => List.mem_of_mem_filter
    (p := fun r => decide (e - windowMs ≤ r.settles ∧ r.settles ≤ e)) hr).length_eq
  rw [← hread] at hlength
  rw [windowAt, ← hlength, ← firstWindow_eq, FundingMarket.rates, fundingRates]

/-- A call may return nothing just when every row is later. -/
lemma available_eq_nil_iff (e : ℤ) : m.available rows e = [] ↔ ∀ r ∈ rows, e < r.settles := by
  have hread := h.readsAs.filter fun t => decide (t ≤ e)
  have hlength := (h.readsAs.subset fun r hr => List.mem_of_mem_filter
    (p := fun r => decide (r.settles ≤ e)) hr).length_eq
  rw [← hread] at hlength
  rw [FundingMarket.available, ← List.length_eq_zero_iff, FundingMarket.rates, fundingRates,
    hlength, List.length_eq_zero_iff, List.filter_eq_nil_iff]
  simp

/-- Something of the first window is reachable when the window is not empty. -/
lemma exists_in_window (e : ℤ) : (∃ x ∈ m.reachable rows e, e - windowMs ≤ x.timestamp) ↔
    (m.firstWindow rows e).length ≠ 0 := by
  have hlength := congrArg List.length (h.take_firstWindow e)
  rw [List.length_take] at hlength
  constructor
  · rintro ⟨x, hx, hwindow⟩
    have hmem : x ∈ (m.reachable rows e).filter fun x => e - windowMs ≤ x.timestamp :=
      List.mem_filter.mpr ⟨hx, decide_eq_true hwindow⟩
    have hpos := List.length_pos_of_mem hmem
    omega
  · intro hne
    have hpos : 0 < ((m.reachable rows e).filter fun x => e - windowMs ≤ x.timestamp).length := by
      omega
    obtain ⟨x, hx⟩ := List.exists_mem_of_length_pos hpos
    obtain ⟨hmem, hwindow⟩ := List.mem_filter.mp hx
    exact ⟨x, hmem, of_decide_eq_true hwindow⟩

/-- The newest record is lost with the rows over 500. -/
lemma rtake_ne {limit : ℕ} (hlimit : 1 ≤ limit) {e : ℤ}
    (hmany : 500 < (m.firstWindow rows e).length) :
    (m.reachable rows e).rtake limit ≠ (m.available rows e).rtake limit := by
  have hchrono := h.chronological_available e
  have hle : (m.firstWindow rows e).length ≤ (m.available rows e).length :=
    List.length_filter_le _ _
  have hne : m.available rows e ≠ [] := by
    intro hnil
    rw [hnil, List.length_nil] at hle
    omega
  obtain ⟨z, -, -, htail⟩ := hchrono.exists_newest hne
  intro heq
  have hin : z ∈ m.reachable rows e := by
    have hmem := htail limit hlimit
    rw [← heq] at hmem
    exact List.mem_of_mem_drop hmem
  have hout : z ∈ (m.available rows e).rtake ((m.firstWindow rows e).length - 500) :=
    htail _ (by omega)
  have hsplit : m.reachable rows e ++
      (m.available rows e).rtake ((m.firstWindow rows e).length - 500) = m.available rows e :=
    List.take_append_drop _ _
  have hpair := hsplit ▸ hchrono
  exact lt_irrefl _ ((List.pairwise_append.mp hpair).2.2 z hin z hout)

/-- What a walk that the cap does not end returns. -/
lemma walk_iff {κ : Type*} [DecidableEq κ] {modelDumpJson : FundingRate → κ}
    (hdump : DumpsTime FundingRate.timestamp modelDumpJson) (limit : ℕ) (hlimit : 1 ≤ limit)
    (hcap : ¬ (pageRun FundingRate.timestamp modelDumpJson (fetchPage venue (parseFunding m)
      (getFundingRate m.coin m.cycleMs now startTime limit).query) limit 500).1.truncated limit) :
    (fundingRateCall modelDumpJson m venue now startTime limit).result =
        .ok ((m.reachable rows (endOf startTime now)).rtake limit) ↔
      (m.reachable rows (endOf startTime now) ≠ [] →
        (m.firstWindow rows (endOf startTime now)).length ≠ 0) := by
  obtain ⟨k, hk⟩ := h.reachable_eq_take (endOf startTime now)
  have hpos : ∀ x ∈ m.reachable rows (endOf startTime now), 0 < x.timestamp := by
    intro x hx
    rw [hk] at hx
    have hlarge := h.settled.rate_dated x (List.mem_of_mem_take hx)
    omega
  rw [← h.exists_in_window, ← h.linked_iff hlimit]
  exact paginateBackwards_windows hlimit (h.chronological_reachable _) hpos hdump
    (fun a b hab => by simpa using hab) (h.servesSince limit) hcap

end FundingSetting

/-- A walk that the cap does not end returns the newest rows at or before the start exactly when
the first window, 500 hours up to the start, holds no more than the 500 rows of a page, and is
empty only where there is no row at or before the start at all. -/
theorem fundingRate_exact_iff {κ : Type*} [DecidableEq κ] {modelDumpJson : FundingRate → κ}
    (h : FundingSetting m venue now startTime rows)
    (hdump : DumpsTime FundingRate.timestamp modelDumpJson) {limit : ℕ} (hlimit : 1 ≤ limit)
    (hcap : ¬ (pageRun FundingRate.timestamp modelDumpJson (fetchPage venue (parseFunding m)
      (getFundingRate m.coin m.cycleMs now startTime limit).query) limit 500).1.truncated limit) :
    (fundingRateCall modelDumpJson m venue now startTime limit).result =
        .ok ((upTo FundingRate.timestamp startTime (m.rates rows)).rtake limit) ↔
      (windowAt (endOf startTime now) rows).length ≤ 500 ∧
        (windowAt (endOf startTime now) rows = [] → ∀ r ∈ rows, endOf startTime now < r.settles) := by
  have hwalk := h.walk_iff hdump limit hlimit hcap
  rw [h.upTo_eq, h.windowAt_length, ← h.available_eq_nil_iff, ← List.length_eq_zero_iff,
    h.windowAt_length]
  rcases Nat.lt_or_ge 500 (m.firstWindow rows (endOf startTime now)).length with hmany | hfew
  · -- the first page is cut at its newer end
    have hreached := hwalk.mpr fun _ => by omega
    rw [hreached, Except.ok.injEq]
    refine ⟨fun heq => absurd heq (h.rtake_ne hlimit hmany), fun hcond => ?_⟩
    omega
  · have hwhole : m.reachable rows (endOf startTime now) =
        m.available rows (endOf startTime now) := by
      rw [FundingMarket.reachable, Nat.sub_eq_zero_of_le hfew, Nat.sub_zero, List.take_length]
    rw [hwhole] at hwalk
    rw [hwalk]
    constructor
    · exact fun hwindow => ⟨hfew, fun hzero => by_contra fun hne => hwindow hne hzero⟩
    · exact fun hcond hne hzero => hne (hcond.2 hzero)

end

/-! ## A window with a row more than a page -/

/-- One row on the hour of each of `n` hours. -/
def hourlyRows (n : ℕ) : List FundingRow :=
  (List.range n).map fun i : ℕ => ⟨"BTC", some (1699999200000 + 3600000 * (i : ℤ)), some 0⟩

lemma mem_hourlyRows {n : ℕ} {r : FundingRow} (hr : r ∈ hourlyRows n) :
    ∃ i < n, r = ⟨"BTC", some (1699999200000 + 3600000 * (i : ℤ)), some 0⟩ := by
  obtain ⟨i, hi, rfl⟩ := List.mem_map.mp hr
  exact ⟨i, List.mem_range.mp hi, rfl⟩

/-- A venue that holds these rows, oldest first. -/
def serveFunding (rows : List FundingRow) : Venue (List FundingRow) := fun _ q =>
  match q.params.lookup "startTime", q.params.lookup "endTime" with
  | some (.int a), some (.int b) =>
    .ok ((rows.filter fun r => a ≤ r.settles ∧ r.settles ≤ b).take 500)
  | _, _ => .ok []

/-- BTC, with no interval of its own. -/
def btc : FundingMarket := ⟨"BTC", "USDC", "BTC", none⟩

lemma setting_hourlyRows (n : ℕ) (start : ℤ) :
    FundingSetting btc (serveFunding (hourlyRows n)) (fun _ => 0) (some start)
      (hourlyRows n) where
  interval := fun c hc => absurd hc (by simp [btc])
  hourly := by
    rw [Hourly, hourlyRows, List.isChain_map, List.isChain_range]
    intro i _
    simp only [hour, fundingCycleMs, FundingRow.settles, Option.getD_some]
    omega
  sound := by
    intro r hr
    obtain ⟨i, -, rfl⟩ := mem_hourlyRows hr
    exact ⟨by simp, 1699999200000 + 3600000 * (i : ℤ), rfl, by omega⟩
  serves := by
    intro k q a b _ _ hstart hend
    refine ⟨_, by simp only [serveFunding, hstart, hend], List.Perm.refl _⟩
  past := fun hnone => absurd hnone (by simp)

/-- The start is the time of a row with 500 hours of rows before it, and the row is left out. -/
theorem fundingRate_misses_start :
    FundingSetting btc (serveFunding (hourlyRows 501)) (fun _ => 0) (some 1701799200000)
        (hourlyRows 501) ∧
      (fundingRateCall id btc (serveFunding (hourlyRows 501)) (fun _ => 0) (some 1701799200000)
          1).result ≠
        .ok ((upTo FundingRate.timestamp (some 1701799200000)
          (btc.rates (hourlyRows 501))).rtake 1) := by
  have hsetting := setting_hourlyRows 501 1701799200000
  refine ⟨hsetting, ?_⟩
  have hmany : 500 < (btc.firstWindow (hourlyRows 501) 1701799200000).length := by
    rw [← hsetting.windowAt_length, windowAt, List.filter_eq_self.mpr]
    · rw [hourlyRows, List.length_map, List.length_range]
      omega
    · intro r hr
      obtain ⟨i, hi, rfl⟩ := mem_hourlyRows hr
      apply decide_eq_true
      simp only [windowMs, fundingCycleMs, FundingRow.settles, Option.getD_some]
      omega
  have hdump : DumpsTime FundingRate.timestamp (id : FundingRate → FundingRate) :=
    fun _ _ heq => congrArg _ heq
  have hwalk := (hsetting.walk_iff hdump 1 le_rfl
    (not_truncated_of_le _ _ (by decide))).mpr fun _ => by
      show (btc.firstWindow (hourlyRows 501) 1701799200000).length ≠ 0
      omega
  rw [hsetting.upTo_eq]
  intro hexact
  have hsame := Except.ok.inj (hwalk.symm.trans hexact)
  exact hsetting.rtake_ne le_rfl hmany hsame

/-- Three rows, two of them asked for. -/
theorem fundingRate_exact_iff_three :
    (fundingRateCall id btc (serveFunding (hourlyRows 3)) (fun _ => 0) (some 1700006400000)
        (2 : ℕ)).result =
      .ok ((upTo FundingRate.timestamp (some 1700006400000) (btc.rates (hourlyRows 3))).rtake 2) := by
  have hdump : DumpsTime FundingRate.timestamp (id : FundingRate → FundingRate) :=
    fun _ _ heq => congrArg _ heq
  exact (fundingRate_exact_iff (setting_hourlyRows 3 1700006400000) hdump (by decide)
    (not_truncated_of_le _ _ (by decide))).mpr (by decide)

end Hyperliquid

end ExchangeRouter
