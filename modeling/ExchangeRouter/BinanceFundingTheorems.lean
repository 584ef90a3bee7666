import ExchangeRouter.FundingHistories

/-!
# The funding walk of Binance

A request for a window brings its oldest rows, and one without a window the newest. The walk
keeps a tail of the history (`Held`) as long as each window it reaches fits into one answer, and
with the first window that does not it gets a hole that no later window fills (`Holed`). So what
comes back is a run of rows that ends at the newest one exactly where the windows fit
(`getFundingRate_noHoles`).
-/

namespace ExchangeRouter

open Newest

namespace Binance

/-! ## The rows of the venue -/

/-- A row that has a rate and a positive time. -/
def Posted (r : FundingRow) : Prop := r.fundingRate ≠ none ∧ ∃ t, r.time = some t ∧ 0 < t

/-- A time that `normalize_timestamp` leaves as it is: it takes an earlier one for seconds. -/
def Kept (r : FundingRow) : Prop := 100000000000 ≤ r.settles

instance (r : FundingRow) : Decidable (Kept r) :=
  inferInstanceAs (Decidable (100000000000 ≤ r.settles))

lemma Posted.sound {r : FundingRow} (h : Posted r) (hkept : Kept r) : r.Sound := by
  obtain ⟨hrate, t, ht, -⟩ := h
  refine ⟨hrate, t, ht, ?_⟩
  simpa [Kept, FundingRow.settles, ht] using hkept

/-- The record of a row, under the row's own time. -/
def FundingMarket.rate (m : FundingMarket) (r : FundingRow) : Option FundingRate :=
  r.fundingRate.map fun x => ⟨m.modelSymbol r.symbol, m.marketType, m.quote,
    buildFundingHistorical "discrete" x m.cycleMs, r.settles⟩

/-- The records of the rows that have a rate. -/
def FundingMarket.rates (m : FundingMarket) (rows : List FundingRow) : List FundingRate :=
  rows.filterMap m.rate

/-- The rows in a closed window. -/
def between (startTime endTime : ℤ) (rows : List FundingRow) : List FundingRow :=
  rows.filter fun r => startTime ≤ r.settles ∧ r.settles ≤ endTime

/-- A window is answered with its oldest rows, and a request without one with the newest. -/
structure ServesFunding (m : FundingMarket) (venue : Venue (List FundingRow))
    (rows : List FundingRow) : Prop where
  newest : ∀ n (limit : ℕ), venue n (m.newestQuery limit) = .ok (rows.rtake limit)
  window : ∀ n (limit : ℕ) startTime endTime, venue n (m.windowQuery limit startTime endTime) =
    .ok ((between startTime endTime rows).take limit)

/-- Rows of different times, oldest first. -/
structure History (rows : List FundingRow) : Prop where
  chronological : Chronological FundingRow.settles rows
  posted : ∀ r ∈ rows, Posted r

section

variable {m : FundingMarket} {venue : Venue (List FundingRow)} {rows : List FundingRow}

lemma History.sublist {rows' : List FundingRow} (h : History rows) (hsub : rows'.Sublist rows) :
    History rows' :=
  ⟨h.chronological.sublist hsub, fun r hr => h.posted r (hsub.subset hr)⟩

lemma History.readsAs (h : History rows) :
    ReadsAs FundingRate.timestamp FundingRow.settles m.rate rows := by
  intro r hr
  obtain ⟨x, hx⟩ := Option.ne_none_iff_exists'.mp (h.posted r hr).1
  exact ⟨_, by rw [FundingMarket.rate, hx]; rfl, rfl⟩

lemma History.chronological_rates (h : History rows) :
    Chronological FundingRate.timestamp (m.rates rows) :=
  h.readsAs.chronological h.chronological

/-- A row that `normalize_timestamp` keeps is read as its record. -/
lemma Posted.read {r : FundingRow} (h : Posted r) (hkept : Kept r) :
    ∃ c, r.read (fun r => m.modelSymbol r.symbol) m.marketType m.quote m.cycleMs = .ok c ∧
      m.rate r = some c := by
  obtain ⟨x, hx⟩ := Option.ne_none_iff_exists'.mp h.1
  obtain ⟨-, t, ht, hlarge⟩ := h.sound hkept
  have htime : KlineRow.time ⟨r.time, []⟩ = .ok r.settles := KlineRow.Dated.time ⟨t, ht, hlarge⟩
  refine ⟨_, ?_, by rw [FundingMarket.rate, hx]; rfl⟩
  unfold FundingRow.read
  rw [hx, htime]
  rfl

/-- A page of such rows is read as their records. -/
lemma History.fundingPage (h : History rows) {n : ℕ} {query : Query} {page : List FundingRow}
    (hreply : venue n query = .ok page) (hsub : page ⊆ rows) (hkept : ∀ r ∈ page, Kept r) :
    fundingPage m venue n query = .ok (m.rates page) := by
  have hread : ∀ r ∈ page, ∃ c,
      r.read (fun r => m.modelSymbol r.symbol) m.marketType m.quote m.cycleMs = .ok c ∧
        m.rate r = some c := fun r hr => (h.posted r (hsub hr)).read (hkept r hr)
  show (venue n query).bind _ = _
  rw [hreply]
  show page.mapM _ = _
  rw [Fallible.mapM_eq_filterMap fun r hr => (hread r hr).imp fun _ => And.left]
  congr 1
  apply List.filterMap_congr
  intro r hr
  obtain ⟨c, hc, hrate⟩ := hread r hr
  rw [hc, hrate]
  rfl

lemma between_sublist (startTime endTime : ℤ) : (between startTime endTime rows).Sublist rows :=
  List.filter_sublist

end

/-! ## What comes back, and when -/

/-- A run of the market's records that ends at the newest one at or before the start. -/
def NoHoles (m : FundingMarket) (rows : List FundingRow) (startTime : Option ℤ)
    (result : Except Fault (List FundingRate)) : Prop :=
  ∃ xs, result = .ok xs ∧ xs <:+ upTo FundingRate.timestamp startTime (m.rates rows) ∧
    (upTo FundingRate.timestamp startTime (m.rates rows) ≠ [] → xs ≠ [])

/-- Such a run is in time order, without a record twice. -/
lemma NoHoles.chronological {m : FundingMarket} {rows : List FundingRow} {startTime : Option ℤ}
    {result : Except Fault (List FundingRate)} (h : History rows)
    (hrun : NoHoles m rows startTime result) :
    ∃ xs, result = .ok xs ∧ Chronological FundingRate.timestamp xs := by
  obtain ⟨xs, hxs, hsuffix, -⟩ := hrun
  exact ⟨xs, hxs, h.chronological_rates.sublist (hsuffix.sublist.trans List.filter_sublist)⟩

/-- The window of the request that follows on the newest `k` rows. -/
def nextWindow (cadence : ℤ) (rows : List FundingRow) (k : ℕ) : List FundingRow :=
  match rows.rtake k with
  | [] => []
  | oldest :: _ =>
    between (max 0 (oldest.settles - 1000 * cadence)) (oldest.settles - 1) rows

/-- Each window that the walk reaches fits into one answer, and has only rows after 1973. -/
def Fits (cadence : ℤ) (limit : ℕ) (rows : List FundingRow) : ℕ → ℕ → Prop
  | 0, _ => True
  | pages + 1, k => k < limit →
    (nextWindow cadence rows k).length ≤ 1000 ∧ (∀ r ∈ nextWindow cadence rows k, Kept r) ∧
      (nextWindow cadence rows k ≠ [] →
        Fits cadence limit rows pages (k + (nextWindow cadence rows k).length))

/-- The windows of a call fit. Without a start there is a row to begin with. -/
def Covered (m : FundingMarket) (rows : List FundingRow) (startTime : Option ℤ) (limit : ℕ) :
    Prop :=
  match startTime with
  | some start =>
    let window := between (max 0 (start - min limit 1000 * m.cycleMs)) start rows
    window.length ≤ min limit 1000 ∧ (∀ r ∈ window, Kept r) ∧
      (window = [] → (rows.filter fun r => r.settles ≤ start) = [])
  | none =>
    let recent := rows.rtake (min limit 200)
    rows ≠ [] ∧ (∀ r ∈ recent, Kept r) ∧
      Fits (cadenceMs (recent.map FundingRow.settles)) limit rows 10 recent.length

/-! ## With a start -/

section

variable {m : FundingMarket} {venue : Venue (List FundingRow)} {rows : List FundingRow}

/-- The records at or before a start are those of the rows at or before it. -/
lemma History.upTo_rates (h : History rows) (start : ℤ) :
    upTo FundingRate.timestamp (some start) (m.rates rows) =
      m.rates (rows.filter fun r => r.settles ≤ start) :=
  h.readsAs.filter fun t => decide (t ≤ start)

/-- A window that ends at the start holds the newest of the rows at or before it. -/
lemma between_suffix (h : History rows) (startTime endTime : ℤ) :
    between startTime endTime rows <:+ rows.filter fun r => r.settles ≤ endTime := by
  have hsplit : between startTime endTime rows =
      (rows.filter fun r => r.settles ≤ endTime).filter fun r => startTime ≤ r.settles := by
    unfold between
    rw [List.filter_filter]
    apply List.filter_congr
    intro r _
    rw [Bool.eq_iff_iff, Bool.and_eq_true, decide_eq_true_iff, decide_eq_true_iff,
      decide_eq_true_iff]
  rw [hsplit]
  have hchrono := (h.sublist (List.filter_sublist (p := fun r => decide (r.settles ≤ endTime)))
    ).chronological
  rw [hchrono.filter_tail (p := fun r => decide (startTime ≤ r.settles))
    fun x y hlt hx => decide_eq_true ((of_decide_eq_true hx).trans hlt.le)]
  exact List.drop_suffix _ _

/-- What is returned under a start is the answer to one request. -/
lemma getFundingRate_start (h : History rows) (hserves : ServesFunding m venue rows) (start : ℤ)
    {limit : ℕ} (hlimit : 1 ≤ limit)
    (hkept : ∀ r ∈ between (max 0 (start - min limit 1000 * m.cycleMs)) start rows, Kept r) :
    (getFundingRate m venue (some start) limit).result = .ok (m.rates
      ((between (max 0 (start - min limit 1000 * m.cycleMs)) start rows).take (min limit 1000))) := by
  have hreply := hserves.window 0 (min limit 1000)
    (max 0 (start - min limit 1000 * m.cycleMs)) start
  have hmin : min (limit : ℤ) 1000 = (min limit 1000 : ℕ) := by omega
  have hsub : between (max 0 (start - min limit 1000 * m.cycleMs)) start rows ⊆ rows :=
    (between_sublist _ _).subset
  generalize between (max 0 (start - min limit 1000 * m.cycleMs)) start rows = window
    at hreply hkept hsub ⊢
  have hpage := h.fundingPage (m := m) hreply (fun r hr => hsub (List.mem_of_mem_take hr))
    fun r hr => hkept r (List.mem_of_mem_take hr)
  have hshort : (m.rates (window.take (min limit 1000))).length ≤ limit := by
    have hle := List.length_filterMap_le m.rate (window.take (min limit 1000))
    rw [List.length_take] at hle
    unfold FundingMarket.rates
    omega
  show (fundingPage m venue 0 (m.windowQuery (min (limit : ℤ) 1000)
    (max 0 (start - min (limit : ℤ) 1000 * m.cycleMs)) start)).map _ = _
  rw [hmin, hpage]
  show Except.ok (sliceTail _ _) = _
  rw [sliceTail, if_pos (by omega), Int.toNat_natCast, rtake_of_le hshort]

/-- The call with a start has no hole when its window is covered, and on rows after 1973 only
then. -/
lemma start_noHoles (h : History rows) (hserves : ServesFunding m venue rows) (start : ℤ)
    {limit : ℕ} (hlimit : 1 ≤ limit)
    (hkept : ∀ r ∈ between (max 0 (start - min limit 1000 * m.cycleMs)) start rows, Kept r) :
    NoHoles m rows (some start) (getFundingRate m venue (some start) limit).result ↔
      (between (max 0 (start - min limit 1000 * m.cycleMs)) start rows).length ≤ min limit 1000 ∧
        (between (max 0 (start - min limit 1000 * m.cycleMs)) start rows = [] →
          (rows.filter fun r => r.settles ≤ start) = []) := by
  have hsuffix := between_suffix h (max 0 (start - min limit 1000 * m.cycleMs)) start
  have hresult := getFundingRate_start h hserves start hlimit hkept
  have hhistory := h.sublist (List.filter_sublist (p := fun r => decide (r.settles ≤ start)))
  have hlength := hhistory.readsAs.length_eq (f := m.rate)
  unfold NoHoles
  rw [hresult, h.upTo_rates]
  have hwindow : History (between (max 0 (start - min limit 1000 * m.cycleMs)) start rows) :=
    h.sublist (between_sublist _ _)
  generalize between (max 0 (start - min limit 1000 * m.cycleMs)) start rows = window
    at hsuffix hwindow ⊢
  generalize (rows.filter fun r => decide (r.settles ≤ start)) = before at hsuffix hlength ⊢
  have hrates : m.rates window <:+ m.rates before := hsuffix.filterMap m.rate
  have hempty : m.rates before = [] ↔ before = [] := by
    rw [← List.length_eq_zero_iff, ← List.length_eq_zero_iff, FundingMarket.rates, hlength]
  have hcount : (m.rates window).length = window.length := hwindow.readsAs.length_eq
  have htake : m.rates (window.take (min limit 1000)) = (m.rates window).take (min limit 1000) :=
    (hwindow.readsAs.take _).symm
  rw [htake]
  constructor
  · rintro ⟨xs, hxs, hrun, hsome⟩
    obtain rfl : (m.rates window).take (min limit 1000) = xs := Except.ok.inj hxs
    refine ⟨?_, fun hnone => ?_⟩
    · rw [← hcount]
      by_contra hmore
      have hne : m.rates before ≠ [] := by
        intro hnil
        rw [hnil, List.suffix_nil] at hrates
        rw [hrates] at hmore
        exact hmore (Nat.zero_le _)
      apply hmore
      refine length_le_of_take_suffix hwindow.chronological_rates.nodup (hsome hne) ?_
      exact List.suffix_of_suffix_length_le hrun hrates (List.length_take_le' _ _)
    · by_contra hne
      apply hsome fun hnil => hne (hempty.mp hnil)
      rw [hnone]
      exact List.take_nil
  · rintro ⟨hle, hnone⟩
    rw [List.take_of_length_le (by omega)]
    refine ⟨_, rfl, hrates, fun hne hnil => hne ?_⟩
    have hwindow_nil : window = [] := by
      rw [← List.length_eq_zero_iff, ← hcount, hnil]
      rfl
    exact hempty.mpr (hnone hwindow_nil)

end

/-! ## Without a start -/

section

variable {m : FundingMarket} {venue : Venue (List FundingRow)} {rows : List FundingRow}
  {cadence : ℤ} {w : FundingWalk}

/-- One round, on a window whose rows are after 1973. -/
lemma fundingStep_eq (h : History rows) (hserves : ServesFunding m venue rows) {oldest : ℤ}
    (hmin : (w.collected.map FundingRate.timestamp).min? = some oldest)
    (hseen : w.seen = w.collected.map FundingRate.timestamp) {part : List FundingRow}
    (hpart : part = (between (max 0 (oldest - 1000 * cadence)) (oldest - 1) rows).take 1000)
    (hkept : ∀ r ∈ part, Kept r) :
    ∃ asked, fundingStep m venue cadence w =
      if part = [] then .stop ⟨asked, w.collected, w.seen⟩ none
      else .again ⟨asked, w.collected ++ m.rates part,
        (w.collected ++ m.rates part).map FundingRate.timestamp⟩ := by
  have hpart_rows : part.Sublist rows := by
    rw [hpart]
    exact (List.take_sublist _ _).trans (between_sublist _ _)
  have hreads := (h.sublist hpart_rows).readsAs (m := m)
  have hreply := hserves.window w.asked.length 1000 (max 0 (oldest - 1000 * cadence)) (oldest - 1)
  rw [← hpart, Nat.cast_ofNat] at hreply
  have hpage := h.fundingPage (m := m) hreply hpart_rows.subset hkept
  -- what the window brings is older than everything that was seen
  have hnew : (m.rates part).filter (fun r => decide (r.timestamp ∉ w.seen)) = m.rates part := by
    rw [List.filter_eq_self]
    intro c hc
    apply decide_eq_true
    intro hold
    obtain ⟨r, hr, -, hts⟩ := hreads.mem hc
    rw [hpart] at hr
    have hwindow := of_decide_eq_true (List.mem_filter.mp (List.mem_of_mem_take hr)).2
    rw [hseen] at hold
    have hle := (List.min?_eq_some_iff.mp hmin).2 c.timestamp hold
    omega
  have hcount := hreads.length_eq
  refine ⟨w.asked ++ [m.windowQuery 1000 (max 0 (oldest - 1000 * cadence)) (oldest - 1)], ?_⟩
  unfold fundingStep
  simp only [hmin, hpage, hnew]
  cases hrates : m.rates part with
  | nil =>
    rw [← FundingMarket.rates, hrates] at hcount
    rw [if_pos (List.length_eq_zero_iff.mp hcount.symm)]
  | cons r new =>
    have hsome : part ≠ [] := by
      rintro rfl
      exact absurd hrates.symm (List.cons_ne_nil _ _)
    rw [if_neg hsome, hseen, List.map_append]

/-- The rows of the next window stand right before the newest `k`. -/
lemma nextWindow_append (h : History rows) (k : ℕ) :
    nextWindow cadence rows k ++ rows.rtake k =
      rows.rtake (k + (nextWindow cadence rows k).length) := by
  cases htail : rows.rtake k with
  | nil =>
    have hnone : nextWindow cadence rows k = [] := by
      unfold nextWindow
      rw [htail]
    rw [hnone, List.length_nil, Nat.add_zero, htail]
    rfl
  | cons x rest =>
    have hwindow : nextWindow cadence rows k =
        between (max 0 (x.settles - 1000 * cadence)) (x.settles - 1) rows := by
      unfold nextWindow
      rw [htail]
    have hbefore : (rows.filter fun r => r.settles ≤ x.settles - 1) =
        rows.take (rows.length - k) := by
      rw [← h.chronological.filter_before htail]
      apply List.filter_congr
      intro r _
      rw [Bool.eq_iff_iff, decide_eq_true_iff, decide_eq_true_iff]
      omega
    have hsuffix := between_suffix h (max 0 (x.settles - 1000 * cadence)) (x.settles - 1)
    rw [← hwindow, hbefore] at hsuffix
    have hrtake := List.suffix_iff_eq_drop.mp hsuffix
    rw [← htail, ← rtake_append_rtake rows (Nat.le_add_right k _), Nat.add_sub_cancel_left]
    conv_lhs => rw [hrtake]
    rfl

/-- The walk holds the newest `k` rows. -/
structure Held (m : FundingMarket) (rows : List FundingRow) (k : ℕ) (w : FundingWalk) : Prop where
  collected : w.collected.Perm (m.rates (rows.rtake k))
  seen : w.seen = w.collected.map FundingRate.timestamp
  pos : 1 ≤ k
  le : k ≤ rows.length

lemma Held.length_eq (h : History rows) {k : ℕ} (hw : Held m rows k w) :
    w.collected.length = k := by
  have htail := h.sublist (List.drop_sublist (rows.length - k) rows)
  have hle := hw.le
  rw [hw.collected.length_eq]
  show (m.rates (rows.drop (rows.length - k))).length = k
  rw [FundingMarket.rates, htail.readsAs.length_eq, List.length_drop]
  omega

/-- The oldest record is that of the oldest of the rows. -/
lemma Held.min_eq (h : History rows) {k : ℕ} (hw : Held m rows k w) :
    ∃ x rest, rows.rtake k = x :: rest ∧
      (w.collected.map FundingRate.timestamp).min? = some x.settles := by
  have htail := h.sublist (List.drop_sublist (rows.length - k) rows)
  have hne : rows.rtake k ≠ [] := by
    have hpos := hw.pos
    have hle := hw.le
    rw [ne_eq, ← List.length_eq_zero_iff, length_rtake]
    omega
  obtain ⟨x, rest, hx⟩ := List.exists_cons_of_ne_nil hne
  refine ⟨x, rest, hx, List.min?_eq_some_iff.mpr ⟨?_, fun t ht => ?_⟩⟩
  · obtain ⟨c, hc, hts⟩ := htail.readsAs (m := m) x (by rw [← List.rtake, hx]; simp)
    rw [← hts]
    apply List.mem_map_of_mem
    rw [hw.collected.mem_iff, hx]
    exact List.mem_filterMap.mpr ⟨x, by simp, hc⟩
  · obtain ⟨c, hc, rfl⟩ := List.mem_map.mp ht
    obtain ⟨r, hr, -, hts⟩ := htail.readsAs.mem (hw.collected.mem_iff.mp hc)
    have hascending := htail.chronological.ascending
    rw [← List.rtake, hx] at hr hascending
    rw [hts]
    exact hascending.head_le FundingRow.settles r hr

/-- A round either finds nothing more or extends the tail by its window, which may be cut. -/
lemma Held.step (h : History rows) (hserves : ServesFunding m venue rows) {k : ℕ}
    (hw : Held m rows k w) (hkept : ∀ r ∈ nextWindow cadence rows k, Kept r) :
    ∃ asked, fundingStep m venue cadence w =
      if nextWindow cadence rows k = [] then .stop ⟨asked, w.collected, w.seen⟩ none
      else .again ⟨asked, w.collected ++ m.rates ((nextWindow cadence rows k).take 1000),
        (w.collected ++ m.rates ((nextWindow cadence rows k).take 1000)).map
          FundingRate.timestamp⟩ := by
  obtain ⟨x, rest, hx, hmin⟩ := hw.min_eq h
  have hwindow : nextWindow cadence rows k =
      between (max 0 (x.settles - 1000 * cadence)) (x.settles - 1) rows := by
    unfold nextWindow
    rw [hx]
  obtain ⟨asked, hstep⟩ := fundingStep_eq h hserves hmin hw.seen (by rw [← hwindow])
    fun r hr => hkept r (List.mem_of_mem_take hr)
  refine ⟨asked, hstep.trans ?_⟩
  simp only [List.take_eq_nil_iff, OfNat.ofNat_ne_zero, false_or]

/-- A window that fits into one answer leaves no hole. -/
lemma Held.append (h : History rows) {k : ℕ} (hw : Held m rows k w) (asked : List Query)
    (hfits : (nextWindow cadence rows k).length ≤ 1000) :
    Held m rows (k + (nextWindow cadence rows k).length)
      ⟨asked, w.collected ++ m.rates ((nextWindow cadence rows k).take 1000),
        (w.collected ++ m.rates ((nextWindow cadence rows k).take 1000)).map
          FundingRate.timestamp⟩ := by
  have happend : nextWindow cadence rows k ++ rows.rtake k = _ := nextWindow_append h k
  have hpos := hw.pos
  have hle := hw.le
  refine ⟨?_, rfl, by omega, ?_⟩
  · have hrates : m.rates (nextWindow cadence rows k ++ rows.rtake k) =
        m.rates (nextWindow cadence rows k) ++ m.rates (rows.rtake k) := List.filterMap_append
    rw [List.take_of_length_le hfits, ← happend, hrates]
    exact (hw.collected.append_right _).trans List.perm_append_comm
  · have hlength := congrArg List.length happend
    rw [List.length_append, length_rtake, length_rtake] at hlength
    omega

/-- As long as the windows fit, the walk ends with a tail of the history. Induction on the pages
that are left. -/
lemma Held.loop (h : History rows) (hserves : ServesFunding m venue rows) {limit : ℕ} (pages : ℕ)
    {k : ℕ} (hw : Held m rows k w) (hfits : Fits cadence limit rows pages k) :
    (fundingLoop m venue cadence limit pages w).2 = none ∧
      ∃ k', Held m rows k' (fundingLoop m venue cadence limit pages w).1 := by
  induction pages generalizing k w with
  | zero => exact ⟨rfl, k, hw⟩
  | succ pages ih =>
    unfold fundingLoop
    split
    · next hmore =>
      rw [hw.length_eq h, Nat.cast_lt] at hmore
      obtain ⟨hshort, hkept, hnext⟩ := hfits hmore
      obtain ⟨asked, hstep⟩ := hw.step h hserves hkept
      rw [hstep]
      by_cases hnone : nextWindow cadence rows k = []
      · rw [if_pos hnone]
        exact ⟨rfl, k, hw.collected, hw.seen, hw.pos, hw.le⟩
      · rw [if_neg hnone]
        exact ih (hw.append h asked hshort) (hnext hnone)
    · exact ⟨rfl, k, hw⟩

/-- The walk has a hole: fewer than `limit` rows are newer than `z`, older records are held, and
the record of `z` is not. -/
structure Holed (rows : List FundingRow) (limit : ℕ) (z : FundingRow) (w : FundingWalk) : Prop where
  newer : ∃ k < limit, k < w.collected.length ∧ z ∈ rows.rtake (k + 1)
  older : ∃ c ∈ w.collected, c.timestamp < z.settles
  missing : ∀ c ∈ w.collected, c.timestamp ≠ z.settles
  seen : w.seen = w.collected.map FundingRate.timestamp

/-- A window that does not fit leaves out its newest row. -/
lemma Held.holed (h : History rows) {limit k : ℕ} (hw : Held m rows k w) (hk : k < limit)
    (asked : List Query) (hlong : 1000 < (nextWindow cadence rows k).length) :
    ∃ z, Holed rows limit z
      ⟨asked, w.collected ++ m.rates ((nextWindow cadence rows k).take 1000),
        (w.collected ++ m.rates ((nextWindow cadence rows k).take 1000)).map
          FundingRate.timestamp⟩ := by
  have happend : nextWindow cadence rows k ++ rows.rtake k = _ := nextWindow_append h k
  have hlength := hw.length_eq h
  have hpos := hw.pos
  have hle := hw.le
  have htail := length_rtake rows k
  have hsub : (nextWindow cadence rows k ++ rows.rtake k).Sublist rows := by
    rw [happend]
    exact List.drop_sublist _ _
  have hreads := (h.sublist hsub).readsAs (m := m)
  have hnewest : rows.rtake (k + 1) =
      (nextWindow cadence rows k ++ rows.rtake k).rtake (k + 1) := by
    rw [happend, rtake_rtake rows (Or.inl (by omega))]
  generalize nextWindow cadence rows k = window at hlong hsub hreads hnewest ⊢
  obtain ⟨init, z, rfl⟩ := (List.eq_nil_or_concat window).resolve_left
    (by rintro rfl; exact absurd hlong (Nat.not_lt_zero _))
  rw [List.concat_eq_append] at hlong hsub hreads hnewest ⊢
  rw [List.length_append, List.length_singleton] at hlong
  have hfirst : (init ++ [z]).take 1000 = init.take 1000 :=
    List.take_append_of_le_length (by omega)
  have hpair := h.chronological.sublist hsub
  obtain ⟨hwindow, -, hacross⟩ := List.pairwise_append.mp hpair
  have hz_after : ∀ r ∈ init, r.settles < z.settles := fun r hr =>
    (List.pairwise_append.mp hwindow).2.2 r hr z (by simp)
  have hz_before : ∀ r ∈ rows.rtake k, z.settles < r.settles := hacross z (by simp)
  have hinit := hreads.subset fun r (hr : r ∈ init) =>
    List.mem_append_left _ (List.mem_append_left _ hr)
  rw [hfirst]
  refine ⟨z, ⟨k, hk, ?_, ?_⟩, ?_, fun c hc => ?_, rfl⟩
  · have hread := (hinit.subset (List.take_subset 1000 init)).length_eq
    show k < (w.collected ++ m.rates (init.take 1000)).length
    rw [List.length_append, hlength, FundingMarket.rates, hread, List.length_take]
    omega
  · rw [hnewest, List.rtake]
    have hskip : (init ++ [z] ++ rows.rtake k).length - (k + 1) = init.length := by
      rw [List.length_append, List.length_append, htail, List.length_singleton]
      omega
    rw [hskip, List.append_assoc, List.drop_left]
    simp
  · obtain ⟨r, hr⟩ := List.exists_mem_of_ne_nil (init.take 1000)
      (by rw [ne_eq, List.take_eq_nil_iff, ← List.length_eq_zero_iff]; omega)
    obtain ⟨c, hc, hts⟩ := hinit r (List.mem_of_mem_take hr)
    refine ⟨c, List.mem_append_right _ (List.mem_filterMap.mpr ⟨r, hr, hc⟩), ?_⟩
    rw [hts]
    exact hz_after r (List.mem_of_mem_take hr)
  · rcases List.mem_append.mp hc with hold | hnew
    · obtain ⟨r, hr, -, hts⟩ := (hreads.subset (List.subset_append_right _ _)).mem
        (hw.collected.mem_iff.mp hold)
      have hlt := hz_before r hr
      omega
    · obtain ⟨r, hr, -, hts⟩ := (hinit.subset (List.take_subset 1000 init)).mem hnew
      have hlt := hz_after r (List.mem_of_mem_take hr)
      omega

/-- No later window fills the hole: it ends before the oldest record. -/
lemma Holed.loop (h : History rows) (hserves : ServesFunding m venue rows)
    (hkept : ∀ r ∈ rows, Kept r) {limit : ℕ} {z : FundingRow} (pages : ℕ)
    (hw : Holed rows limit z w) :
    Holed rows limit z (fundingLoop m venue cadence limit pages w).1 := by
  induction pages generalizing w with
  | zero => exact hw
  | succ pages ih =>
    unfold fundingLoop
    split
    · obtain ⟨c, hc, hlt⟩ := hw.older
      obtain ⟨oldest, hmin⟩ := Option.isSome_iff_exists.mp
        (List.isSome_min?_of_mem (List.mem_map_of_mem (f := FundingRate.timestamp) hc))
      have hle := (List.min?_eq_some_iff.mp hmin).2 c.timestamp (List.mem_map_of_mem hc)
      obtain ⟨asked, hstep⟩ := fundingStep_eq h hserves hmin hw.seen
        (rfl : _ = (between (max 0 (oldest - 1000 * cadence)) (oldest - 1) rows).take 1000)
        fun r hr => hkept r ((between_sublist _ _).subset (List.mem_of_mem_take hr))
      have hreads := ((h.sublist (between_sublist (max 0 (oldest - 1000 * cadence))
        (oldest - 1))).sublist (List.take_sublist 1000 _)).readsAs (m := m)
      have hwindow : ∀ r ∈ (between (max 0 (oldest - 1000 * cadence)) (oldest - 1) rows).take 1000,
          r.settles ≤ oldest - 1 := fun r hr =>
        (of_decide_eq_true (List.mem_filter.mp (List.mem_of_mem_take hr)).2).2
      generalize (between (max 0 (oldest - 1000 * cadence)) (oldest - 1) rows).take 1000 = part
        at hstep hreads hwindow
      rw [hstep]
      by_cases hnone : part = []
      · rw [if_pos hnone]
        exact ⟨hw.newer, hw.older, hw.missing, hw.seen⟩
      · rw [if_neg hnone]
        apply ih
        obtain ⟨k, hk, hlong, hz⟩ := hw.newer
        refine ⟨⟨k, hk, ?_, hz⟩, ⟨c, List.mem_append_left _ hc, hlt⟩, fun c' hc' => ?_, rfl⟩
        · show k < (w.collected ++ m.rates part).length
          rw [List.length_append]
          omega
        · rcases List.mem_append.mp hc' with hold | hnew
          · exact hw.missing c' hold
          · obtain ⟨r, hr, -, hts⟩ := hreads.mem hnew
            have hearlier := hwindow r hr
            omega
    · exact hw

/-- The first window that does not fit leaves its hole. -/
lemma Held.loop_holed (h : History rows) (hserves : ServesFunding m venue rows)
    (hkept : ∀ r ∈ rows, Kept r) {limit : ℕ} (pages : ℕ) {k : ℕ} (hw : Held m rows k w)
    (hfits : ¬ Fits cadence limit rows pages k) :
    ∃ z, Holed rows limit z (fundingLoop m venue cadence limit pages w).1 := by
  induction pages generalizing k w with
  | zero => exact absurd trivial hfits
  | succ pages ih =>
    have hwindow : ∀ r ∈ nextWindow cadence rows k, Kept r := fun r hr => by
      have hmem : r ∈ nextWindow cadence rows k ++ rows.rtake k := List.mem_append_left _ hr
      rw [nextWindow_append h] at hmem
      exact hkept r (List.mem_of_mem_drop hmem)
    have hmore : k < limit := by
      by_contra hfull
      exact hfits fun hlt => absurd hlt hfull
    have hlong : (w.collected.length : ℤ) < limit := by
      rw [hw.length_eq h]
      exact_mod_cast hmore
    unfold fundingLoop
    rw [if_pos hlong]
    obtain ⟨asked, hstep⟩ := hw.step h hserves hwindow
    rw [hstep]
    by_cases hnone : nextWindow cadence rows k = []
    · refine absurd (fun _ => ⟨?_, hwindow, fun hsome => absurd hnone hsome⟩) hfits
      rw [hnone]
      exact Nat.zero_le _
    · rw [if_neg hnone]
      by_cases hshort : (nextWindow cadence rows k).length ≤ 1000
      · exact ih (hw.append h asked hshort) fun hrest => hfits fun _ => ⟨hshort, hwindow, fun _ => hrest⟩
      · obtain ⟨z, hz⟩ := hw.holed h hmore asked (not_le.mp hshort)
        exact ⟨z, hz.loop h hserves hkept pages⟩

/-- A walk with a hole returns no run of the history: it has a record older than the missing one. -/
lemma Holed.not_suffix (h : History rows) {limit : ℕ} {z : FundingRow}
    (hw : Holed rows limit z w) :
    ¬ (sortByTime FundingRate.timestamp w.collected).rtake limit <:+ m.rates rows := by
  intro hrun
  obtain ⟨k, hk, hlong, hz⟩ := hw.newer
  have hlength : (m.rates (rows.rtake (k + 1))).length ≤
      ((sortByTime FundingRate.timestamp w.collected).rtake limit).length := by
    have hle := List.length_filterMap_le m.rate (rows.rtake (k + 1))
    rw [length_rtake] at hle
    rw [length_rtake, length_sortByTime, FundingMarket.rates]
    omega
  have htail : m.rates (rows.rtake (k + 1)) <:+ m.rates rows :=
    (List.drop_suffix _ _).filterMap m.rate
  have hinside := List.suffix_of_suffix_length_le htail hrun hlength
  obtain ⟨c, hc, hts⟩ := h.readsAs (m := m) z (List.mem_of_mem_drop hz)
  have hc_run := hinside.subset (List.mem_filterMap.mpr ⟨z, hz, hc⟩)
  exact hw.missing c ((mem_sortByTime _).mp (List.mem_of_mem_drop hc_run)) hts

/-- The first answer of a walk is a tail of the history. -/
lemma Held.init (hsome : rows ≠ []) {limit : ℕ} (hlimit : 1 ≤ limit)
    (asked : List Query) :
    Held m rows (rows.rtake (min limit 200)).length
      ⟨asked, m.rates (rows.rtake (min limit 200)),
        (m.rates (rows.rtake (min limit 200))).map FundingRate.timestamp⟩ := by
  have hlength := length_rtake rows (min limit 200)
  have hpos := List.length_pos_iff.mpr hsome
  refine ⟨?_, rfl, by omega, by omega⟩
  have htail : rows.rtake (rows.rtake (min limit 200)).length = rows.rtake (min limit 200) := by
    rw [rtake_eq_rtake_iff]
    omega
  rw [htail]

/-- What is returned without a start. -/
lemma getFundingRate_none (h : History rows) (hserves : ServesFunding m venue rows) (limit : ℕ)
    (hkept : ∀ r ∈ rows.rtake (min limit 200), Kept r) :
    ∃ asked, (getFundingRate m venue none limit).result =
      if limit ≤ (rows.rtake (min limit 200)).length then
        .ok (sliceTail (m.rates (rows.rtake (min limit 200))) limit)
      else
        let run := fundingLoop m venue
          (cadenceMs ((rows.rtake (min limit 200)).map FundingRow.settles)) limit 10
            ⟨asked, m.rates (rows.rtake (min limit 200)),
              (m.rates (rows.rtake (min limit 200))).map FundingRate.timestamp⟩
        match run.2 with
          | some e => .error e
          | none => .ok (sliceTail (sortByTime FundingRate.timestamp run.1.collected) limit) := by
  have hmin : min (limit : ℤ) 200 = (min limit 200 : ℕ) := by omega
  have htail := List.drop_sublist (rows.length - min limit 200) rows
  have hpage := h.fundingPage (m := m) (hserves.newest 0 (min limit 200)) htail.subset hkept
  have hlength : (m.rates (rows.rtake (min limit 200))).length =
      (rows.rtake (min limit 200)).length := (h.sublist htail).readsAs.length_eq
  have htimes : (m.rates (rows.rtake (min limit 200))).map FundingRate.timestamp =
      (rows.rtake (min limit 200)).map FundingRow.settles := (h.sublist htail).readsAs.map_time
  refine ⟨[m.newestQuery (min limit 200 : ℕ)], ?_⟩
  unfold getFundingRate
  simp only [hmin, hpage, hlength, Nat.cast_le, ← htimes]
  split
  · rfl
  · rfl

/-- The last records of a tail are a run that ends at the newest one. -/
lemma rates_tail (h : History rows) {limit k : ℕ} (hlimit : 1 ≤ limit) (hpos : 1 ≤ k)
    (hle : k ≤ rows.length) :
    sliceTail (m.rates (rows.rtake k)) limit <:+ m.rates rows ∧
      sliceTail (m.rates (rows.rtake k)) limit ≠ [] := by
  have hcut : sliceTail (m.rates (rows.rtake k)) limit = (m.rates (rows.rtake k)).rtake limit := by
    rw [sliceTail, if_pos (by omega), Int.toNat_natCast]
  have hlength : (m.rates (rows.rtake k)).length = (rows.rtake k).length :=
    (h.sublist (List.drop_sublist (rows.length - k) rows)).readsAs.length_eq
  rw [hcut]
  refine ⟨(List.drop_suffix _ _).trans ((List.drop_suffix _ _).filterMap m.rate), ?_⟩
  rw [ne_eq, ← List.length_eq_zero_iff, length_rtake, hlength, length_rtake]
  omega

/-- The call without a start has no hole when its windows fit. -/
lemma none_noHoles (h : History rows) (hserves : ServesFunding m venue rows) {limit : ℕ}
    (hlimit : 1 ≤ limit) (hcovered : Covered m rows none limit) :
    NoHoles m rows none (getFundingRate m venue none limit).result := by
  obtain ⟨hsome, hkept, hfits⟩ := hcovered
  obtain ⟨asked, hresult⟩ := getFundingRate_none (m := m) h hserves limit hkept
  have hall : upTo FundingRate.timestamp none (m.rates rows) = m.rates rows :=
    List.filter_eq_self.mpr fun _ _ => rfl
  have hinit := Held.init (m := m) hsome hlimit asked
  unfold NoHoles
  rw [hresult, hall]
  split
  · next hfew =>
    obtain ⟨hrun, hne⟩ := rates_tail (m := m) h hlimit hinit.pos hinit.le
    have hself : rows.rtake (rows.rtake (min limit 200)).length = rows.rtake (min limit 200) := by
      rw [rtake_eq_rtake_iff, length_rtake]
      omega
    rw [hself] at hrun hne
    exact ⟨_, rfl, hrun, fun _ => hne⟩
  · obtain ⟨hnone, k, hend⟩ := hinit.loop h hserves 10 hfits
    obtain ⟨hrun, hne⟩ := rates_tail (m := m) h hlimit hend.pos hend.le
    have hsorted : sortByTime FundingRate.timestamp _ = m.rates (rows.rtake k) :=
      (h.sublist (List.drop_sublist _ _)).chronological_rates.sort_of_perm hend.collected
    simp only [hnone, hsorted]
    exact ⟨_, rfl, hrun, fun _ => hne⟩

/-- On a market without a row the walk asks an empty list for its minimum. -/
lemma fundingLoop_empty (venue : Venue (List FundingRow)) (cadence : ℤ) {limit : ℕ}
    (hlimit : 1 ≤ limit) (pages : ℕ) (asked : List Query) :
    (fundingLoop m venue cadence limit (pages + 1) ⟨asked, [], []⟩).2 =
      some (.valueError "min() arg is an empty sequence") := by
  unfold fundingLoop
  have hmore : (([] : List FundingRate).length : ℤ) < limit := by
    rw [List.length_nil]
    omega
  rw [if_pos hmore]
  rfl

/-- On rows after 1973 only then. -/
lemma none_covered (h : History rows) (hserves : ServesFunding m venue rows)
    (hkept : ∀ r ∈ rows, Kept r) {limit : ℕ} (hlimit : 1 ≤ limit)
    (hrun : NoHoles m rows none (getFundingRate m venue none limit).result) :
    Covered m rows none limit := by
  have hrecent : ∀ r ∈ rows.rtake (min limit 200), Kept r := fun r hr =>
    hkept r (List.mem_of_mem_drop hr)
  obtain ⟨asked, hresult⟩ := getFundingRate_none (m := m) h hserves limit hrecent
  obtain ⟨xs, hxs, hsuffix, -⟩ := hrun
  have hall : upTo FundingRate.timestamp none (m.rates rows) = m.rates rows :=
    List.filter_eq_self.mpr fun _ _ => rfl
  rw [hresult] at hxs
  rw [hall] at hsuffix
  have hsome : rows ≠ [] := by
    rintro rfl
    have hfault := fundingLoop_empty (m := m) venue (cadenceMs []) hlimit 9 asked
    simp only [List.rtake_nil, List.length_nil, Nat.le_zero, if_neg (Nat.ne_of_gt hlimit)] at hxs
    rw [List.map_nil, FundingMarket.rates, List.filterMap_nil, List.map_nil, hfault] at hxs
    exact absurd hxs (by simp)
  refine ⟨hsome, hrecent, ?_⟩
  have hinit := Held.init (m := m) hsome hlimit asked
  split at hxs
  · next hfew => exact fun hmore => absurd hfew hmore.not_ge
  · by_contra hfits
    obtain ⟨z, hz⟩ := hinit.loop_holed h hserves hkept 10 hfits
    apply hz.not_suffix (m := m) h
    dsimp only at hxs
    split at hxs
    · exact absurd hxs (by simp)
    · rw [← Except.ok.inj hxs, sliceTail, if_pos (by omega), Int.toNat_natCast] at hsuffix
      exact hsuffix

/-- With the windows covered the call returns a run of the history that ends at the newest row at
or before the start. On rows after 1973 it does so only then. -/
theorem getFundingRate_noHoles (h : History rows) (hserves : ServesFunding m venue rows)
    (startTime : Option ℤ) {limit : ℕ} (hlimit : 1 ≤ limit) :
    (Covered m rows startTime limit →
        NoHoles m rows startTime (getFundingRate m venue startTime limit).result) ∧
      ((∀ r ∈ rows, Kept r) →
        NoHoles m rows startTime (getFundingRate m venue startTime limit).result →
          Covered m rows startTime limit) := by
  cases startTime with
  | none =>
    exact ⟨none_noHoles h hserves hlimit, fun hkept => none_covered h hserves hkept hlimit⟩
  | some start =>
    constructor
    · rintro ⟨hshort, hkept, hsome⟩
      exact (start_noHoles h hserves start hlimit hkept).mpr ⟨hshort, hsome⟩
    · intro hkept hrun
      have hwindow : ∀ r ∈ between (max 0 (start - (min limit 1000 : ℕ) * m.cycleMs)) start rows,
          Kept r := fun r hr => hkept r ((between_sublist _ _).subset hr)
      obtain ⟨hshort, hsome⟩ := (start_noHoles h hserves start hlimit hwindow).mp hrun
      exact ⟨hshort, hwindow, hsome⟩

end

/-! ## A market that settles every hour -/

/-- A row of BTCUSDT at `t`, with the rate zero. -/
def hourRow (t : ℤ) : FundingRow := ⟨"BTCUSDT", some t, some 0⟩

/-- Three rows, an hour apart. -/
def threeHours : List FundingRow :=
  [hourRow 1700006400000, hourRow 1700010000000, hourRow 1700013600000]

/-- A venue that holds these rows, oldest first. -/
def serveFunding (rows : List FundingRow) : Venue (List FundingRow) := fun _ q =>
  match q.params.lookup "limit", q.params.lookup "startTime", q.params.lookup "endTime" with
  | some (.int l), some (.int a), some (.int b) => .ok ((between a b rows).take l.toNat)
  | some (.int l), none, none => .ok (rows.rtake l.toNat)
  | _, _, _ => .ok []

/-- The market, with the cycle of eight hours that it had before. -/
def btcUsdt : FundingMarket := ⟨.linear, "BTCUSDT", fun _ => "BTC-USDT", "USDT", some 28800000⟩

lemma serveFunding_serves (rows : List FundingRow) :
    ServesFunding btcUsdt (serveFunding rows) rows := ⟨fun _ _ => rfl, fun _ _ _ _ => rfl⟩

lemma history_threeHours : History threeHours where
  chronological := by simp [Chronological, threeHours, hourRow, FundingRow.settles]
  posted := by
    intro r hr
    simp only [threeHours, List.mem_cons, List.not_mem_nil, or_false] at hr
    rcases hr with rfl | rfl | rfl <;> exact ⟨by simp [hourRow], _, rfl, by decide⟩

/-- The window of two cycles of eight hours holds three rows, and the oldest two come back. -/
theorem getFundingRate_misses_start :
    History threeHours ∧ ServesFunding btcUsdt (serveFunding threeHours) threeHours ∧
      ¬ NoHoles btcUsdt threeHours (some 1700013600000)
        (getFundingRate btcUsdt (serveFunding threeHours) (some 1700013600000) (2 : ℕ)).result := by
  refine ⟨history_threeHours, serveFunding_serves _, fun hrun => ?_⟩
  have hkept : ∀ r ∈ between (max 0 (1700013600000 - (min 2 1000 : ℕ) * btcUsdt.cycleMs))
      1700013600000 threeHours, Kept r := by decide
  have hcovered := (start_noHoles history_threeHours (serveFunding_serves _) 1700013600000
    (by decide) hkept).mp hrun
  exact absurd hcovered.1 (by decide)

/-- Without a start the newest two are asked for. -/
theorem getFundingRate_noHoles_newest :
    NoHoles btcUsdt threeHours none
      (getFundingRate btcUsdt (serveFunding threeHours) none (2 : ℕ)).result := by
  refine (getFundingRate_noHoles history_threeHours (serveFunding_serves _) none
    (by decide)).1 ⟨by decide, by decide, ?_⟩
  exact fun hmore => absurd hmore (by decide)

end Binance

end ExchangeRouter
