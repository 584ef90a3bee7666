import ExchangeRouter.CandleHistories
import ExchangeRouter.StartBound
import Mathlib.Data.List.Chain

/-!
# The chart walk of Kraken futures

The venue serves a chart forward, in pages of the oldest candles from a time on, and
`get_candles` walks it from `limit` intervals before the anchor. `Charted` says what the walk
holds after some pages: the candles of the window, that many pages of them. From it come what a
walk returns that reaches its end (`candlesFutures_exact_iff`), and what is left of one that a
refused page or the cap cuts short (`candlesFutures_cut_iff`).
-/

namespace ExchangeRouter

open Newest

namespace Kraken

/-! ## The chart -/

/-- The first `n` requests are answered with up to `K` of the candles that open at or after
`from`, oldest first. -/
def ServesChart (venue : Venue KlineReply) (m : Market) (apiSymbol : String) (K : ℕ)
    (rows : List KlineRow) (n : ℕ) : Prop :=
  ∀ i < n, ∀ fromTs, ∃ entries,
    venue i (chartQuery m apiSymbol fromTs) = .ok (.object entries) ∧
      entry entries "candles" = some (some ((rows.filter fun r => fromTs * 1000 ≤ r.opens).take K))

/-- Full rows that open at whole seconds after 1973, each at least an interval after the last. -/
structure Chart (intervalSecs : ℤ) (rows : List KlineRow) : Prop where
  interval : 0 < intervalSecs
  spaced : rows.Pairwise fun r r' => r.opens + intervalSecs * 1000 ≤ r'.opens
  full : ∀ r ∈ rows, r.Full
  dated : ∀ r ∈ rows, r.Dated
  seconds : ∀ r ∈ rows, r.opens % 1000 = 0

/-- The candle of a row. -/
def chartCandle (m : Market) (r : KlineRow) : Option Kline := (m.readRow 5 r).toOption

/-- The rows that the walk asks for. -/
def window (fromTs : ℤ) (rows : List KlineRow) : List KlineRow :=
  rows.filter fun r => fromTs * 1000 ≤ r.opens

namespace Chart

variable {intervalSecs : ℤ} {rows : List KlineRow} (h : Chart intervalSecs rows)

include h

lemma sublist {rows' : List KlineRow} (hsub : rows'.Sublist rows) : Chart intervalSecs rows' :=
  ⟨h.interval, h.spaced.sublist hsub, fun r hr => h.full r (hsub.subset hr),
    fun r hr => h.dated r (hsub.subset hr), fun r hr => h.seconds r (hsub.subset hr)⟩

/-- The candles of a chart rise. -/
lemma chronological : Chronological KlineRow.opens rows := by
  refine h.spaced.imp ?_
  intro r r' hgap
  have hpos := h.interval
  omega

/-- Every candle of a chart is read. -/
lemma reads {m : Market} (hsized : m.Sized) {r : KlineRow} (hr : r ∈ rows) :
    ∃ close c, r.float 4 = .ok close ∧ m.candle 5 r r.opens close = .ok c ∧
      chartCandle m r = some c ∧ c.timestamp = r.opens := by
  have hfull := h.full r hr
  have hwide := hfull.wide
  obtain ⟨close, hclose⟩ := hfull.float (i := 4) (by omega) (by omega)
  obtain ⟨c, hc, hts⟩ := hsized.candle hfull (by decide) hwide r.opens close
  refine ⟨close, c, hclose, hc, ?_, hts⟩
  unfold chartCandle Market.readRow
  rw [hclose, (h.dated r hr).time]
  show (m.candle 5 r r.opens close).toOption = some c
  rw [hc]
  rfl

/-- The chart is read as its candles. -/
lemma readsAs {m : Market} (hsized : m.Sized) :
    ReadsAs Candle.timestamp KlineRow.opens (chartCandle m) rows := by
  intro r hr
  obtain ⟨-, c, -, -, hread, hts⟩ := h.reads hsized hr
  exact ⟨c, hread, hts⟩

/-- Rows that were not seen before are all added. -/
lemma scanBatch_eq {m : Market} (hsized : m.Sized) (p : ChartPage)
    (hfresh : ∀ r ∈ rows, r.opens ∉ p.seenTs) :
    ∃ seen, (∀ t, t ∈ seen ↔ t ∈ p.seenTs ∨ t ∈ rows.map KlineRow.opens) ∧
      scanBatch m p rows = .ok ⟨p.allCandles ++ rows.filterMap (chartCandle m), seen,
        p.added + rows.length, (rows.getLast?.map fun r => r.opens / 1000).getD p.lastTsSecs⟩ := by
  induction rows generalizing p with
  | nil => exact ⟨p.seenTs, by simp, by simp [scanBatch]⟩
  | cons b batch ih =>
    obtain ⟨close, c, hclose, hc, hread, -⟩ := h.reads hsized List.mem_cons_self
    have hbatch := h.sublist (List.sublist_cons_self b batch)
    have hnew : b.opens ∉ p.seenTs := hfresh b List.mem_cons_self
    obtain ⟨seen, hseen, hscan⟩ := ih hbatch
      ⟨p.allCandles ++ [c], b.opens :: p.seenTs, p.added + 1, b.opens / 1000⟩ fun r hr hmem => by
        rcases List.mem_cons.mp hmem with heq | hmem
        · have hlt := List.rel_of_pairwise_cons h.chronological hr
          omega
        · exact hfresh r (List.mem_cons_of_mem _ hr) hmem
    refine ⟨seen, fun t => ?_, ?_⟩
    · rw [hseen]
      simp only [List.mem_cons, List.map_cons]
      tauto
    · unfold scanBatch
      rw [(h.dated b List.mem_cons_self).time]
      show (if b.opens ∈ p.seenTs then _ else _) = _
      rw [if_neg hnew, hclose]
      show (m.candle 5 b b.opens close).bind _ = _
      rw [hc]
      show scanBatch m _ batch = _
      have hlast : (batch.getLast?.map fun r => r.opens / 1000).getD (b.opens / 1000) =
          ((b :: batch).getLast?.map fun r => r.opens / 1000).getD p.lastTsSecs := by
        rw [List.getLast?_cons]
        cases batch.getLast? <;> rfl
      have hadded : p.added + 1 + batch.length = p.added + (b :: batch).length := by
        rw [List.length_cons]
        omega
      rw [hscan, hlast, hadded, List.append_assoc, List.filterMap_cons_some hread]
      rfl

end Chart

/-! ## One page -/

section

variable {m : Market} {venue : Venue KlineReply} {apiSymbol : String} {K n : ℕ}
  {intervalSecs anchorSecs : ℤ} {rows asked : List KlineRow}

/-- What the walk holds after `i` pages that it went on from: `i` pages of the rows it asks for,
all of them more than an interval before the anchor. -/
structure Charted (m : Market) (K : ℕ) (intervalSecs anchorSecs : ℤ) (rows asked : List KlineRow)
    (i : ℕ) (w : ChartWalk) : Prop where
  counted : w.asked.length = i
  next : window w.fromTs rows = asked.drop (i * K)
  candles : w.allCandles = (asked.take (i * K)).filterMap (chartCandle m)
  seen : ∀ t, t ∈ w.seenTs ↔ t ∈ (asked.take (i * K)).map KlineRow.opens
  before : ∀ r ∈ asked.take (i * K), r.opens < (anchorSecs - intervalSecs) * 1000
  nonempty : 1 ≤ i → asked.take (i * K) ≠ []

/-- Before the first page. -/
lemma Charted.init (fromTs : ℤ) :
    Charted m K intervalSecs anchorSecs rows (window fromTs rows) 0 { fromTs := fromTs } where
  counted := rfl
  next := by simp
  candles := by simp
  seen := by simp
  before := by simp
  nonempty := fun h => absurd h (by decide)

/-- How the walk can end by itself: with an empty page, or with the first page that reaches to an
interval before the anchor. -/
def ChartEnd (m : Market) (K : ℕ) (intervalSecs anchorSecs : ℤ) (asked : List KlineRow)
    (w : ChartWalk) : Prop :=
  ∃ j, w.allCandles = (asked.take (j * K)).filterMap (chartCandle m) ∧
    (((asked.drop (j * K)).take K = [] ∧
        ∀ r ∈ asked.take (j * K), r.opens < (anchorSecs - intervalSecs) * 1000) ∨
      ∃ i last, j = i + 1 ∧ (asked.take (j * K)).getLast? = some last ∧
        (anchorSecs - intervalSecs) * 1000 ≤ last.opens ∧
        ∀ r ∈ asked.take (i * K), r.opens < (anchorSecs - intervalSecs) * 1000)

/-- After the last row of a page the rows begin where the next request does. -/
lemma Chart.next_window (hchart : Chart intervalSecs rows) {fromTs : ℤ} {last : KlineRow}
    (hlast : ((window fromTs rows).take K).getLast? = some last) :
    window (last.opens / 1000 + intervalSecs) rows = (window fromTs rows).drop K := by
  have hpos := hchart.interval
  have hwindow : (window fromTs rows).Sublist rows := List.filter_sublist
  obtain ⟨init, hinit⟩ : ∃ init, (window fromTs rows).take K = init ++ [last] :=
    List.getLast?_eq_some_iff.mp hlast
  have hsplit : (window fromTs rows).take K ++ (window fromTs rows).drop K =
      window fromTs rows := List.take_append_drop _ _
  have hpair := hsplit ▸ hchart.spaced.sublist hwindow
  obtain ⟨hpage, -, hacross⟩ := List.pairwise_append.mp hpair
  have hlast_mem : last ∈ window fromTs rows := by
    apply List.mem_of_mem_take (i := K)
    rw [hinit]
    simp
  have hsecs := hchart.seconds last (hwindow.subset hlast_mem)
  have hfrom : fromTs * 1000 ≤ last.opens := of_decide_eq_true (List.mem_filter.mp hlast_mem).2
  -- asking from there is asking again among the rows asked for
  have hagain : window (last.opens / 1000 + intervalSecs) rows =
      (window fromTs rows).filter fun r => (last.opens / 1000 + intervalSecs) * 1000 ≤ r.opens := by
    unfold window
    rw [List.filter_filter]
    apply List.filter_congr
    intro r _
    rw [Bool.eq_iff_iff, Bool.and_eq_true, decide_eq_true_iff, decide_eq_true_iff]
    omega
  have hold : (((window fromTs rows).take K).filter fun r =>
      (last.opens / 1000 + intervalSecs) * 1000 ≤ r.opens) = [] := by
    rw [List.filter_eq_nil_iff]
    intro r hr hle
    have hle' := of_decide_eq_true hle
    rw [hinit] at hr hpage
    rcases List.mem_append.mp hr with hin | hin
    · have hgap := (List.pairwise_append.mp hpage).2.2 r hin last (by simp)
      omega
    · rw [List.mem_singleton.mp hin] at hle'
      omega
  have hnew : (((window fromTs rows).drop K).filter fun r =>
      (last.opens / 1000 + intervalSecs) * 1000 ≤ r.opens) = (window fromTs rows).drop K := by
    rw [List.filter_eq_self]
    intro r hr
    have hgap := hacross last (by rw [hinit]; simp) r hr
    apply decide_eq_true
    omega
  rw [hagain]
  conv_lhs => rw [← hsplit]
  rw [List.filter_append, hold, hnew, List.nil_append]

/-- The next page brings only rows that open after those the walk holds. -/
lemma Charted.fresh (hchart : Chart intervalSecs rows) (hasked : asked.Sublist rows) {i : ℕ}
    {w : ChartWalk} (h : Charted m K intervalSecs anchorSecs rows asked i w) :
    ∀ r ∈ (asked.drop (i * K)).take K, r.opens ∉ w.seenTs := by
  intro r hr hseen
  obtain ⟨r', hr', heq⟩ := List.mem_map.mp ((h.seen r.opens).mp hseen)
  have hsplit : asked.take (i * K) ++ asked.drop (i * K) = asked := List.take_append_drop _ _
  have hpair := hsplit ▸ hchart.chronological.sublist hasked
  have hlt := (List.pairwise_append.mp hpair).2.2 r' hr' r (List.mem_of_mem_take hr)
  omega

/-- A page takes the walk on, or ends it. -/
lemma Charted.step (hsized : m.Sized) (hchart : Chart intervalSecs rows)
    (hserves : ServesChart venue m apiSymbol K rows n) (hasked : asked.Sublist rows) {i : ℕ}
    {w : ChartWalk} (h : Charted m K intervalSecs anchorSecs rows asked i w) (hi : i < n) :
    (∃ w', chartStep m venue apiSymbol intervalSecs anchorSecs w = .stop w' none ∧
      ChartEnd m K intervalSecs anchorSecs asked w') ∨
    ∃ w', chartStep m venue apiSymbol intervalSecs anchorSecs w = .again w' ∧
      Charted m K intervalSecs anchorSecs rows asked (i + 1) w' := by
  obtain ⟨entries, hreply, hentry⟩ := hserves i hi w.fromTs
  have hbatch : chartBatch (.object entries) = .ok ((asked.drop (i * K)).take K) := by
    show Except.ok (((entry entries "candles").getD none).getD []) = _
    rw [hentry, ← h.next]
    rfl
  have hpages : asked.take ((i + 1) * K) =
      asked.take (i * K) ++ (asked.drop (i * K)).take K := by
    rw [Nat.succ_mul, List.take_add]
  have hdrop : asked.drop ((i + 1) * K) = (asked.drop (i * K)).drop K := by
    rw [List.drop_drop, Nat.succ_mul]
  unfold chartStep
  simp only [h.counted, hreply, hbatch]
  cases hpage : (asked.drop (i * K)).take K with
  | nil =>
    exact Or.inl ⟨_, rfl, i, h.candles, Or.inl ⟨hpage, h.before⟩⟩
  | cons b batch =>
    have hsub : (b :: batch).Sublist asked := by
      rw [← hpage]
      exact (List.take_sublist _ _).trans (List.drop_sublist _ _)
    have hfresh := h.fresh hchart hasked
    rw [hpage] at hfresh
    obtain ⟨seen, hseen, hscan⟩ := (hchart.sublist (hsub.trans hasked)).scanBatch_eq hsized
      ⟨w.allCandles, w.seenTs, 0, w.fromTs⟩ hfresh
    obtain ⟨last, hlast⟩ : ∃ last, (b :: batch).getLast? = some last := ⟨_, List.getLast?_cons⟩
    have hmem : last ∈ b :: batch := List.mem_of_getLast? hlast
    have hsecs := hchart.seconds last ((hsub.trans hasked).subset hmem)
    have hnonempty : ¬ 0 + (b :: batch).length = 0 := by
      rw [List.length_cons]
      omega
    have hcandles : w.allCandles ++ (b :: batch).filterMap (chartCandle m) =
        (asked.take ((i + 1) * K)).filterMap (chartCandle m) := by
      rw [hpages, hpage, List.filterMap_append, h.candles]
    have hseen' : ∀ t, t ∈ seen ↔ t ∈ (asked.take ((i + 1) * K)).map KlineRow.opens := by
      intro t
      rw [hseen, h.seen, hpages, hpage, List.map_append, List.mem_append]
    simp only [hscan, hlast, Option.map_some, Option.getD_some, hnonempty, false_or]
    split
    · next hreached =>
      refine Or.inl ⟨_, rfl, i + 1, hcandles, Or.inr ⟨i, last, rfl, ?_, by omega, h.before⟩⟩
      rw [hpages, hpage, List.getLast?_append, hlast]
      rfl
    · next hshort =>
      refine Or.inr ⟨_, rfl, ⟨?_, ?_, hcandles, hseen', ?_, fun _ => ?_⟩⟩
      · show (w.asked ++ [_]).length = i + 1
        rw [List.length_append, h.counted]
        rfl
      · show window (last.opens / 1000 + intervalSecs) rows = _
        have hpage_last : ((window w.fromTs rows).take K).getLast? = some last := by
          rw [h.next, hpage, hlast]
        rw [hchart.next_window hpage_last, h.next, hdrop]
      · intro r hr
        rw [hpages, hpage] at hr
        rcases List.mem_append.mp hr with hin | hin
        · exact h.before r hin
        · have hpage_chrono := hchart.chronological.sublist (hsub.trans hasked)
          have hle := hpage_chrono.ascending.le_last KlineRow.opens hlast r hin
          omega
      · rw [hpages, hpage]
        simp

/-! ## The walk -/

/-- The loop ends by itself, or all its rounds go on. Induction on the rounds that are left. -/
lemma chartLoop_ended (hsized : m.Sized) (hchart : Chart intervalSecs rows)
    (hserves : ServesChart venue m apiSymbol K rows n) (hasked : asked.Sublist rows) (left : ℕ)
    {i : ℕ} {w : ChartWalk} (h : Charted m K intervalSecs anchorSecs rows asked i w)
    (hle : i + left ≤ n) :
    (chartLoop m venue apiSymbol intervalSecs anchorSecs left w).2 = none ∧
      (ChartEnd m K intervalSecs anchorSecs asked
          (chartLoop m venue apiSymbol intervalSecs anchorSecs left w).1 ∨
        Charted m K intervalSecs anchorSecs rows asked (i + left)
          (chartLoop m venue apiSymbol intervalSecs anchorSecs left w).1) := by
  induction left generalizing i w with
  | zero => exact ⟨rfl, Or.inr h⟩
  | succ left ih =>
    unfold chartLoop
    rcases h.step hsized hchart hserves hasked (by omega) with
      ⟨w', hstep, hend⟩ | ⟨w', hstep, hnext⟩
    · rw [hstep]
      exact ⟨rfl, Or.inl hend⟩
    · rw [hstep]
      have hrest := ih hnext (by omega)
      rw [Nat.add_right_comm] at hrest
      exact hrest

/-- The walk after `k` pages that it goes on from, if it goes on from them all. -/
def chartRounds (m : Market) (venue : Venue KlineReply) (apiSymbol : String)
    (intervalSecs anchorSecs : ℤ) : ℕ → ChartWalk → Option ChartWalk
  | 0, w => some w
  | k + 1, w =>
    match chartStep m venue apiSymbol intervalSecs anchorSecs w with
    | .stop _ _ => none
    | .again w => chartRounds m venue apiSymbol intervalSecs anchorSecs k w

/-- The loop after some rounds. -/
lemma chartLoop_of_rounds {k : ℕ} (left : ℕ) {w w' : ChartWalk}
    (h : chartRounds m venue apiSymbol intervalSecs anchorSecs k w = some w') :
    chartLoop m venue apiSymbol intervalSecs anchorSecs (k + left) w =
      chartLoop m venue apiSymbol intervalSecs anchorSecs left w' := by
  induction k generalizing w with
  | zero =>
    obtain rfl : w = w' := Option.some.inj h
    rw [Nat.zero_add]
  | succ k ih =>
    unfold chartRounds at h
    rw [Nat.succ_add, chartLoop]
    cases hstep : chartStep m venue apiSymbol intervalSecs anchorSecs w with
    | stop w₁ fault =>
      rw [hstep] at h
      exact absurd h (by simp)
    | again w₁ =>
      rw [hstep] at h
      exact ih h

/-- Rounds that go on bring their pages. -/
lemma Charted.rounds (hsized : m.Sized) (hchart : Chart intervalSecs rows)
    (hserves : ServesChart venue m apiSymbol K rows n) (hasked : asked.Sublist rows) {k i : ℕ}
    {w w' : ChartWalk} (h : Charted m K intervalSecs anchorSecs rows asked i w) (hle : i + k ≤ n)
    (hrounds : chartRounds m venue apiSymbol intervalSecs anchorSecs k w = some w') :
    Charted m K intervalSecs anchorSecs rows asked (i + k) w' := by
  induction k generalizing i w with
  | zero =>
    obtain rfl : w = w' := Option.some.inj hrounds
    exact h
  | succ k ih =>
    unfold chartRounds at hrounds
    rcases h.step hsized hchart hserves hasked (by omega) with
      ⟨w₁, hstep, -⟩ | ⟨w₁, hstep, hnext⟩
    · rw [hstep] at hrounds
      exact absurd hrounds (by simp)
    · rw [hstep] at hrounds
      have hrest := ih hnext (by omega) hrounds
      rw [Nat.add_right_comm] at hrest
      exact hrest

end

/-! ## A walk that is cut short -/

section

variable {m : Market} {venue : Venue KlineReply} {apiSymbol : String} {K n : ℕ}
  {intervalSecs nowSecs limit : ℤ} {startTime : Option ℤ} {rows : List KlineRow}

/-- `get_candles` gets `n` pages that it goes on from, at least one, and then a refusal, or it
stops at the cap. -/
structure Cut (venue : Venue KlineReply) (m : Market) (apiSymbol : String)
    (intervalSecs anchorSecs fromTs : ℤ) (n : ℕ) : Prop where
  pos : 1 ≤ n
  rounds : ∃ w, chartRounds m venue apiSymbol intervalSecs anchorSecs n { fromTs := fromTs } = some w
  cut : n = 20 ∨ n < 20 ∧ ∃ e : Fault, e.isRejection = true ∧ ∀ q, venue n q = .error e

/-- The rows at or before the anchor that the walk asks for. -/
def wanted (anchorSecs fromTs : ℤ) (rows : List KlineRow) : List KlineRow :=
  (window fromTs rows).filter fun r => r.opens ≤ anchorSecs * 1000

/-- The candles of a chart. -/
def chartCandles (m : Market) (rows : List KlineRow) : List Kline :=
  rows.filterMap (chartCandle m)

/-- A cut walk returns what its pages brought. -/
lemma Cut.run {anchorSecs fromTs : ℤ} (hcut : Cut venue m apiSymbol intervalSecs anchorSecs fromTs n)
    (hsized : m.Sized) (hchart : Chart intervalSecs rows)
    (hserves : ServesChart venue m apiSymbol K rows n) :
    ∃ w, Charted m K intervalSecs anchorSecs rows (window fromTs rows) n w ∧
      (chartLoop m venue apiSymbol intervalSecs anchorSecs 20 { fromTs := fromTs }).2 = none ∧
      (chartLoop m venue apiSymbol intervalSecs anchorSecs 20 { fromTs := fromTs }).1.allCandles =
        w.allCandles := by
  obtain ⟨w, hrounds⟩ := hcut.rounds
  have hcharted := (Charted.init fromTs).rounds hsized hchart hserves List.filter_sublist
    (by omega) hrounds
  rw [Nat.zero_add] at hcharted
  refine ⟨w, hcharted, ?_⟩
  rcases hcut.cut with rfl | ⟨hlt, e, he, herror⟩
  · rw [show 20 = 20 + 0 from rfl, chartLoop_of_rounds 0 hrounds]
    exact ⟨rfl, rfl⟩
  · obtain ⟨left, hleft⟩ : ∃ left, 20 = n + (left + 1) := ⟨19 - n, by omega⟩
    rw [hleft, chartLoop_of_rounds (left + 1) hrounds]
    have hstep : chartStep m venue apiSymbol intervalSecs anchorSecs w = .stop
        { w with asked := w.asked ++ [chartQuery m apiSymbol w.fromTs] } none := by
      simp only [chartStep, hcharted.counted, herror, he, if_true]
    unfold chartLoop
    rw [hstep]
    exact ⟨rfl, rfl⟩

/-- A futures walk that ends without an exception returns the last lines of what it holds. -/
lemma getCandles_of_run (hfutures : m.marketType ≠ .spot)
    (hinterval : intervalSecsMap.lookup m.interval = some intervalSecs)
    (hrun : (chartLoop m venue apiSymbol intervalSecs (anchorSecsOf startTime nowSecs) 20
      { fromTs := anchorSecsOf startTime nowSecs - limit * intervalSecs }).2 = none) :
    (getCandles m venue apiSymbol nowSecs startTime limit).result =
      .ok (finish startTime limit (chartLoop m venue apiSymbol intervalSecs
        (anchorSecsOf startTime nowSecs) 20
          { fromTs := anchorSecsOf startTime nowSecs - limit * intervalSecs }).1.allCandles) := by
  unfold getCandles getCandlesFutures
  rw [if_neg hfutures, hinterval]
  dsimp only
  rw [hrun]

/-- The end that a call is for: its start, or the clock. -/
def endMs (startTime : Option ℤ) (nowSecs : ℤ) : ℤ := startTime.getD (nowSecs * 1000)

/-- A row at a whole second is before the end when it is before the anchor, unless the start is
zero, which is no start, or negative. -/
lemma le_endMs_iff {r : KlineRow} (hsecs : r.opens % 1000 = 0)
    (hstart : ∀ s ∈ startTime, 0 < s) :
    r.opens ≤ endMs startTime nowSecs ↔ r.opens ≤ anchorSecsOf startTime nowSecs * 1000 := by
  cases startTime with
  | none => exact Iff.rfl
  | some s =>
    have hpos := hstart s rfl
    have hanchor : anchorSecsOf (some s) nowSecs = s / 1000 := by
      simp only [anchorSecsOf, if_neg hpos.ne']
      exact Int.tdiv_eq_ediv_of_nonneg hpos.le
    show r.opens ≤ s ↔ _
    rw [hanchor]
    omega

/-- A row that a walk went on from puts its anchor after the epoch. -/
lemma Charted.exists_row {anchorSecs : ℤ} {asked : List KlineRow} {w : ChartWalk}
    (hw : Charted m K intervalSecs anchorSecs rows asked n w) (hn : 1 ≤ n) :
    ∃ r ∈ asked, r ∈ asked.take (n * K) ∧ r.opens < (anchorSecs - intervalSecs) * 1000 := by
  obtain ⟨r, hr⟩ := List.exists_mem_of_ne_nil _ (hw.nonempty hn)
  exact ⟨r, List.mem_of_mem_take hr, hr, hw.before r hr⟩

/-- A start that is not zero is positive where its anchor is. -/
lemma start_pos (hanchor : 0 < anchorSecsOf startTime nowSecs) (hzero : startTime ≠ some 0) :
    ∀ s ∈ startTime, 0 < s := by
  rintro s rfl
  have hne : s ≠ 0 := fun heq => hzero (congrArg some heq)
  simp only [anchorSecsOf, if_neg hne] at hanchor
  by_contra hneg
  have hnonpos : s.tdiv 1000 = -((-s) / 1000) := by
    rw [← Int.tdiv_eq_ediv_of_nonneg (by omega), Int.neg_tdiv, neg_neg]
  omega

/-- The last lines leave a cut walk's candles as they are, but for the limit. -/
lemma upToStart_eq_self {cs : List Kline} {startTime : Option ℤ}
    (hstart : ∀ s ∈ startTime, s ≠ 0 → ∀ c ∈ cs, c.timestamp ≤ s) : upToStart startTime cs = cs := by
  cases startTime with
  | none => rfl
  | some s =>
    show (if s = 0 then cs else cs.filter fun c => decide (c.timestamp ≤ s)) = cs
    split
    · rfl
    · next hne =>
      rw [List.filter_eq_self]
      exact fun c hc => decide_eq_true (hstart s rfl hne c hc)

/-- What the pages of a cut walk brought ends as its result does. -/
lemma Charted.getLast?_finish (hsized : m.Sized) (hchart : Chart intervalSecs rows) {w : ChartWalk}
    (hn : 1 ≤ n) (hw : Charted m K intervalSecs (anchorSecsOf startTime nowSecs) rows
      (window (anchorSecsOf startTime nowSecs - limit * intervalSecs) rows) n w) :
    (finish startTime limit w.allCandles).getLast? = w.allCandles.getLast? := by
  have hwindow : (window (anchorSecsOf startTime nowSecs - limit * intervalSecs) rows).Sublist rows :=
    List.filter_sublist
  have hpos := hchart.interval
  obtain ⟨r, hr, -, hbefore⟩ := hw.exists_row hn
  have hdated := (hchart.dated r (hwindow.subset hr)).le_opens
  have hfrom : (anchorSecsOf startTime nowSecs - limit * intervalSecs) * 1000 ≤ r.opens :=
    of_decide_eq_true (List.mem_filter.mp hr).2
  have hlimit : 1 < limit := by
    by_contra hle
    have hmul : limit * intervalSecs ≤ 1 * intervalSecs :=
      mul_le_mul_of_nonneg_right (by omega) hpos.le
    omega
  have hanchor_pos : 0 < anchorSecsOf startTime nowSecs := by omega
  have hpages := hchart.sublist ((List.take_sublist (n * K) _).trans hwindow)
  have hchrono := (hpages.readsAs hsized).chronological hpages.chronological
  rw [← hw.candles] at hchrono
  have hkept : upToStart startTime w.allCandles = w.allCandles := by
    apply upToStart_eq_self
    intro s hs hne c hc
    have hspos := start_pos hanchor_pos (fun heq => hne (Option.some.inj (hs.symm.trans heq))) s hs
    rw [hw.candles] at hc
    obtain ⟨r', hr', -, hts⟩ := (hpages.readsAs hsized).mem hc
    have hbefore' := hw.before r' hr'
    obtain rfl : startTime = some s := hs
    have hanchor : anchorSecsOf (some s) nowSecs = s / 1000 := by
      simp only [anchorSecsOf, if_neg hne]
      exact Int.tdiv_eq_ediv_of_nonneg hspos.le
    rw [hanchor] at hbefore'
    omega
  unfold finish
  rw [hchrono.ascending.sort_eq, hkept, sliceTail, if_pos (by omega)]
  exact getLast?_rtake _ (by omega)

/-- The candles of a window are those from its beginning on. -/
lemma candles_window (hsized : m.Sized) (hchart : Chart intervalSecs rows) (fromTs : ℤ) :
    chartCandles m (window fromTs rows) =
      (chartCandles m rows).filter fun x => fromTs * 1000 ≤ x.timestamp :=
  ((hchart.readsAs hsized).filter fun t => decide (fromTs * 1000 ≤ t)).symm

/-- Those that are wanted are those up to the anchor. -/
lemma candles_wanted (hsized : m.Sized) (hchart : Chart intervalSecs rows) (anchorSecs fromTs : ℤ) :
    chartCandles m (wanted anchorSecs fromTs rows) =
      (chartCandles m (window fromTs rows)).filter fun x => x.timestamp ≤ anchorSecs * 1000 :=
  (((hchart.sublist List.filter_sublist).readsAs hsized).filter
    fun t => decide (t ≤ anchorSecs * 1000)).symm

/-- What a call with a positive start, or with none, may return. -/
lemma upTo_endMs (hsized : m.Sized) (hchart : Chart intervalSecs rows)
    (hstart : ∀ s ∈ startTime, 0 < s) :
    upTo Candle.timestamp (some (endMs startTime nowSecs)) (chartCandles m rows) =
      (chartCandles m rows).filter fun x =>
        x.timestamp ≤ anchorSecsOf startTime nowSecs * 1000 := by
  apply List.filter_congr
  intro x hx
  obtain ⟨r, hr, -, hts⟩ := (hchart.readsAs hsized).mem hx
  rw [Bool.eq_iff_iff, Option.all_some, decide_eq_true_iff, decide_eq_true_iff, hts]
  exact le_endMs_iff (hchart.seconds r hr) hstart

/-- The candles that a walk wants are the newest of those. -/
lemma wanted_eq_filter (hsized : m.Sized) (hchart : Chart intervalSecs rows)
    (anchorSecs fromTs : ℤ) :
    chartCandles m (wanted anchorSecs fromTs rows) =
      ((chartCandles m rows).filter fun x => x.timestamp ≤ anchorSecs * 1000).filter
        fun x => fromTs * 1000 ≤ x.timestamp := by
  rw [candles_wanted hsized hchart, candles_window hsized hchart, List.filter_filter,
    List.filter_filter]
  congr 1
  funext x
  exact Bool.and_comm _ _

/-- A walk that a refusal or the cap has cut raises nothing, and what it returns ends with the
newest candle at or before the end exactly when the pages it got hold all the candles it wanted. -/
theorem candlesFutures_cut_iff (hfutures : m.marketType ≠ .spot) (hsized : m.Sized)
    (hinterval : intervalSecsMap.lookup m.interval = some intervalSecs)
    (hchart : Chart intervalSecs rows) (hserves : ServesChart venue m apiSymbol K rows n)
    (hcut : Cut venue m apiSymbol intervalSecs (anchorSecsOf startTime nowSecs)
      (anchorSecsOf startTime nowSecs - limit * intervalSecs) n) :
    ((∃ e, (getCandles m venue apiSymbol nowSecs startTime limit).result = .error e) ∨
      ∃ xs, (getCandles m venue apiSymbol nowSecs startTime limit).result = .ok xs ∧
        xs.getLast? = (upTo Candle.timestamp (some (endMs startTime nowSecs))
          (chartCandles m rows)).getLast?) ↔
      startTime ≠ some 0 ∧ (wanted (anchorSecsOf startTime nowSecs)
        (anchorSecsOf startTime nowSecs - limit * intervalSecs) rows).length ≤ n * K := by
  have hwindow : (window (anchorSecsOf startTime nowSecs - limit * intervalSecs) rows).Sublist
      rows := List.filter_sublist
  obtain ⟨w, hw, hnone, hall⟩ := hcut.run hsized hchart hserves
  have hlast := hw.getLast?_finish hsized hchart hcut.pos
  have hresult : (getCandles m venue apiSymbol nowSecs startTime limit).result =
      .ok (finish startTime limit w.allCandles) := by
    rw [getCandles_of_run hfutures hinterval hnone, hall]
  obtain ⟨r, hr, hr_page, hbefore⟩ := hw.exists_row hcut.pos
  have hdated := (hchart.dated r (hwindow.subset hr)).le_opens
  have hpos := hchart.interval
  -- only the list is left to compare
  have hsame : ((∃ e, (getCandles m venue apiSymbol nowSecs startTime limit).result = .error e) ∨
      ∃ xs, (getCandles m venue apiSymbol nowSecs startTime limit).result = .ok xs ∧
        xs.getLast? = (upTo Candle.timestamp (some (endMs startTime nowSecs))
          (chartCandles m rows)).getLast?) ↔
      w.allCandles.getLast? = (upTo Candle.timestamp (some (endMs startTime nowSecs))
        (chartCandles m rows)).getLast? := by
    rw [hresult, ← hlast]
    constructor
    · rintro (⟨e, he⟩ | ⟨xs, hxs, heq⟩)
      · exact absurd he (by simp)
      · rw [Except.ok.inj hxs]
        exact heq
    · exact fun heq => Or.inr ⟨_, rfl, heq⟩
  have hpages := hchart.sublist ((List.take_sublist (n * K) _).trans hwindow)
  have hfull : w.allCandles ≠ [] := by
    rw [hw.candles]
    intro hnil
    have hlength := (hpages.readsAs hsized).length_eq
    rw [hnil] at hlength
    exact hw.nonempty hcut.pos (List.length_eq_zero_iff.mp hlength.symm)
  rw [hsame]
  by_cases hzero : startTime = some 0
  · -- no candle is at or before the epoch, but the walk took it for no start
    subst hzero
    have hnone_before : upTo Candle.timestamp (some (endMs (some 0) nowSecs)) (chartCandles m rows) =
        [] := by
      rw [List.eq_nil_iff_forall_not_mem]
      intro x hx
      obtain ⟨hmem, hle⟩ := mem_upTo.mp hx
      obtain ⟨r', hr', -, hts⟩ := (hchart.readsAs hsized).mem hmem
      have hdated' := (hchart.dated r' hr').le_opens
      have hle' : x.timestamp ≤ 0 := hle _ rfl
      omega
    rw [hnone_before, List.getLast?_nil, List.getLast?_eq_none_iff]
    exact ⟨fun hnil => absurd hnil hfull, fun hcond => absurd rfl hcond.1⟩
  · have hanchor_pos : 0 < anchorSecsOf startTime nowSecs := by omega
    have hstart := start_pos hanchor_pos hzero
    have hwanted : wanted (anchorSecsOf startTime nowSecs)
        (anchorSecsOf startTime nowSecs - limit * intervalSecs) rows ≠ [] := by
      apply List.ne_nil_of_mem (a := r)
      exact List.mem_filter.mpr ⟨hr, decide_eq_true (by omega)⟩
    have hasked := hchart.sublist hwindow
    have hchrono := (hasked.readsAs hsized).chronological hasked.chronological
    have hcount : (chartCandles m (wanted (anchorSecsOf startTime nowSecs)
        (anchorSecsOf startTime nowSecs - limit * intervalSecs) rows)).length =
          (wanted (anchorSecsOf startTime nowSecs)
            (anchorSecsOf startTime nowSecs - limit * intervalSecs) rows).length :=
      ((hasked.sublist List.filter_sublist).readsAs hsized).length_eq
    have hnewest : (upTo Candle.timestamp (some (endMs startTime nowSecs))
        (chartCandles m rows)).getLast? = (chartCandles m (wanted (anchorSecsOf startTime nowSecs)
          (anchorSecsOf startTime nowSecs - limit * intervalSecs) rows)).getLast? := by
      rw [upTo_endMs hsized hchart hstart, wanted_eq_filter hsized hchart]
      symm
      apply Chronological.getLast?_filter
      · exact ((hchart.readsAs hsized).chronological hchart.chronological).sublist
          List.filter_sublist
      · exact fun x y hlt hx => decide_eq_true ((of_decide_eq_true hx).trans hlt.le)
      · rw [← wanted_eq_filter hsized hchart, ← List.length_pos_iff, hcount]
        exact List.length_pos_iff.mpr hwanted
    rw [hnewest, hw.candles, ← (hasked.readsAs hsized).take, candles_wanted hsized hchart, ← hcount,
      candles_wanted hsized hchart]
    refine (hchrono.getLast?_take_iff ?_ ?_).trans ⟨fun hle => ⟨hzero, hle⟩, And.right⟩
    · rw [(hasked.readsAs hsized).take, ← hw.candles]
      exact hfull
    · intro x hx
      rw [(hasked.readsAs hsized).take] at hx
      obtain ⟨r', hr', -, hts⟩ := (hpages.readsAs hsized).mem hx
      have hbefore' := hw.before r' hr'
      omega

end

/-! ## A walk that reaches its end -/

section

variable {m : Market} {venue : Venue KlineReply} {apiSymbol : String} {K : ℕ}
  {intervalSecs anchorSecs nowSecs : ℤ} {rows : List KlineRow}

/-- A chart without a gap. -/
structure Gapless (intervalSecs : ℤ) (rows : List KlineRow) : Prop extends
    Chart intervalSecs rows where
  steady : rows.IsChain fun r r' => r'.opens = r.opens + intervalSecs * 1000

/-- The rows before the anchor that the walk asks for. -/
def beforeAnchor (anchorSecs fromTs : ℤ) (rows : List KlineRow) : List KlineRow :=
  (window fromTs rows).filter fun r => r.opens < anchorSecs * 1000

/-- There is a candle at the anchor, and those before it fill whole pages. -/
def EndsPage (anchorSecs fromTs : ℤ) (K : ℕ) (rows : List KlineRow) : Prop :=
  (∃ r ∈ rows, r.opens = anchorSecs * 1000) ∧ beforeAnchor anchorSecs fromTs rows ≠ [] ∧
    K ∣ (beforeAnchor anchorSecs fromTs rows).length

/-- The rows that are asked for are a gapless chart again. -/
lemma Gapless.asked (h : Gapless intervalSecs rows) (fromTs : ℤ) :
    Gapless intervalSecs (window fromTs rows) := by
  refine ⟨h.toChart.sublist List.filter_sublist, ?_⟩
  have htail := h.chronological.filter_tail (p := fun r => fromTs * 1000 ≤ r.opens)
    fun x y hlt hx => decide_eq_true ((of_decide_eq_true hx).trans hlt.le)
  show (rows.filter fun r => fromTs * 1000 ≤ r.opens).IsChain _
  rw [htail]
  exact h.steady.drop _

/-- The rows before the anchor are the first ones that are asked for. -/
lemma Chart.beforeAnchor_eq_take (h : Chart intervalSecs rows) (anchorSecs fromTs : ℤ) :
    beforeAnchor anchorSecs fromTs rows =
      (window fromTs rows).take (beforeAnchor anchorSecs fromTs rows).length := by
  have hedge : beforeAnchor anchorSecs fromTs rows =
      (window fromTs rows).filter fun r => r.opens ≤ anchorSecs * 1000 - 1 := by
    apply List.filter_congr
    intro r _
    rw [Bool.eq_iff_iff, decide_eq_true_iff, decide_eq_true_iff]
    omega
  rw [hedge]
  exact (h.chronological.sublist List.filter_sublist).filter_until _

/-- What a walk that has ended leaves behind opens after the anchor, unless a page has ended just
before it. -/
lemma ChartEnd.rest_after {fromTs : ℤ} {w : ChartWalk} (hchart : Chart intervalSecs rows)
    (hK : 1 ≤ K) (hend : ChartEnd m K intervalSecs anchorSecs (window fromTs rows) w)
    (hpage : ¬ EndsPage anchorSecs fromTs K rows) :
    ∃ j, w.allCandles = ((window fromTs rows).take (j * K)).filterMap (chartCandle m) ∧
      ∀ r ∈ (window fromTs rows).drop (j * K), anchorSecs * 1000 < r.opens := by
  obtain ⟨j, hcandles, ⟨hempty, -⟩ | ⟨-, last, -, hlast, hreached, -⟩⟩ := hend
  · refine ⟨j, hcandles, fun r hr => ?_⟩
    have hnil : (window fromTs rows).drop (j * K) = [] := by
      rcases List.take_eq_nil_iff.mp hempty with hzero | hnil
      · omega
      · exact hnil
    rw [hnil] at hr
    exact absurd hr List.not_mem_nil
  · refine ⟨j, hcandles, fun r hr => ?_⟩
    have hwindow : (window fromTs rows).Sublist rows := List.filter_sublist
    have hsplit : (window fromTs rows).take (j * K) ++ (window fromTs rows).drop (j * K) =
        window fromTs rows := List.take_append_drop _ _
    have hpair := hsplit ▸ hchart.spaced.sublist hwindow
    have hgap := (List.pairwise_append.mp hpair).2.2 last (List.mem_of_getLast? hlast) r hr
    by_contra hle
    -- the row is the one at the anchor, and the pages end an interval before it
    have hr_opens : r.opens = anchorSecs * 1000 := by omega
    have hfirst : ((window fromTs rows).take (j * K)).filter (fun r => r.opens < anchorSecs * 1000) =
        (window fromTs rows).take (j * K) := by
      rw [List.filter_eq_self]
      intro r' hr'
      have hpage_gap := (List.pairwise_append.mp hpair).2.2 r' hr' r hr
      have hpos := hchart.interval
      apply decide_eq_true
      omega
    have hrest : ((window fromTs rows).drop (j * K)).filter (fun r => r.opens < anchorSecs * 1000) =
        [] := by
      rw [List.filter_eq_nil_iff]
      intro r' hr' hlt
      have hpage_gap := (List.pairwise_append.mp hpair).2.2 last (List.mem_of_getLast? hlast) r' hr'
      have hlt' := of_decide_eq_true hlt
      omega
    have hbefore : beforeAnchor anchorSecs fromTs rows = (window fromTs rows).take (j * K) := by
      unfold beforeAnchor
      conv_lhs => rw [← hsplit]
      rw [List.filter_append, hfirst, hrest, List.append_nil]
    have hmore := List.length_pos_of_mem hr
    rw [List.length_drop] at hmore
    apply hpage
    refine ⟨⟨r, hwindow.subset (List.mem_of_mem_drop hr), hr_opens⟩, ?_, ?_⟩
    · rw [hbefore]
      exact List.ne_nil_of_mem (List.mem_of_getLast? hlast)
    · rw [hbefore, List.length_take, Nat.min_eq_left (by omega)]
      exact Dvd.intro_left j rfl

/-- The last row before the anchor is an interval before it where there is one at the anchor. -/
lemma Gapless.exists_before (h : Gapless intervalSecs rows) {fromTs : ℤ}
    (hfrom : fromTs ≤ anchorSecs) (hat : ∃ r ∈ rows, r.opens = anchorSecs * 1000)
    (hne : beforeAnchor anchorSecs fromTs rows ≠ []) :
    ∃ z ∈ beforeAnchor anchorSecs fromTs rows, z.opens = (anchorSecs - intervalSecs) * 1000 := by
  obtain ⟨a, ha, ha_opens⟩ := hat
  have hasked := h.asked fromTs
  have ha_asked : a ∈ window fromTs rows :=
    List.mem_filter.mpr ⟨ha, decide_eq_true (by omega)⟩
  have hbefore := h.beforeAnchor_eq_take anchorSecs fromTs
  generalize hcount : (beforeAnchor anchorSecs fromTs rows).length = count at hbefore
  have hsplit : beforeAnchor anchorSecs fromTs rows ++ (window fromTs rows).drop count =
      window fromTs rows := by
    rw [hbefore]
    exact List.take_append_drop _ _
  have ha_rest : a ∈ (window fromTs rows).drop count := by
    have hmem := ha_asked
    rw [← hsplit] at hmem
    rcases List.mem_append.mp hmem with hin | hin
    · have hlt := of_decide_eq_true (List.mem_filter.mp hin).2
      omega
    · exact hin
  obtain ⟨z, hz⟩ := Option.isSome_iff_exists.mp (List.getLast?_isSome.mpr hne)
  obtain ⟨b, rest, hb⟩ := List.exists_cons_of_ne_nil (List.ne_nil_of_mem ha_rest)
  -- the row after it is not before the anchor, and is no later than the one at it
  have hsteady := hsplit ▸ hasked.steady
  have hpair := hsplit ▸ hasked.chronological
  have hnext : b.opens = z.opens + intervalSecs * 1000 := by
    apply (List.isChain_append.mp hsteady).2.2 z hz b
    rw [hb]
    rfl
  have hb_after : anchorSecs * 1000 ≤ b.opens := by
    have hb_mem : b ∈ (window fromTs rows).drop count := by
      rw [hb]
      exact List.mem_cons_self
    by_contra hlt
    have hb_before : b ∈ beforeAnchor anchorSecs fromTs rows :=
      List.mem_filter.mpr ⟨List.mem_of_mem_drop hb_mem, decide_eq_true (by omega)⟩
    have hself := (List.pairwise_append.mp hpair).2.2 b hb_before b hb_mem
    exact lt_irrefl _ hself
  have hb_le : b.opens ≤ a.opens := by
    have hrest := (List.pairwise_append.mp hpair).2.1
    rw [hb] at ha_rest hrest
    rcases List.mem_cons.mp ha_rest with rfl | hin
    · exact le_rfl
    · exact (List.rel_of_pairwise_cons hrest hin).le
  exact ⟨z, List.mem_of_getLast? hz, by omega⟩

/-- A walk whose page ends just before the anchor stops there. -/
lemma ChartEnd.all_before {fromTs : ℤ} {w : ChartWalk} (h : Gapless intervalSecs rows)
    (hend : ChartEnd m K intervalSecs anchorSecs (window fromTs rows) w) (hfrom : fromTs ≤ anchorSecs)
    (hpage : EndsPage anchorSecs fromTs K rows) :
    ∃ j, w.allCandles = ((window fromTs rows).take (j * K)).filterMap (chartCandle m) ∧
      ∀ r ∈ (window fromTs rows).take (j * K), r.opens < anchorSecs * 1000 := by
  have hpos := h.interval
  obtain ⟨j, hcandles, ⟨-, hbefore⟩ | ⟨i, last, rfl, -, -, hbefore⟩⟩ := hend
  · refine ⟨j, hcandles, fun r hr => ?_⟩
    have hlt := hbefore r hr
    omega
  · refine ⟨i + 1, hcandles, ?_⟩
    obtain ⟨hat, hne, pages, hpages⟩ := hpage
    obtain ⟨z, hz, hz_opens⟩ := h.exists_before hfrom hat hne
    have htake : beforeAnchor anchorSecs fromTs rows = (window fromTs rows).take (K * pages) := by
      rw [← hpages]
      exact h.beforeAnchor_eq_take anchorSecs fromTs
    -- the page that the walk stopped with is one of those before the anchor
    have hfewer : i < pages := by
      by_contra hmore
      have hz_take : z ∈ (window fromTs rows).take (i * K) := by
        rw [htake] at hz
        apply List.take_subset_take_left _ _ hz
        rw [Nat.mul_comm i K]
        exact Nat.mul_le_mul_left K (not_lt.mp hmore)
      have hlt := hbefore z hz_take
      omega
    intro r hr
    have hr_before : r ∈ beforeAnchor anchorSecs fromTs rows := by
      rw [htake]
      apply List.take_subset_take_left _ _ hr
      rw [Nat.mul_comm K pages]
      exact Nat.mul_le_mul_right K hfewer
    exact of_decide_eq_true (List.mem_filter.mp hr_before).2

/-- A walk whose rows before the anchor take fewer than 20 pages ends by itself. -/
lemma chartLoop_ends (hsized : m.Sized) (hchart : Chart intervalSecs rows)
    (hserves : ServesChart venue m apiSymbol K rows 20) {fromTs : ℤ}
    (hpages : (beforeAnchor anchorSecs fromTs rows).length < 20 * K) :
    (chartLoop m venue apiSymbol intervalSecs anchorSecs 20 { fromTs := fromTs }).2 = none ∧
      ChartEnd m K intervalSecs anchorSecs (window fromTs rows)
        (chartLoop m venue apiSymbol intervalSecs anchorSecs 20 { fromTs := fromTs }).1 := by
  have hpos := hchart.interval
  have hwindow : (window fromTs rows).Sublist rows := List.filter_sublist
  obtain ⟨hnone, hend | hmore⟩ :=
    chartLoop_ended hsized hchart hserves hwindow 20 (Charted.init fromTs) (by omega)
  · exact ⟨hnone, hend⟩
  · refine ⟨hnone, 20, hmore.candles, Or.inl ⟨?_, hmore.before⟩⟩
    have hsub : (window fromTs rows).take (20 * K) ⊆ beforeAnchor anchorSecs fromTs rows := by
      intro r hr
      have hlt := hmore.before r hr
      exact List.mem_filter.mpr ⟨List.mem_of_mem_take hr, decide_eq_true (by omega)⟩
    have hnodup := (hchart.chronological.sublist
      ((List.take_sublist (20 * K) _).trans hwindow)).nodup
    have hcount := (hnodup.subperm hsub).length_le
    rw [List.length_take] at hcount
    have hnil : (window fromTs rows).drop (20 * K) = [] := by
      rw [List.drop_eq_nil_iff]
      omega
    rw [hnil, List.take_nil]

/-- A row at a whole second is at or before a start when it is at or before its anchor. -/
lemma Chart.filter_start (hchart : Chart intervalSecs rows) (start : ℤ) :
    (rows.filter fun r => r.opens ≤ start) = rows.filter fun r => r.opens ≤ start / 1000 * 1000 := by
  apply List.filter_congr
  intro r hr
  have hsecs := hchart.seconds r hr
  rw [Bool.eq_iff_iff, decide_eq_true_iff, decide_eq_true_iff]
  omega

/-- A start counts by its whole seconds. -/
lemma upTo_start (hsized : m.Sized) (hchart : Chart intervalSecs rows) (start : ℤ) :
    upTo Candle.timestamp (some start) (chartCandles m rows) =
      (chartCandles m rows).filter fun x => x.timestamp ≤ start / 1000 * 1000 := by
  have hreads := hchart.readsAs hsized
  show (rows.filterMap (chartCandle m)).filter (fun x => decide (x.timestamp ≤ start)) = _
  rw [hreads.filter fun t => decide (t ≤ start), hchart.filter_start]
  exact (hreads.filter fun t => decide (t ≤ start / 1000 * 1000)).symm

/-- The last lines under a positive start keep what is at or before the anchor. -/
lemma finish_chartCandles (hsized : m.Sized) (hchart : Chart intervalSecs rows) {start : ℤ}
    (hstart : 0 < start) {limit : ℕ} (hlimit : 1 ≤ limit) :
    finish (some start) limit (chartCandles m rows) =
      ((chartCandles m rows).filter fun x => x.timestamp ≤ start / 1000 * 1000).rtake limit := by
  have hchrono := (hchart.readsAs hsized).chronological hchart.chronological
  unfold finish
  rw [chartCandles, hchrono.ascending.sort_eq, ← chartCandles, ← upTo_start hsized hchart]
  show sliceTail (if start = 0 then _ else _) _ = _
  rw [if_neg hstart.ne', sliceTail, if_pos (by omega), Int.toNat_natCast]
  rfl

/-- Where what a walk leaves behind is after the anchor, its pages hold the newest of the candles at
or before it, as many as are wanted. -/
lemma filter_pages (hsized : m.Sized) (hchart : Chart intervalSecs rows) {fromTs : ℤ} {taken : ℕ}
    (hafter : ∀ r ∈ (window fromTs rows).drop taken, anchorSecs * 1000 < r.opens) :
    (chartCandles m ((window fromTs rows).take taken)).filter
        (fun x => x.timestamp ≤ anchorSecs * 1000) =
      ((chartCandles m rows).filter fun x => x.timestamp ≤ anchorSecs * 1000).rtake
        (wanted anchorSecs fromTs rows).length := by
  have hwindow : (window fromTs rows).Sublist rows := List.filter_sublist
  have hall : ((window fromTs rows).take taken).filter (fun r => r.opens ≤ anchorSecs * 1000) =
      wanted anchorSecs fromTs rows := by
    have hrest : ((window fromTs rows).drop taken).filter
        (fun r => r.opens ≤ anchorSecs * 1000) = [] := by
      rw [List.filter_eq_nil_iff]
      intro r hr hle
      exact absurd (of_decide_eq_true hle) (hafter r hr).not_ge
    unfold wanted
    conv_rhs => rw [← List.take_append_drop taken (window fromTs rows)]
    rw [List.filter_append, hrest, List.append_nil]
  have hpages := hchart.sublist ((List.take_sublist taken _).trans hwindow)
  have hread := (hpages.readsAs hsized).filter fun t => decide (t ≤ anchorSecs * 1000)
  have hcount : (chartCandles m (wanted anchorSecs fromTs rows)).length =
      (wanted anchorSecs fromTs rows).length :=
    ((hchart.sublist (List.filter_sublist.trans hwindow)).readsAs hsized).length_eq
  have hchrono : Chronological Candle.timestamp
      ((chartCandles m rows).filter fun x => x.timestamp ≤ anchorSecs * 1000) :=
    ((hchart.readsAs hsized).chronological hchart.chronological).sublist List.filter_sublist
  unfold chartCandles at hcount ⊢
  rw [hread, hall, ← hcount, ← chartCandles, wanted_eq_filter hsized hchart]
  apply hchrono.filter_tail
  exact fun x y hlt hx => decide_eq_true ((of_decide_eq_true hx).trans hlt.le)

/-- There are as many candles at or before a start as rows. -/
lemma length_filter_start (hsized : m.Sized) (hchart : Chart intervalSecs rows) (start : ℤ) :
    ((chartCandles m rows).filter fun x => x.timestamp ≤ start / 1000 * 1000).length =
      (rows.filter fun r => r.opens ≤ start).length := by
  have hread := (hchart.readsAs hsized).filter fun t => decide (t ≤ start / 1000 * 1000)
  rw [chartCandles, hread, ((hchart.sublist List.filter_sublist).readsAs hsized).length_eq,
    ← hchart.filter_start]

/-- A walk on a gapless chart returns the newest candles at or before the start exactly when no
page ends just before a candle at the anchor, and the `limit` intervals before the anchor hold as
many candles as there are to return. -/
theorem candlesFutures_exact_iff (hfutures : m.marketType ≠ .spot) (hsized : m.Sized)
    (hinterval : intervalSecsMap.lookup m.interval = some intervalSecs)
    (hrows : Gapless intervalSecs rows) (hK : 1 ≤ K)
    (hserves : ServesChart venue m apiSymbol K rows 20) {start : ℤ} (hstart : 0 < start) {limit : ℕ}
    (hlimit : 1 ≤ limit)
    (hpages : (beforeAnchor (start / 1000) (start / 1000 - limit * intervalSecs) rows).length <
      20 * K) :
    (getCandles m venue apiSymbol nowSecs (some start) limit).result =
        .ok ((upTo Candle.timestamp (some start) (chartCandles m rows)).rtake limit) ↔
      ¬ EndsPage (start / 1000) (start / 1000 - limit * intervalSecs) K rows ∧
        min limit (rows.filter fun r => r.opens ≤ start).length ≤
          (wanted (start / 1000) (start / 1000 - limit * intervalSecs) rows).length := by
  have hchart := hrows.toChart
  have hpos := hchart.interval
  have hanchor : anchorSecsOf (some start) nowSecs = start / 1000 := by
    simp only [anchorSecsOf, if_neg hstart.ne']
    exact Int.tdiv_eq_ediv_of_nonneg hstart.le
  have hfrom : start / 1000 - limit * intervalSecs ≤ start / 1000 := by
    have hback : 0 ≤ limit * intervalSecs := by positivity
    omega
  generalize hfromTs : start / 1000 - limit * intervalSecs = fromTs at hpages hfrom ⊢
  obtain ⟨hnone, hend⟩ := chartLoop_ends hsized hchart hserves hpages
  have hresult : (getCandles m venue apiSymbol nowSecs (some start) limit).result =
      .ok (finish (some start) limit (chartLoop m venue apiSymbol intervalSecs (start / 1000) 20
        { fromTs := fromTs }).1.allCandles) := by
    have hrun : (chartLoop m venue apiSymbol intervalSecs (anchorSecsOf (some start) nowSecs) 20
        { fromTs := anchorSecsOf (some start) nowSecs - limit * intervalSecs }).2 = none := by
      rw [hanchor, hfromTs]
      exact hnone
    rw [getCandles_of_run hfutures hinterval hrun, hanchor, hfromTs]
  generalize (chartLoop m venue apiSymbol intervalSecs (start / 1000) 20
    { fromTs := fromTs }).1 = w at hend hresult
  have hwindow : (window fromTs rows).Sublist rows := List.filter_sublist
  have hbound := upTo_start hsized hchart start
  have hreads := hchart.readsAs hsized
  have hchrono : Chronological Candle.timestamp
      ((chartCandles m rows).filter fun x => x.timestamp ≤ start / 1000 * 1000) :=
    (hreads.chronological hchart.chronological).sublist List.filter_sublist
  by_cases hpage : EndsPage (start / 1000) fromTs K rows
  · -- the candle at the anchor is wanted, and is not among the pages
    obtain ⟨j, hcandles, hbefore⟩ := hend.all_before hrows hfrom hpage
    have hpages_chart := hchart.sublist ((List.take_sublist (j * K) _).trans hwindow)
    obtain ⟨a, ha, ha_opens⟩ := hpage.1
    obtain ⟨c, hc, hc_time⟩ := hreads a ha
    have hc_mem : c ∈ (chartCandles m rows).filter fun x => x.timestamp ≤ start / 1000 * 1000 :=
      List.mem_filter.mpr ⟨List.mem_filterMap.mpr ⟨a, ha, hc⟩, decide_eq_true (by omega)⟩
    obtain ⟨z, hz, hnewest, hz_tail⟩ := hchrono.exists_newest (List.ne_nil_of_mem hc_mem)
    have hz_late := hnewest c hc_mem
    constructor
    · intro heq
      rw [hresult, Except.ok.injEq, hcandles, ← chartCandles,
        finish_chartCandles hsized hpages_chart hstart hlimit, hbound] at heq
      have hz_page := hz_tail limit hlimit
      rw [← heq] at hz_page
      have hz_candle := (List.mem_filter.mp (List.mem_of_mem_drop hz_page)).1
      obtain ⟨r, hr, -, hr_time⟩ := (hpages_chart.readsAs hsized).mem hz_candle
      have hlt := hbefore r hr
      omega
    · exact fun hcond => absurd hpage hcond.1
  · -- what the walk leaves behind is after the anchor
    obtain ⟨j, hcandles, hafter⟩ := hend.rest_after hchart hK hpage
    have hpages_chart := hchart.sublist ((List.take_sublist (j * K) _).trans hwindow)
    have hpart := filter_pages hsized hchart hafter
    have hlength := length_filter_start hsized hchart start
    rw [hresult, Except.ok.injEq, hcandles, ← chartCandles,
      finish_chartCandles hsized hpages_chart hstart hlimit, hbound, hpart,
      rtake_rtake_min, rtake_eq_rtake_iff, hlength]
    have hle : (wanted (start / 1000) fromTs rows).length ≤
        (rows.filter fun r => r.opens ≤ start).length := by
      rw [hchart.filter_start]
      exact (hwindow.filter _).length_le
    constructor
    · intro heq
      exact ⟨hpage, by omega⟩
    · intro hcond
      omega

end

/-! ## Three candles -/

/-- A minute candle that opens at this second. -/
def bar (secs : ℤ) : KlineRow :=
  ⟨some (secs * 1000), [some 1, some 1, some 1, some 1, some 1]⟩

/-- Three minutes of candles. -/
def minuteChart : List KlineRow := [bar 1700000000, bar 1700000060, bar 1700000120]

/-- A venue that serves these rows in pages of `K`. -/
def serveChart (K : ℕ) (rows : List KlineRow) : Venue KlineReply := fun _ q =>
  match q.params.lookup "from" with
  | some (.int a) =>
    .ok (.object [("candles", some ((rows.filter fun r => a * 1000 ≤ r.opens).take K))])
  | _ => .ok (.object [])

/-- The linear contract whose chart it is. -/
def pfXbt : Market := ⟨"BTC-USD", .linear, "USD", "1m", none⟩

lemma serveChart_serves (K : ℕ) (rows : List KlineRow) (n : ℕ) :
    ServesChart (serveChart K rows) pfXbt "PF_XBTUSD" K rows n :=
  fun _ _ _ => ⟨_, rfl, rfl⟩

lemma pfXbt_sized : pfXbt.Sized := fun h => absurd h (by decide)

lemma bar_full (secs : ℤ) : (bar secs).Full := ⟨Nat.le_refl 5, by simp [bar]⟩

lemma bar_dated {secs : ℤ} (h : 100000000 ≤ secs) : (bar secs).Dated :=
  ⟨secs * 1000, rfl, by omega⟩

lemma gapless_minuteChart : Gapless 60 minuteChart where
  interval := by decide
  spaced := by simp [minuteChart, bar, KlineRow.opens]
  full := by
    intro r hr
    simp only [minuteChart, List.mem_cons, List.not_mem_nil, or_false] at hr
    rcases hr with rfl | rfl | rfl <;> exact bar_full _
  dated := by
    intro r hr
    simp only [minuteChart, List.mem_cons, List.not_mem_nil, or_false] at hr
    rcases hr with rfl | rfl | rfl <;> exact bar_dated (by decide)
  seconds := by decide
  steady := by simp [minuteChart, bar, KlineRow.opens]

/-- The first of two pages of two ends a minute before the start, and the candle at the start is
on the second. -/
theorem candlesFutures_misses_start :
    Gapless 60 minuteChart ∧
      ServesChart (serveChart 2 minuteChart) pfXbt "PF_XBTUSD" 2 minuteChart 20 ∧
      (wanted 1700000120 (1700000120 - 2 * 60) minuteChart).length ≤ 19 * 2 ∧
      (getCandles pfXbt (serveChart 2 minuteChart) "PF_XBTUSD" 1700000200 (some 1700000120000)
          2).result ≠
        .ok ((upTo Candle.timestamp (some 1700000120000)
          (chartCandles pfXbt minuteChart)).rtake 2) := by
  refine ⟨gapless_minuteChart, serveChart_serves 2 minuteChart 20, by decide, fun hexact => ?_⟩
  have htimes := congrArg (fun r => r.toOption.map fun cs => cs.map Candle.timestamp) hexact
  exact absurd htimes (by decide)

/-- With one candle asked for both are on the first page. -/
theorem candlesFutures_exact_iff_page :
    (getCandles pfXbt (serveChart 2 minuteChart) "PF_XBTUSD" 1700000200 (some 1700000060000)
        (1 : ℕ)).result =
      .ok ((upTo Candle.timestamp (some 1700000060000)
        (chartCandles pfXbt minuteChart)).rtake 1) := by
  have hfutures : pfXbt.marketType ≠ .spot := by decide
  refine (candlesFutures_exact_iff hfutures pfXbt_sized rfl gapless_minuteChart (by decide)
    (serveChart_serves 2 minuteChart 20) (by decide) (by decide) (by decide)).mpr ⟨?_, by decide⟩
  exact fun hpage => absurd hpage.2.2 (by decide)

/-- A venue that refuses every request after the first `k`. -/
def refuseAfter (k : ℕ) (venue : Venue KlineReply) : Venue KlineReply := fun n q =>
  if n < k then venue n q else .error (.valueError "rate limited")

/-- A venue that refuses later requests serves those before. -/
lemma refuseAfter_serves {k : ℕ} {venue : Venue KlineReply} {K : ℕ} {rows : List KlineRow}
    (h : ServesChart venue pfXbt "PF_XBTUSD" K rows k) :
    ServesChart (refuseAfter k venue) pfXbt "PF_XBTUSD" K rows k := by
  intro i hi fromTs
  obtain ⟨entries, hreply, hentry⟩ := h i hi fromTs
  exact ⟨entries, (if_pos hi).trans hreply, hentry⟩

/-- The second page is refused, and the walk is left with the oldest candle of the three. -/
theorem candlesFutures_cut_leaves_old :
    Chart 60 minuteChart ∧
      ServesChart (refuseAfter 1 (serveChart 1 minuteChart)) pfXbt "PF_XBTUSD" 1 minuteChart 1 ∧
      Cut (refuseAfter 1 (serveChart 1 minuteChart)) pfXbt "PF_XBTUSD" 60
        (anchorSecsOf none 1700000120) (anchorSecsOf none 1700000120 - 2 * 60) 1 ∧
      ¬ ((∃ e, (getCandles pfXbt (refuseAfter 1 (serveChart 1 minuteChart)) "PF_XBTUSD" 1700000120
            none 2).result = .error e) ∨
        ∃ xs, (getCandles pfXbt (refuseAfter 1 (serveChart 1 minuteChart)) "PF_XBTUSD" 1700000120
            none 2).result = .ok xs ∧
          xs.getLast? = (upTo Candle.timestamp (some (endMs none 1700000120))
            (chartCandles pfXbt minuteChart)).getLast?) := by
  refine ⟨gapless_minuteChart.toChart, refuseAfter_serves (serveChart_serves 1 minuteChart 1),
    ⟨le_rfl, ⟨_, rfl⟩, Or.inr ⟨by decide, _, rfl, fun _ => rfl⟩⟩, ?_⟩
  rintro (⟨e, he⟩ | ⟨xs, hxs, hlast⟩)
  · exact absurd (congrArg (fun r => r.toOption.isSome) he) Bool.noConfusion
  · have htimes := congrArg (fun r => r.toOption.bind fun cs => cs.getLast?.map Candle.timestamp) hxs
    have hlast_time := congrArg (Option.map Candle.timestamp) hlast
    exact absurd (htimes.trans hlast_time) (by decide)

/-- Three candles on two pages, the last of them minutes before the end: the refusal of a third page
takes nothing away. -/
theorem candlesFutures_cut_iff_pages :
    (∃ e, (getCandles pfXbt (refuseAfter 2 (serveChart 2 minuteChart)) "PF_XBTUSD" 1700000300
        none 6).result = .error e) ∨
      ∃ xs, (getCandles pfXbt (refuseAfter 2 (serveChart 2 minuteChart)) "PF_XBTUSD" 1700000300
          none 6).result = .ok xs ∧
        xs.getLast? = (upTo Candle.timestamp (some (endMs none 1700000300))
          (chartCandles pfXbt minuteChart)).getLast? := by
  have hcut : Cut (refuseAfter 2 (serveChart 2 minuteChart)) pfXbt "PF_XBTUSD" 60
      (anchorSecsOf none 1700000300) (anchorSecsOf none 1700000300 - 6 * 60) 2 :=
    ⟨by decide, ⟨_, rfl⟩, Or.inr ⟨by decide, _, rfl, fun _ => rfl⟩⟩
  exact (candlesFutures_cut_iff (by decide) pfXbt_sized rfl gapless_minuteChart.toChart
    (refuseAfter_serves (serveChart_serves 2 _ 2)) hcut).mpr ⟨by decide, by decide⟩

end Kraken

end ExchangeRouter

