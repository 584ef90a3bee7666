import ExchangeRouter.KlinesTheorems
import ExchangeRouter.PaginateTheorems

/-!
# Reads that end at their start

`?start=X` promises records with `timestamp <= X`. A path keeps the promise by the end that each
of its requests carries, or by cutting the result itself. `FetchBelow` is what the walk asks of a
page, `Below` the invariant it keeps then; the lemmas after them say of each path that a start
which is not zero bounds what comes back.
-/

namespace ExchangeRouter

open Fallible Newest

/-! ## An upstream that honours the end of a request -/

/-- The request carries the end `e`. The bound of OKX is one past the last record. -/
def Query.EndsAt (q : Query) (e : ℤ) : Prop :=
  ("endTime", .int e) ∈ q.params ∨ ("end", .int e) ∈ q.params ∨
    ("after", .text (toString (e + 1))) ∈ q.params

/-- The request carries an end. -/
def Query.ends (q : Query) : Bool :=
  q.params.any fun p => decide (p.1 = "endTime" ∨ p.1 = "end" ∨ p.1 = "after")

/-- The request carries a beginning. -/
def Query.begins (q : Query) : Bool :=
  q.params.any fun p => decide (p.1 = "since" ∨ p.1 = "from")

section

variable {ρ β : Type*} (rows : ρ → List β) (stamp : β → Option ℤ)

/-- A reply to a request with an end has no row after it. -/
def HonoursEnd (venue : Venue ρ) : Prop :=
  ∀ n q reply, venue n q = .ok reply → ∀ e, q.EndsAt e → ∀ r ∈ rows reply, ∀ t ∈ stamp r, t ≤ e

/-- Nothing that the reply leaves out of the history is newer than what it has, and it is empty
only where the history is. -/
structure HoldsNewest (history page : List β) : Prop where
  subset : page ⊆ history
  newer : ∀ r ∈ history, r ∉ page → ∀ r' ∈ page, ∀ t ∈ stamp r, ∀ t' ∈ stamp r', t ≤ t'
  nonempty : history ≠ [] → page ≠ []

/-- A request with no end, and no beginning either, gets the newest rows of a history that only
grows. -/
def ServesLatest (venue : Venue ρ) : Prop :=
  ∃ history : ℕ → List β, (∀ n, history n ⊆ history (n + 1)) ∧
    ∀ n q reply, venue n q = .ok reply → q.ends = false → q.begins = false →
      HoldsNewest stamp (history n) (rows reply)

/-- What the theorems ask of a venue. -/
structure HonestVenue (venue : Venue ρ) : Prop where
  honoursEnd : HonoursEnd rows stamp venue
  servesLatest : ServesLatest rows stamp venue

end

/-- Every record that the call returns is at or before the start. -/
def Bounded {α : Type*} (timestamp : α → ℤ) (start : ℤ) (call : ReadCall α) : Prop :=
  ∀ xs, call.result = .ok xs → ∀ x ∈ xs, timestamp x ≤ start

/-- The exchange has the interval of the call. -/
def CandlesPath.Supports (m : Market) : CandlesPath → Prop
  | kraken _ _ =>
    if m.marketType = .spot then Kraken.spotIntervals.lookup m.interval ≠ none
    else Kraken.intervalSecsMap.lookup m.interval ≠ none
  | _ => True

/-! ## The walk -/

section

variable {ρ α κ : Type*} [DecidableEq κ] {timestamp : α → ℤ} {modelDumpJson : α → κ}
  {start : ℤ}

variable (timestamp start) in
/-- A page has nothing after the start when the walk's own anchor is positive and not after it. -/
def FetchBelow (fetch : Upstream α) : Prop :=
  ∀ n request batch, fetch n request = .ok batch → (∀ e ∈ request.endTs, 0 < e ∧ e ≤ start) →
    ∀ x ∈ batch, timestamp x ≤ start

variable (timestamp start) in
/-- The invariant of the walk under such a fetch. -/
structure Below (s : PageState α κ) : Prop where
  held : ∀ x ∈ s.held, timestamp x ≤ start
  current : ∀ e ∈ s.currentEnd, 0 < e ∧ e ≤ start

omit [DecidableEq κ] in
lemma Below.init : Below timestamp start ({} : PageState α κ) := by
  refine ⟨fun x hx => ?_, fun e he => ?_⟩
  · exact absurd hx List.not_mem_nil
  · exact absurd he (by simp)

variable (modelDumpJson) in
/-- A page keeps the records below the start, and the anchor it leaves is positive. -/
lemma Below.step {fetch : Upstream α} (hfetch : FetchBelow timestamp start fetch) (l : ℤ)
    {s : PageState α κ} (h : Below timestamp start s) :
    match pageStep timestamp modelDumpJson fetch l s with
    | .stop s' _ => ∀ x ∈ s'.held, timestamp x ≤ start
    | .again s' => Below timestamp start s' := by
  rcases pageStep_cases timestamp modelDumpJson fetch l s with
    ⟨e, -, hstep⟩ | ⟨batch, hbatch, hcases⟩
  · rw [hstep]
    exact h.held
  rcases hcases with ⟨-, hstep⟩ | ⟨oldest, rest, newItems, seen, hsort, hdrop, hcases⟩
  · rw [hstep]
    exact h.held
  have hpage : ∀ x ∈ batch, timestamp x ≤ start := hfetch _ _ _ hbatch h.current
  have hnew : ∀ x ∈ newItems, timestamp x ≤ start := by
    intro x hx
    have hsub := dropSeen_sublist modelDumpJson s.seen (oldest :: rest)
    rw [hdrop, ← hsort] at hsub
    exact hpage x ((mem_sortByTime timestamp).mp (hsub.subset hx))
  have hheld : ∀ x ∈ ((s.sent ⟨s.currentEnd, l⟩).absorb newItems seen).held,
      timestamp x ≤ start := by
    intro x hx
    rw [PageState.held_absorb, PageState.held_sent] at hx
    rcases List.mem_append.mp hx with hx | hx
    · exact h.held x hx
    · exact hnew x hx
  rcases hcases with ⟨-, hstep⟩ | ⟨-, -, hstep⟩ | ⟨-, hmove, hstep⟩
  · rw [hstep]
    exact h.held
  · rw [hstep]
    exact hheld
  · rw [hstep]
    refine ⟨hheld, fun e he => ?_⟩
    obtain rfl : timestamp oldest = e := Option.some.inj he
    have hle := hpage oldest (oldest_of_sort hsort).1
    simp only [stalled, Bool.or_eq_false_iff, decide_eq_false_iff_not] at hmove
    omega

variable (modelDumpJson) in
/-- Induction on the requests left, with `Below` as the invariant. -/
lemma pageLoop_below {fetch : Upstream α} (hfetch : FetchBelow timestamp start fetch)
    (limit l : ℤ) (left : ℕ) {s : PageState α κ} (h : Below timestamp start s) :
    ∀ x ∈ (pageLoop timestamp modelDumpJson fetch limit l left s).1.held,
      timestamp x ≤ start := by
  induction left generalizing s with
  | zero => exact h.held
  | succ left ih =>
    unfold pageLoop
    split
    · have hstep := h.step modelDumpJson hfetch l
      cases hpage : pageStep timestamp modelDumpJson fetch l s with
      | stop s' fault =>
        rw [hpage] at hstep
        exact hstep
      | again s' =>
        rw [hpage] at hstep
        exact ih hstep
    · exact h.held

/-- A slice has nothing that the list does not have. -/
lemma mem_of_mem_sliceTail {xs : List α} {n : ℤ} {x : α} (hx : x ∈ sliceTail xs n) : x ∈ xs := by
  unfold sliceTail at hx
  split at hx
  · exact (List.drop_sublist _ _).subset hx
  · exact List.mem_of_mem_drop hx

/-- The walk returns records of its pages only. -/
lemma walk_bounded {fetch : Upstream α} (hfetch : FetchBelow timestamp start fetch)
    (query : ℕ → PageRequest → Query) (limit l : ℤ) :
    Bounded timestamp start (walk timestamp modelDumpJson fetch query limit l) := by
  intro xs hxs x hx
  have hheld := pageLoop_below modelDumpJson hfetch limit l maxRequests Below.init
  simp only [walk, paginateBackwards] at hxs
  split at hxs
  · exact absurd hxs (by simp)
  · rw [← Except.ok.inj hxs] at hx
    have hout := mem_of_mem_sliceTail hx
    exact hheld x ((PageState.out_perm timestamp _).mem_iff.mp hout)

/-- One page or many: a fetch that stays below the start keeps the call below it. -/
lemma PagedRead.callWith_bounded (r : PagedRead) {fetch : Upstream α}
    (hfetch : FetchBelow timestamp start fetch) :
    Bounded timestamp start (r.callWith timestamp modelDumpJson fetch) := by
  unfold PagedRead.callWith
  split
  · exact walk_bounded hfetch r.query r.limit r.perReq
  · intro xs hxs x hx
    cases hbatch : fetch 0 ⟨none, r.limit⟩ with
    | error e => simp [onePage, hbatch, Except.map] at hxs
    | ok batch =>
      simp only [onePage, hbatch, Except.map, Except.ok.injEq] at hxs
      have hmem : x ∈ batch := by
        rw [← hxs] at hx
        split at hx
        · exact mem_of_mem_sliceTail hx
        · exact hx
      exact hfetch 0 _ batch hbatch (by simp) x hmem

end

/-! ## The bound of each path -/

/-- The anchor of a page, under a start that is one. -/
lemma anchor_admissible {start : ℤ} (hstart : 0 < start) {endTs : Option ℤ}
    (h : ∀ e ∈ endTs, 0 < e ∧ e ≤ start) :
    ∃ a, anchor endTs (some start) = some a ∧ 0 < a ∧ a ≤ start := by
  cases endTs with
  | none => exact ⟨start, rfl, hstart, le_refl _⟩
  | some e => exact ⟨e, rfl, h e rfl⟩

/-- An anchor that is not zero becomes a parameter. -/
lemma ifAnchor_of_pos {a : ℤ} (ha : 0 < a) (param : ℤ → String × Param) :
    ifAnchor (some a) param = [param a] := by
  unfold ifAnchor
  exact if_neg (by omega)

section

variable {ρ α β κ : Type*} [DecidableEq κ] {rows : ρ → List β} {stamp : β → Option ℤ}
  {timestamp : α → ℤ} {modelDumpJson : α → κ} {m : Market} {venue : Venue ρ}
  {parse : ρ → Except Fault (List α)} {start : ℤ}

omit [DecidableEq κ] in
/-- Requests that end at or before the start bring nothing after it. A market without a size
brings nothing at all. -/
lemma fetchBelow_of_ends (hparse : ParsesRows m rows stamp timestamp parse)
    (hvenue : HonoursEnd rows stamp venue) {query : ℕ → PageRequest → Query}
    (hends : m.Sized → ∀ n r, (∀ e ∈ r.endTs, 0 < e ∧ e ≤ start) →
      ∃ a ≤ start, (query n r).EndsAt a) :
    FetchBelow timestamp start (fetchPage venue parse query) := by
  intro n request batch hbatch hadm x hx
  obtain ⟨reply, hreply, hcs⟩ := bind_ok hbatch
  obtain ⟨r, hr, hreads⟩ := hparse reply batch hcs x hx
  obtain ⟨a, ha, hend⟩ := hends hreads.sized n request hadm
  have hle : timestamp x ≤ a := hvenue n _ reply hreply a hend r hr _ hreads.stamp_eq
  omega

/-- A paged read whose requests end at their anchor, under a start that is one or on a market
that has no size. -/
lemma PagedRead.call_bounded (r : PagedRead) (hparse : ParsesRows m rows stamp timestamp parse)
    (hvenue : HonoursEnd rows stamp venue) (hstart : m.Sized → 0 < start)
    (hends : ∀ n request a, anchor request.endTs (some start) = some a → 0 < a →
      (r.query n request).EndsAt a) :
    Bounded timestamp start (r.call timestamp modelDumpJson venue parse) := by
  apply PagedRead.callWith_bounded
  apply fetchBelow_of_ends hparse hvenue
  intro hsized n request hadm
  obtain ⟨a, hanchor, hpos, hle⟩ := anchor_admissible (hstart hsized) hadm
  exact ⟨a, hle, hends n request a hanchor hpos⟩

end

section

variable {κ : Type*} [DecidableEq κ] {m : Market} {start : ℤ} (limit : ℤ)

/-- `get_agg_trades` of Binance, under a start that is one or a market that has no size. -/
lemma Binance.aggTrades_bounded (modelDumpJson : AggTrade → κ) {venue : Venue (List AggRow)}
    (hvenue : HonoursEnd id AggRow.stamp venue) (hstart : m.Sized → 0 < start)
    (apiSymbol : String) :
    Bounded AggTrade.timestamp start
      (aggTradesCall modelDumpJson m venue apiSymbol (some start) limit) := by
  apply PagedRead.call_bounded _ (parsesRows_aggTrades m) hvenue hstart
  intro n request a hanchor hpos
  apply Or.inl
  simp [getAggTrades, hanchor, ifAnchor_of_pos hpos]

variable (modelDumpJson : Kline → κ) {venue : Venue KlineReply}

/-- Binance's candles are at or before a start that is not zero. -/
lemma Binance.candles_bounded (hvenue : HonoursEnd KlineReply.rows KlineRow.stamp venue)
    (hstart : m.Sized → 0 < start) (apiSymbol : String) :
    Bounded Candle.timestamp start
      ((CandlesPath.binance apiSymbol).call modelDumpJson m venue (some start) limit) := by
  apply PagedRead.call_bounded _ (parsesRows_candles m) hvenue hstart
  intro n request a hanchor hpos
  apply Or.inl
  simp [getCandles, hanchor, ifAnchor_of_pos hpos]

/-- The same of Bybit's. -/
lemma Bybit.candles_bounded (hvenue : HonoursEnd KlineReply.rows KlineRow.stamp venue)
    (hstart : m.Sized → 0 < start) (cat apiSymbol bybitInterval : String) :
    Bounded Candle.timestamp start
      ((CandlesPath.bybit cat apiSymbol bybitInterval).call modelDumpJson m venue (some start)
        limit) := by
  apply PagedRead.call_bounded _ (parsesRows m) hvenue hstart
  intro n request a hanchor hpos
  apply Or.inr
  apply Or.inl
  simp [getCandles, hanchor, ifAnchor_of_pos hpos]

namespace Okx

/-- Of candles of one time one stays, and none is made. -/
lemma mem_of_mem_byTimestamp {α : Type*} {timestamp : α → ℤ} {xs : List α} {x : α}
    (h : x ∈ byTimestamp timestamp xs) : x ∈ xs := by
  unfold byTimestamp at h
  have hmem := (mem_sortByTime timestamp).mp h
  clear h
  -- over the list from its end: the last candle is the one that was put in last
  induction xs using List.reverseRecOn with
  | nil => exact absurd hmem List.not_mem_nil
  | append_singleton xs last ih =>
    rw [List.foldl_concat, AList.entries_insert, List.map_cons] at hmem
    rcases List.mem_cons.mp hmem with rfl | hmem
    · exact List.mem_append_right _ (List.mem_singleton_self _)
    · apply List.mem_append_left
      apply ih
      exact ((List.kerase_sublist _ _).map _).subset hmem

/-- A page of OKX: its candles are after the first millisecond and before the end of the
request. -/
lemma page_below (hvenue : HonoursEnd KlineReply.rows KlineRow.stamp venue) {n : ℕ} {q : Query}
    {batch : List Kline} (hbatch : (venue n q).bind (parseCandles m) = .ok batch) :
    ∀ c ∈ batch, m.Sized ∧ 1 < c.timestamp ∧ ∀ e, q.EndsAt e → c.timestamp ≤ e := by
  intro c hc
  obtain ⟨reply, hreply, hcs⟩ := bind_ok hbatch
  obtain ⟨hone, r, hr, hreads⟩ := parseCandles_ok hcs c hc
  exact ⟨hreads.sized, hone,
    fun e hend => hvenue n q reply hreply e hend r hr _ hreads.stamp_eq⟩

/-- A candle request ends at its anchor, one before its `after`. -/
lemma candleQuery_endsAt {path apiSymbol bar : String} {cap a : ℤ} {startTime : Option ℤ}
    {r : PageRequest} (hanchor : anchor r.endTs startTime = some a) (hpos : 0 < a) :
    (candleQuery path apiSymbol bar cap startTime r).EndsAt a := by
  refine Or.inr (Or.inr ?_)
  simp [candleQuery, hanchor, ifAnchor_of_pos hpos]

/-- The walk over older candles, when each of its anchors is at or before the start. -/
lemma historyWalk_bounded (hvenue : HonoursEnd KlineReply.rows KlineRow.stamp venue)
    (c : CandlesRead) {older : PageRequest → PageRequest} (limit : ℤ)
    (holder : m.Sized → ∀ r : PageRequest, (∀ e ∈ r.endTs, 0 < e ∧ e ≤ start) →
      ∃ a, anchor (older r).endTs c.startTime = some a ∧ 0 < a ∧ a ≤ start) :
    Bounded Candle.timestamp start
      (historyWalk Candle.timestamp modelDumpJson venue (parseCandles m) c older limit) := by
  apply walk_bounded
  intro n request batch hbatch hadm x hx
  obtain ⟨hsized, -, hends⟩ := page_below hvenue hbatch x hx
  obtain ⟨a, hanchor, hpos, hle⟩ := holder hsized request hadm
  have hend := hends a (candleQuery_endsAt hanchor hpos)
  omega

omit [DecidableEq κ] in
/-- The anchors behind the recent page: the first is one before its oldest candle. -/
lemma older_anchor {oldest : Kline} (hone : 1 < oldest.timestamp) (hle : oldest.timestamp ≤ start)
    {endTs : Option ℤ} (hadm : ∀ e ∈ endTs, 0 < e ∧ e ≤ start) (startTime : Option ℤ) :
    ∃ a, anchor (anchor endTs (some (oldest.timestamp - 1))) startTime = some a ∧
      0 < a ∧ a ≤ start := by
  cases endTs with
  | some e => exact ⟨e, rfl, hadm e rfl⟩
  | none =>
    refine ⟨oldest.timestamp - 1, rfl, ?_, ?_⟩
    · omega
    · omega

/-- Where the candles come from: the recent page, history alone where that page is empty, or
both. -/
lemma getCandles_ok {c : CandlesRead} {parse : KlineReply → Except Fault (List Kline)}
    {xs : List Kline}
    (h : (getCandles Candle.timestamp modelDumpJson venue parse c).result = .ok xs) :
    ∃ recent, (venue 0 c.first).bind parse = .ok recent ∧
      (xs ⊆ recent ∨
        (historyWalk Candle.timestamp modelDumpJson venue parse c id c.limit).result = .ok xs ∨
        ∃ oldest ∈ recent, ∃ limit history,
          (historyWalk Candle.timestamp modelDumpJson venue parse c (fun r =>
            ⟨anchor r.endTs (some (oldest.timestamp - 1)), r.limit⟩) limit).result = .ok history ∧
          xs ⊆ history ++ recent) := by
  unfold getCandles at h
  cases hpage : (venue 0 c.first).bind parse with
  | error e => simp [hpage] at h
  | ok recent =>
    refine ⟨recent, rfl, ?_⟩
    simp only [hpage] at h
    split at h
    · rw [← Except.ok.inj h]
      exact Or.inl fun x hx => mem_of_mem_sliceTail hx
    cases recent with
    | nil => exact Or.inr (Or.inl h)
    | cons oldest rest =>
      dsimp only at h
      split at h
      · rw [← Except.ok.inj h]
        exact Or.inl fun x hx => mem_of_mem_sliceTail hx
      · obtain ⟨history, hhistory, hxs⟩ := map_ok h
        refine Or.inr (Or.inr ⟨oldest, List.mem_cons_self, _, history, hhistory, fun x hx => ?_⟩)
        rw [← hxs] at hx
        exact mem_of_mem_byTimestamp (mem_of_mem_sliceTail hx)

/-- The first page ends at the start, the walk behind it before its oldest candle. -/
lemma candles_bounded (hvenue : HonoursEnd KlineReply.rows KlineRow.stamp venue)
    (hstart : m.Sized → 0 < start) (apiSymbol bar : String) :
    Bounded Candle.timestamp start
      ((CandlesPath.okx apiSymbol bar).call modelDumpJson m venue (some start) limit) := by
  intro xs hxs x hx
  obtain ⟨recent, hpage, hcases⟩ := getCandles_ok modelDumpJson hxs
  have hrecent : ∀ y ∈ recent, 1 < y.timestamp ∧ y.timestamp ≤ start := by
    intro y hy
    obtain ⟨hsized, hone, hends⟩ := page_below hvenue hpage y hy
    exact ⟨hone, hends start (candleQuery_endsAt rfl (hstart hsized))⟩
  rcases hcases with hsub | hhistory | ⟨oldest, holdest, l, history, hhistory, hsub⟩
  · exact (hrecent x (hsub hx)).2
  · apply historyWalk_bounded modelDumpJson hvenue _ _ _ xs hhistory x hx
    exact fun hsized r hadm => anchor_admissible (hstart hsized) hadm
  · rcases List.mem_append.mp (hsub hx) with hmem | hmem
    · apply historyWalk_bounded modelDumpJson hvenue _ _ _ history hhistory x hmem
      intro _ r hadm
      obtain ⟨hone, hle⟩ := hrecent oldest holdest
      exact older_anchor hone hle hadm (some start)
    · exact (hrecent x hmem).2

end Okx

end

/-! ## Kraken, which cuts the result itself -/

namespace Kraken

/-- Whatever was asked, the last lines leave nothing after a start that is not zero. -/
lemma mem_finish {start limit : ℤ} {cs : List Kline} {c : Kline}
    (h : c ∈ finish (some start) limit cs) :
    c ∈ cs ∧ (start ≠ 0 → c.timestamp ≤ start) := by
  have hmem := mem_of_mem_sliceTail h
  unfold upToStart at hmem
  dsimp only at hmem
  split at hmem
  · next hzero => exact ⟨(mem_sortByTime _).mp hmem, fun hne => absurd hzero hne⟩
  · obtain ⟨hin, hle⟩ := List.mem_filter.mp hmem
    exact ⟨(mem_sortByTime _).mp hin, fun _ => of_decide_eq_true hle⟩

variable {m : Market} {venue : Venue KlineReply} {start : ℤ} (limit : ℤ)

/-- The same of Kraken's Spot candles. -/
lemma candlesSpot_bounded (apiSymbol : String)
    (hstart : m.Sized → spotIntervals.lookup m.interval ≠ none → start ≠ 0) :
    Bounded Candle.timestamp start (getCandlesSpot m venue apiSymbol (some start) limit) := by
  intro xs hxs x hx
  unfold getCandlesSpot mapSpotInterval at hxs
  cases hinterval : spotIntervals.lookup m.interval with
  | none => simp [hinterval] at hxs
  | some minutes =>
    simp only [hinterval] at hxs
    obtain ⟨data, -, hxs⟩ := bind_ok hxs
    obtain ⟨rows, -, hxs⟩ := bind_ok hxs
    obtain ⟨results, hresults, hxs⟩ := bind_ok hxs
    rw [← Except.ok.inj hxs] at hx
    obtain ⟨hmem, hle⟩ := mem_finish hx
    obtain ⟨r, -, hread⟩ := mem_of_mapM_ok hresults x hmem
    apply hle
    apply hstart (Market.readRow_ok hread).sized
    rw [hinterval]
    exact Option.some_ne_none _

/-- The scan of a batch adds candles that were built. -/
lemma scanBatch_sized {p p' : ChartPage} {batch : List KlineRow}
    (h : scanBatch m p batch = .ok p') (hp : ∀ c ∈ p.allCandles, m.Sized) :
    ∀ c ∈ p'.allCandles, m.Sized := by
  induction batch generalizing p with
  | nil =>
    rw [← Except.ok.inj h]
    exact hp
  | cons b batch ih =>
    unfold scanBatch at h
    obtain ⟨tsMs, -, h⟩ := bind_ok h
    split at h
    · exact ih h hp
    · obtain ⟨close, -, h⟩ := bind_ok h
      obtain ⟨c, hc, h⟩ := bind_ok h
      apply ih h
      intro c' hc'
      rcases List.mem_append.mp hc' with hc' | -
      · exact hp c' hc'
      · exact (Market.candle_ok hc).1

/-- The walk as a round leaves it, however it ends. -/
def ChartStep.walk : ChartStep → ChartWalk
  | stop w _ => w
  | again w => w

variable (venue) in
lemma chartStep_sized (apiSymbol : String) (intervalSecs anchorSecs : ℤ) {w : ChartWalk}
    (hw : ∀ c ∈ w.allCandles, m.Sized) :
    ∀ c ∈ (chartStep m venue apiSymbol intervalSecs anchorSecs w).walk.allCandles, m.Sized := by
  unfold chartStep
  dsimp only
  split
  · exact hw
  split
  · exact hw
  · exact hw
  split
  · exact hw
  next page hpage =>
  have hscanned := scanBatch_sized hpage hw
  split
  · exact hscanned
  · exact hscanned

lemma chartLoop_sized (apiSymbol : String) (intervalSecs anchorSecs : ℤ) (left : ℕ)
    {w : ChartWalk} (hw : ∀ c ∈ w.allCandles, m.Sized) :
    ∀ c ∈ (chartLoop m venue apiSymbol intervalSecs anchorSecs left w).1.allCandles,
      m.Sized := by
  induction left generalizing w with
  | zero => exact hw
  | succ left ih =>
    have hstep := chartStep_sized venue apiSymbol intervalSecs anchorSecs hw
    unfold chartLoop
    cases hround : chartStep m venue apiSymbol intervalSecs anchorSecs w with
    | stop w' fault =>
      rw [hround] at hstep
      exact hstep
    | again w' =>
      rw [hround] at hstep
      exact ih hstep

/-- The same of Kraken's Futures candles. -/
lemma candlesFutures_bounded (apiSymbol : String) (nowSecs : ℤ)
    (hstart : m.Sized → intervalSecsMap.lookup m.interval ≠ none → start ≠ 0) :
    Bounded Candle.timestamp start
      (getCandlesFutures m venue apiSymbol nowSecs (some start) limit) := by
  intro xs hxs x hx
  unfold getCandlesFutures at hxs
  cases hinterval : intervalSecsMap.lookup m.interval with
  | none => simp [hinterval] at hxs
  | some secs =>
    simp only [hinterval] at hxs
    split at hxs
    · exact absurd hxs (by simp)
    · rw [← Except.ok.inj hxs] at hx
      obtain ⟨hmem, hle⟩ := mem_finish hx
      have hsized : m.Sized := by
        apply chartLoop_sized _ _ _ _ _ x hmem
        exact fun c hc => absurd hc List.not_mem_nil
      apply hle
      apply hstart hsized
      rw [hinterval]
      exact Option.some_ne_none _

lemma candles_bounded {κ : Type*} [DecidableEq κ] (modelDumpJson : Kline → κ)
    (apiSymbol : String) (nowSecs : ℤ)
    (hstart : m.Sized → (CandlesPath.kraken apiSymbol nowSecs).Supports m → start ≠ 0) :
    Bounded Candle.timestamp start
      ((CandlesPath.kraken apiSymbol nowSecs).call modelDumpJson m venue (some start) limit) := by
  simp only [CandlesPath.Supports] at hstart
  show Bounded Candle.timestamp start
    (getCandles m venue apiSymbol nowSecs (some start) limit)
  unfold getCandles
  split
  · next hspot =>
    rw [if_pos hspot] at hstart
    exact candlesSpot_bounded limit apiSymbol hstart
  · next hspot =>
    rw [if_neg hspot] at hstart
    exact candlesFutures_bounded limit apiSymbol nowSecs hstart

end Kraken

end ExchangeRouter
