import ExchangeRouter.CandleHistories
import ExchangeRouter.PagedReadsTheorems
import ExchangeRouter.StartBound
import Std.Data.String.ToInt

/-!
# The two candle endpoints of OKX

`/market/candles` serves the candles after a retention bound, `/market/history-candles` all of
them. Behind a recent page that is too short `get_candles` walks the history, and the two parts
meet without a seam; only a call for one page of recent candles stays with what the recent
endpoint has (`getCandles_exact_iff`).
-/

namespace ExchangeRouter

open Newest

namespace Okx

/-! ## The endpoints -/

/-- The endpoint at `path` serves `rows` of a symbol and bar: the newest `limit` of those strictly
before `after`, and of all of them without it. -/
def Serves (venue : Venue KlineReply) (path apiSymbol bar : String) (rows : List KlineRow) :
    Prop :=
  ∀ n q (l : ℕ), q.path = path → q.params.lookup "instId" = some (.text apiSymbol) →
    q.params.lookup "bar" = some (.text bar) → q.params.lookup "limit" = some (.int l) →
    (∀ a : ℤ, q.params.lookup "after" = some (.text (toString a)) →
      ∃ page, venue n q = .ok (.array page) ∧
        IsNewest KlineRow.opens l (rows.filter fun r => r.opens < a) page) ∧
    (q.params.lookup "after" = none →
      ∃ page, venue n q = .ok (.array page) ∧ IsNewest KlineRow.opens l rows page)

/-- Full rows of different times in milliseconds, oldest first. -/
structure History (rows : List KlineRow) : Prop where
  chronological : Chronological KlineRow.opens rows
  full : ∀ r ∈ rows, r.Full
  dated : ∀ r ∈ rows, r.Dated

lemma History.filter {rows : List KlineRow} (h : History rows) (p : KlineRow → Bool) :
    History (rows.filter p) where
  chronological := h.chronological.sublist List.filter_sublist
  full := fun r hr => h.full r (List.mem_of_mem_filter hr)
  dated := fun r hr => h.dated r (List.mem_of_mem_filter hr)

lemma History.readsAs {m : Market} (hsized : m.Sized) {rows : List KlineRow} (h : History rows) :
    ReadsAs Candle.timestamp KlineRow.opens (readRow m) rows := by
  intro r hr
  have hfull := h.full r hr
  have hwide := hfull.wide
  have hlarge := (h.dated r hr).le_opens
  obtain ⟨close, hclose⟩ := hfull.float (i := 4) (by omega) (by omega)
  have hcell : ∀ v, v = (if m.marketType = .linear ∧ 7 ≤ r.cells.length + 1 then 6 else 5) →
      1 ≤ v ∧ v ≤ r.cells.length := by
    rintro v rfl
    split <;> omega
  obtain ⟨hone, hle⟩ := hcell _ rfl
  obtain ⟨c, hc, hts⟩ := hsized.candle hfull hone hle r.opens close
  refine ⟨c, ?_, hts⟩
  unfold readRow
  rw [if_neg (by omega), (h.dated r hr).time]
  show (if r.opens ≤ 0 then none else _) = _
  rw [if_neg (by omega), hclose]
  show (m.candle _ r r.opens close).toOption = some c
  rw [hc]
  rfl

/-- The candles that a history is read as. -/
def candles (m : Market) (rows : List KlineRow) : List Kline := rows.filterMap (readRow m)

/-- A venue that serves `recent` at the one path and `history` at the others, oldest first. -/
def serve (recent history : List KlineRow) : Venue KlineReply := fun _ q =>
  let rows := if q.path = "/api/v5/market/candles" then recent else history
  let limit := match q.params.lookup "limit" with
    | some (.int l) => l.toNat
    | _ => 100
  match q.params.lookup "after" with
  | some (.text a) => .ok (.array ((rows.filter fun r => a.toInt?.any fun t => r.opens < t).rtake limit))
  | _ => .ok (.array (rows.rtake limit))

lemma serves_serve {recent history rows : List KlineRow} {path : String}
    (hrows : (if path = "/api/v5/market/candles" then recent else history) = rows)
    (hchrono : Chronological KlineRow.opens rows) (apiSymbol bar : String) :
    Serves (serve recent history) path apiSymbol bar rows := by
  intro n q l hpath _ _ hlimit
  constructor
  · intro a hafter
    refine ⟨(rows.filter fun r => r.opens < a).rtake l, ?_, ?_⟩
    · have hparse : (toString a).toInt? = some a := Int.toInt?_repr a
      simp only [serve, hlimit, hafter, hpath, hrows, hparse, Option.any_some, Int.toNat_natCast]
    · exact (hchrono.sublist List.filter_sublist).isNewest_rtake l
  · intro hafter
    refine ⟨rows.rtake l, ?_, hchrono.isNewest_rtake l⟩
    simp only [serve, hlimit, hafter, hpath, hrows, Int.toNat_natCast]

/-! ## A page -/

section

variable {m : Market} {venue : Venue KlineReply} {path apiSymbol bar : String}
  {rows : List KlineRow}

/-- A page is the tail of the candles at or before its anchor. -/
lemma Serves.page (hserves : Serves venue path apiSymbol bar rows) (hsized : m.Sized)
    (hrows : History rows) {start : Option ℤ} {request : PageRequest} {l : ℕ} {cap : ℤ}
    (hlimit : min request.limit cap = l) (hpos : ∀ a ∈ anchor request.endTs start, 0 < a) (n : ℕ) :
    (venue n (candleQuery path apiSymbol bar cap start request)).bind (parseCandles m) =
      .ok ((upTo Candle.timestamp (anchor request.endTs start) (candles m rows)).rtake l) := by
  have hpath : (candleQuery path apiSymbol bar cap start request).path = path := rfl
  -- what the venue answers with, and the rows it took that from
  have hanswer : ∃ page, venue n (candleQuery path apiSymbol bar cap start request) =
      .ok (.array page) ∧ IsNewest KlineRow.opens l
        (rows.filter fun r => (anchor request.endTs start).all fun a => r.opens ≤ a) page := by
    obtain ⟨hbefore, hlatest⟩ := hserves n _ l hpath (by rfl) (by rfl)
      (by rw [← hlimit]; rfl)
    cases hanchor : anchor request.endTs start with
    | none =>
      obtain ⟨page, hpage, hnewest⟩ := hlatest (by rw [candleQuery, hanchor]; rfl)
      refine ⟨page, hpage, ?_⟩
      simpa using hnewest
    | some a =>
      have ha := hpos a hanchor
      obtain ⟨page, hpage, hnewest⟩ := hbefore (a + 1)
        (by rw [candleQuery, hanchor, ifAnchor_of_pos ha]; rfl)
      refine ⟨page, hpage, ?_⟩
      simpa [Int.lt_add_one_iff] using hnewest
  obtain ⟨page, hpage, hnewest⟩ := hanswer
  have hread := (hrows.filter fun r => (anchor request.endTs start).all fun a => r.opens ≤ a)
  rw [hpage]
  show Except.ok (sortByTime Candle.timestamp (page.filterMap (readRow m))) = _
  rw [hnewest.sort_filterMap hread.chronological (hread.readsAs hsized), candles, upTo,
    (hrows.readsAs hsized).filter fun t => (anchor request.endTs start).all fun a => t ≤ a]

end

/-! ## The join of the two parts -/

/-- Candles of different times are all kept, and those that stand in order stay in it. -/
lemma byTimestamp_eq_self {α : Type*} {timestamp : α → ℤ} {xs : List α}
    (h : Chronological timestamp xs) : byTimestamp timestamp xs = xs := by
  have hentries : ∀ ys : List α, (ys.map timestamp).Nodup →
      (ys.foldl (fun (d : AList fun _ : ℤ => α) c => d.insert (timestamp c) c) ∅).entries.Perm
        (ys.map fun c => ⟨timestamp c, c⟩) := by
    intro ys hys
    -- over the list from its end: the last candle is the one that was put in last
    induction ys using List.reverseRecOn with
    | nil => exact List.Perm.refl _
    | append_singleton ys last ih =>
      rw [List.map_append, List.nodup_append] at hys
      obtain ⟨hinit, -, hlast⟩ := hys
      have hperm := ih hinit
      have hfresh : timestamp last ∉
          (ys.foldl (fun (d : AList fun _ : ℤ => α) c => d.insert (timestamp c) c) ∅).entries.keys := by
        intro hmem
        have hkey := (hperm.map Sigma.fst).mem_iff.mp hmem
        rw [List.map_map] at hkey
        exact hlast _ hkey _ (by simp) rfl
      rw [List.foldl_concat, AList.entries_insert, List.kerase_of_notMem_keys hfresh, List.map_append]
      exact (hperm.cons _).trans (List.perm_append_singleton _ _).symm
  apply h.sort_of_perm
  have hperm := (hentries xs h.nodup_times).map Sigma.snd
  simpa [List.map_map, Function.comp_def] using hperm

section

variable {κ : Type*} [DecidableEq κ] (modelDumpJson : Kline → κ) (m : Market)
  (venue : Venue KlineReply) (c : CandlesRead)

/-- The requests of the walk behind a recent page whose oldest candle is that one. -/
def CandlesRead.behind (oldest : Kline) (r : PageRequest) : PageRequest :=
  ⟨anchor r.endTs (some (oldest.timestamp - 1)), r.limit⟩

/-- Where the walk over older candles ends. -/
def historyRun (older : PageRequest → PageRequest) (limit : ℤ) :
    PageState Kline κ × Option Fault :=
  pageRun Candle.timestamp modelDumpJson
    (fetchPage (fun n => venue (n + 1)) (parseCandles m) fun _ r => c.history (older r)) limit 100

/-- The call walks the history, and the cap ends the walk. -/
def Capped : Prop :=
  c.single = false ∧ ∃ recentBatch, (venue 0 c.first).bind (parseCandles m) = .ok recentBatch ∧
    (recentBatch = [] ∧ (historyRun modelDumpJson m venue c id c.limit).1.truncated c.limit ∨
      ∃ oldest rest, recentBatch = oldest :: rest ∧ (recentBatch.length : ℤ) < c.limit ∧
        (historyRun modelDumpJson m venue c (CandlesRead.behind oldest)
          (c.limit - recentBatch.length)).1.truncated (c.limit - recentBatch.length))

lemma not_capped_of_le (hlimit : c.limit ≤ maxRequests) : ¬ Capped modelDumpJson m venue c := by
  rintro ⟨-, recentBatch, -, ⟨-, hcapped⟩ | ⟨oldest, rest, -, -, hcapped⟩⟩
  · exact not_truncated_of_le _ 100 hlimit hcapped
  · exact not_truncated_of_le _ 100 (by omega) hcapped

end

section

variable {m : Market} {venue : Venue KlineReply} {c : CandlesRead} {history : List KlineRow}
  {limit : ℕ} {bound : ℤ}

/-- What the venue and the arguments of a call are, where the recent endpoint serves what is
newer than `bound`. -/
structure Setting (m : Market) (venue : Venue KlineReply) (c : CandlesRead)
    (history : List KlineRow) (bound : ℤ) (limit : ℕ) : Prop where
  sized : m.Sized
  rows : History history
  serves : Serves venue "/api/v5/market/history-candles" c.apiSymbol c.bar history
  servesRecent : Serves venue "/api/v5/market/candles" c.apiSymbol c.bar
    (history.filter fun r => bound < r.opens)
  start : ∀ s ∈ c.startTime, 0 < s
  limit_pos : 1 ≤ limit
  limit_eq : c.limit = limit

namespace Setting

variable (h : Setting m venue c history bound limit)

include h

lemma readsAs : ReadsAs Candle.timestamp KlineRow.opens (readRow m) history :=
  h.rows.readsAs h.sized

lemma chronological : Chronological Candle.timestamp (candles m history) :=
  h.readsAs.chronological h.rows.chronological

lemma candles_dated : ∀ x ∈ candles m history, 100000000000 ≤ x.timestamp := by
  intro x hx
  obtain ⟨r, hr, -, hts⟩ := h.readsAs.mem hx
  rw [hts]
  exact (h.rows.dated r hr).le_opens

/-- The recent page is a tail of what the call may return. -/
lemma recentPage : ∃ recentBatch, (venue 0 c.first).bind (parseCandles m) = .ok recentBatch ∧
    recentBatch = (upTo Candle.timestamp c.startTime (candles m history)).rtake
      recentBatch.length ∧
    recentBatch.length = min (min limit 300) ((upTo Candle.timestamp c.startTime
      (candles m history)).filter fun x => bound < x.timestamp).length := by
  have hall := chronological_upTo h.chronological c.startTime
  have hlimit := h.limit_eq
  have hfirst : min c.firstLimit 300 = ((min limit 300 : ℕ) : ℤ) := by
    unfold CandlesRead.firstLimit
    split
    · rw [hlimit]
      omega
    · rw [hlimit]
      omega
  have hanchor : ∀ a ∈ anchor (⟨none, c.firstLimit⟩ : PageRequest).endTs c.startTime, 0 < a :=
    h.start
  have hpage : (venue 0 c.first).bind (parseCandles m) = .ok ((upTo Candle.timestamp c.startTime
      (candles m (history.filter fun r => bound < r.opens))).rtake (min limit 300)) :=
    h.servesRecent.page h.sized (h.rows.filter _) hfirst hanchor 0
  -- the candles of the recent endpoint are a tail of all
  have hrecent : upTo Candle.timestamp c.startTime
      (candles m (history.filter fun r => bound < r.opens)) =
        (upTo Candle.timestamp c.startTime (candles m history)).filter
          fun x => bound < x.timestamp := by
    have hread : candles m (history.filter fun r => bound < r.opens) =
        (candles m history).filter fun x => bound < x.timestamp :=
      (h.readsAs.filter fun t => decide (bound < t)).symm
    rw [hread, upTo, upTo, List.filter_filter, List.filter_filter]
    congr 1
    funext x
    exact Bool.and_comm _ _
  rw [hrecent] at hpage
  refine ⟨_, hpage, ?_, length_rtake _ _⟩
  rw [length_rtake]
  conv_lhs => rw [hall.filter_after bound, rtake_rtake_min, min_comm]

/-- The walk over the history, from the start or from behind a recent page. -/
lemma historyWalk_eq {κ : Type*} [DecidableEq κ] {modelDumpJson : Kline → κ}
    (hdump : DumpsTime Candle.timestamp modelDumpJson) {older : PageRequest → PageRequest}
    {start : Option ℤ} {n : ℕ} (hn : 1 ≤ n)
    (holder : ∀ r, (older r).limit = r.limit ∧
      anchor (older r).endTs c.startTime = anchor r.endTs start)
    (hstart : ∀ s ∈ start, 0 < s)
    (hcap : ¬ (historyRun modelDumpJson m venue c older n).1.truncated n) :
    (historyWalk Candle.timestamp modelDumpJson venue (parseCandles m) c older n).result =
      .ok ((upTo Candle.timestamp start (candles m history)).rtake n) := by
  have hpos : ∀ x ∈ candles m history, 0 < x.timestamp := by
    intro x hx
    have hlarge := h.candles_dated x hx
    omega
  apply paginateBackwards_newest (l := 100) h.chronological hpos hdump (by omega) hn _ hcap
  intro k endTs hpos
  have hanchor : ∀ a ∈ anchor endTs start, 0 < a := by
    intro a ha
    cases endTs with
    | none => exact hstart a ha
    | some e => exact hpos a ha
  obtain ⟨holdLimit, holdAnchor⟩ := holder ⟨endTs, (100 : ℕ)⟩
  have hcapped : min (older ⟨endTs, (100 : ℕ)⟩).limit 100 = (100 : ℕ) := by
    rw [holdLimit]
    rfl
  have hpage := h.serves.page h.sized h.rows hcapped (by rw [holdAnchor]; exact hanchor) (k + 1)
  refine ⟨_, hpage, ?_⟩
  rw [holdAnchor]
  exact (chronological_upTo h.chronological _).isNewest_rtake 100

/-- What the walk behind a recent page and that page make together. -/
lemma join_eq {oldest : Kline} {rest : List Kline} {limit' : ℕ}
    (hpage : oldest :: rest = (upTo Candle.timestamp c.startTime (candles m history)).rtake
      (oldest :: rest).length) (hle : (oldest :: rest).length ≤ limit') :
    byTimestamp Candle.timestamp
        ((upTo Candle.timestamp (some (oldest.timestamp - 1)) (candles m history)).rtake
          (limit' - (oldest :: rest).length) ++ oldest :: rest) =
      (upTo Candle.timestamp c.startTime (candles m history)).rtake limit' := by
  have hall := chronological_upTo h.chronological c.startTime
  have holdest : oldest ∈ upTo Candle.timestamp c.startTime (candles m history) := by
    have hmem : oldest ∈ oldest :: rest := List.mem_cons_self
    rw [hpage] at hmem
    exact List.mem_of_mem_drop hmem
  have hbefore : upTo Candle.timestamp (some (oldest.timestamp - 1)) (candles m history) =
      (upTo Candle.timestamp c.startTime (candles m history)).filter
        fun x => x.timestamp < oldest.timestamp := by
    rw [upTo, upTo, List.filter_filter]
    apply List.filter_congr
    intro x hx
    have hbound := (mem_upTo.mp holdest).2
    rw [Bool.eq_iff_iff, Bool.and_eq_true, Option.all_some, decide_eq_true_iff,
      decide_eq_true_iff]
    constructor
    · intro hlt
      refine ⟨by omega, (Option.all_eq_true _ _).mpr fun b hb => decide_eq_true ?_⟩
      have hle := hbound b hb
      omega
    · rintro ⟨hlt, -⟩
      omega
  have hjoin := rtake_append_rtake (upTo Candle.timestamp c.startTime (candles m history)) hle
  rw [← hpage] at hjoin
  rw [hbefore, hall.filter_before hpage.symm, hjoin]
  exact byTimestamp_eq_self (hall.sublist (List.drop_sublist _ _))

lemma sliceTail_limit (xs : List Kline) : sliceTail xs c.limit = xs.rtake limit := by
  have hone := h.limit_pos
  rw [h.limit_eq, sliceTail, if_pos (by omega), Int.toNat_natCast]

/-- A call for one recent page returns what the recent endpoint has. -/
lemma single_iff {κ : Type*} [DecidableEq κ] (modelDumpJson : Kline → κ)
    (hsingle : c.single = true) :
    (getCandles Candle.timestamp modelDumpJson venue (parseCandles m) c).result =
        .ok ((upTo Candle.timestamp c.startTime (candles m history)).rtake limit) ↔
      min limit history.length ≤ (history.filter fun r => bound < r.opens).length := by
  obtain ⟨hnone, hfew⟩ : c.startTime = none ∧ c.limit ≤ 300 := by
    simpa [CandlesRead.single, Option.isNone_iff_eq_none] using hsingle
  have hlimit := h.limit_eq
  obtain ⟨recentBatch, hpage, htail, hlen⟩ := h.recentPage
  have hwhole : upTo Candle.timestamp c.startTime (candles m history) = candles m history := by
    rw [hnone]
    exact List.filter_true _
  have hrecent : ((candles m history).filter fun x => bound < x.timestamp).length =
      (history.filter fun r => bound < r.opens).length := by
    rw [candles, h.readsAs.filter fun t => decide (bound < t)]
    exact (h.readsAs.subset fun r hr => List.mem_of_mem_filter hr).length_eq
  have htotal : (candles m history).length = history.length := h.readsAs.length_eq
  rw [hwhole] at htail hlen ⊢
  rw [hrecent] at hlen
  have hsub := List.length_filter_le (fun r : KlineRow => decide (bound < r.opens)) history
  unfold getCandles
  simp only [hpage, hsingle, if_true, h.sliceTail_limit, Except.ok.injEq]
  rw [rtake_of_le (by omega)]
  constructor
  · intro heq
    have hsame := congrArg List.length heq
    rw [length_rtake] at hsame
    omega
  · intro hle
    rw [htail]
    rcases Nat.lt_or_ge history.length limit with hshort | hlong
    · rw [rtake_of_le (by omega), rtake_of_le (by omega)]
    · congr 1
      omega

/-- Any other call goes on behind the recent page. -/
lemma walk_eq {κ : Type*} [DecidableEq κ] {modelDumpJson : Kline → κ}
    (hdump : DumpsTime Candle.timestamp modelDumpJson) (hsingle : c.single = false)
    (hcap : ¬ Capped modelDumpJson m venue c) :
    (getCandles Candle.timestamp modelDumpJson venue (parseCandles m) c).result =
      .ok ((upTo Candle.timestamp c.startTime (candles m history)).rtake limit) := by
  have hlimit := h.limit_eq
  have hone := h.limit_pos
  obtain ⟨recentBatch, hpage, htail, hlen⟩ := h.recentPage
  unfold getCandles
  simp only [hpage, hsingle, Bool.false_eq_true, if_false]
  cases recentBatch with
  | nil =>
    -- nothing recent at or before the start: the history alone
    rw [hlimit]
    apply h.historyWalk_eq hdump hone (fun r => ⟨rfl, rfl⟩) h.start
    intro hcapped
    apply hcap
    rw [← hlimit] at hcapped
    exact ⟨hsingle, [], hpage, Or.inl ⟨rfl, hcapped⟩⟩
  | cons oldest rest =>
    dsimp only
    split
    · next hmany =>
      -- the recent page is long enough
      rw [h.sliceTail_limit]
      have hexact : (oldest :: rest).length = limit := by omega
      rw [hexact] at htail
      rw [rtake_of_le (by omega), htail]
    · next hfew =>
      have hlarge : 100000000000 ≤ oldest.timestamp := by
        apply h.candles_dated
        have hmem : oldest ∈ oldest :: rest := List.mem_cons_self
        rw [htail] at hmem
        exact (mem_upTo.mp (List.mem_of_mem_drop hmem)).1
      have hcount : c.limit - ((oldest :: rest).length : ℤ) =
          ((limit - (oldest :: rest).length : ℕ) : ℤ) := by omega
      have hwalk : (historyWalk Candle.timestamp modelDumpJson venue (parseCandles m) c
          (CandlesRead.behind oldest) ((limit - (oldest :: rest).length : ℕ) : ℤ)).result =
            .ok ((upTo Candle.timestamp (some (oldest.timestamp - 1)) (candles m history)).rtake
              (limit - (oldest :: rest).length)) := by
        apply h.historyWalk_eq hdump (by omega)
        · exact fun r => ⟨rfl, by cases r with | mk endTs l => cases endTs <;> rfl⟩
        · intro s hs
          obtain rfl : oldest.timestamp - 1 = s := Option.some.inj hs
          omega
        · intro hcapped
          rw [← hcount] at hcapped
          apply hcap
          exact ⟨hsingle, _, hpage, Or.inr ⟨oldest, rest, rfl, by omega, hcapped⟩⟩
      rw [← hcount] at hwalk
      show Except.map _ (historyWalk Candle.timestamp modelDumpJson venue (parseCandles m) c
        (CandlesRead.behind oldest) _).result = _
      rw [hwalk]
      show Except.ok (sliceTail _ _) = _
      rw [h.join_eq htail (by omega), h.sliceTail_limit, rtake_rtake_min, min_self]

end Setting

/-- Where the cap does not end a walk, the call returns the newest candles at or before its start
exactly when it may look behind the recent page, or need not. -/
theorem getCandles_exact_iff {κ : Type*} [DecidableEq κ] {modelDumpJson : Kline → κ}
    (h : Setting m venue c history bound limit) (hdump : DumpsTime Candle.timestamp modelDumpJson)
    (hcap : ¬ Capped modelDumpJson m venue c) :
    (getCandles Candle.timestamp modelDumpJson venue (parseCandles m) c).result =
        .ok ((upTo Candle.timestamp c.startTime (candles m history)).rtake limit) ↔
      c.startTime ≠ none ∨ 300 < limit ∨
        min limit history.length ≤ (history.filter fun r => bound < r.opens).length := by
  have hlimit := h.limit_eq
  cases hsingle : c.single with
  | true =>
    obtain ⟨hnone, hfew⟩ : c.startTime = none ∧ c.limit ≤ 300 := by
      simpa [CandlesRead.single, Option.isNone_iff_eq_none] using hsingle
    rw [h.single_iff modelDumpJson hsingle]
    constructor
    · exact fun henough => Or.inr (Or.inr henough)
    · rintro (hstart | hmany | henough)
      · exact absurd hnone hstart
      · omega
      · exact henough
  | false =>
    have hmore : c.startTime ≠ none ∨ 300 < limit := by
      by_contra hneither
      push Not at hneither
      have hle : c.limit ≤ 300 := by omega
      simp [CandlesRead.single, hneither.1, hle] at hsingle
    refine ⟨fun _ => ?_, fun _ => h.walk_eq hdump hsingle hcap⟩
    exact hmore.imp_right Or.inl

end

/-! ## A candle behind the retention bound -/

/-- Two candles, the first of them older than what the recent endpoint keeps. -/
def twoRows : List KlineRow :=
  [⟨some 1700000000000, [some 1, some 1, some 1, some 1, some 1]⟩,
    ⟨some 1700000060000, [some 2, some 2, some 2, some 2, some 2]⟩]

/-- Minutes of a spot pair. -/
def spotMarket : Market := ⟨"BTC-USDT", .spot, "USDT", "1m", none⟩

/-- A call for two candles. -/
def twoCandles (startTime : Option ℤ) : CandlesRead := ⟨"BTC-USDT", "1m", startTime, 2⟩

lemma setting_twoCandles (startTime : Option ℤ) (hstart : ∀ s ∈ startTime, 0 < s) :
    Setting spotMarket (serve (twoRows.filter fun r => 1700000030000 < r.opens) twoRows)
      (twoCandles startTime) twoRows 1700000030000 2 := by
  have hrows : History twoRows := by
    refine ⟨by simp [Chronological, twoRows, KlineRow.opens], ?_, ?_⟩
    · intro r hr
      simp only [twoRows, List.mem_cons, List.not_mem_nil, or_false] at hr
      rcases hr with rfl | rfl <;> exact ⟨by decide, by simp⟩
    · intro r hr
      simp only [twoRows, List.mem_cons, List.not_mem_nil, or_false] at hr
      rcases hr with rfl | rfl <;> exact ⟨_, rfl, by decide⟩
  exact ⟨fun h => absurd h (by decide), hrows,
    serves_serve (if_neg (by decide)) hrows.chronological _ _,
    serves_serve (if_pos rfl) (hrows.filter _).chronological _ _, hstart, by decide, rfl⟩

/-- Two of two candles are asked for, and one is returned. -/
theorem getCandles_misses_old_candle :
    Setting spotMarket (serve (twoRows.filter fun r => 1700000030000 < r.opens) twoRows)
        (twoCandles none) twoRows 1700000030000 2 ∧
      (getCandles Candle.timestamp id
        (serve (twoRows.filter fun r => 1700000030000 < r.opens) twoRows)
        (parseCandles spotMarket) (twoCandles none)).result ≠
      .ok ((upTo Candle.timestamp none (candles spotMarket twoRows)).rtake 2) := by
  have hsetting := setting_twoCandles none (by simp)
  refine ⟨hsetting, fun hexact => ?_⟩
  have hle := (hsetting.single_iff id rfl).mp hexact
  exact absurd hle (by decide)

/-- With a start the call looks behind the recent page. -/
theorem getCandles_exact_iff_two :
    (getCandles Candle.timestamp id
        (serve (twoRows.filter fun r => 1700000030000 < r.opens) twoRows)
        (parseCandles spotMarket) (twoCandles (some 1700000090000))).result =
      .ok ((upTo Candle.timestamp (some 1700000090000) (candles spotMarket twoRows)).rtake 2) := by
  have hsetting := setting_twoCandles (some 1700000090000) (by simp)
  have hdump : DumpsTime Candle.timestamp (id : Kline → Kline) := fun _ _ h => congrArg _ h
  exact (getCandles_exact_iff hsetting hdump (not_capped_of_le _ _ _ _ (by decide))).mpr
    (Or.inl (by simp [twoCandles]))

end Okx

end ExchangeRouter
