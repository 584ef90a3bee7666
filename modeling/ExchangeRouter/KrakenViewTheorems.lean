import ExchangeRouter.KrakenBookTheorems
import ExchangeRouter.KrakenHubs
import ExchangeRouter.Lib.LevelViews

/-!
# The spot book under the subscribed depth

The spot stream of Kraken subscribes to the best `reqDepth depth` levels of either side. The
venue reports the changes of that view, and says nothing of a level that others push out of it.
The stream never cuts its dictionaries to the view, so they hold the pushed out levels too
(`HoldsView`), and a frame shows the view exactly where enough levels of the view outrank them
(`spotFrames_view_iff`).
-/

namespace ExchangeRouter
namespace Kraken

open DropQueue Transition Levels

/-! ## What the venue sends -/

/-- `v` is the book cut to its best `n` levels on either side. -/
structure TopView (n : ℕ) (b v : Book) : Prop where
  bids : IsView (· ≥ ·) n b.bids v.bids
  asks : IsView (· ≤ ·) n b.asks v.asks

/-- The levels of a message, as `float()` reads them. -/
def raw (levels : List (ℚ × ℚ)) : List RawLevel := levels.map fun l => (some l.1, some l.2)

/-- The message has one item, which reports the change from the view `v` to the view `v'` of the
book `b'`. -/
def SpotMsg.Tells (m : SpotMsg) (v b' v' : Book) : Prop :=
  ∃ bids asks timestamp, m.data = [⟨raw bids, raw asks, timestamp⟩] ∧
    Reports v.bids b'.bids v'.bids bids ∧ Reports v.asks b'.asks v'.asks asks

/-- A snapshot of the first view, and then one message for each change of the view. -/
structure ViewFeed (n : ℕ) (book view : ℕ → Book) (feed : List SpotMsg) : Prop where
  views : ∀ i, TopView n (book i) (view i)
  snapshot : ∀ m, feed[0]? = some m →
    m.isSnapshot = true ∧ m.Tells Book.empty (book 0) (view 0)
  update : ∀ i m, feed[i + 1]? = some m →
    m.isBook = true ∧ m.isSnapshot = false ∧ m.Tells (view i) (book (i + 1)) (view (i + 1))

/-- Both sides of what a reader holds after message `i`. -/
def heldBook (book view : ℕ → Book) (i : ℕ) : Book where
  bids := held (fun j => (book j).bids) (fun j => (view j).bids) i
  asks := held (fun j => (book j).asks) (fun j => (view j).asks) i

/-- Every level that was pushed out of the view is outranked by `depth` levels of it. -/
structure Outranks (book view : ℕ → Book) (depth i : ℕ) : Prop where
  bids : ∀ p, PushedOut (fun j => (book j).bids) (fun j => (view j).bids) i p →
    Outranked (· ≥ ·) (view i).bids depth p
  asks : ∀ p, PushedOut (fun j => (book j).asks) (fun j => (view j).asks) i p →
    Outranked (· ≤ ·) (view i).asks depth p

section

variable {inst : Instrument} {depth n : ℕ} {book view : ℕ → Book} {feed : List SpotMsg}

/-! ## What the stream holds -/

lemma readLevels_raw (levels : List (ℚ × ℚ)) : readLevels (raw levels) = some levels := by
  induction levels with
  | nil => rfl
  | cons l levels ih =>
    show (readLevels (raw levels)).map (l :: ·) = _
    rw [ih]
    rfl

/-- Levels that can be read take the dictionaries from the book before to the book after. -/
lemma applyBoth_raw {s : Sides} {b : Book} (h : s.Hold id b) (bids asks : List (ℚ × ℚ)) :
    ∃ s', s.applyBoth id (raw bids) (raw asks) = some s' ∧
      s'.Hold id ⟨bids.foldl set b.bids, asks.foldl set b.asks⟩ := by
  have happly : s.applyBoth id (raw bids) (raw asks) =
      some ⟨bids.foldl (Side.put id) s.bids, asks.foldl (Side.put id) s.asks⟩ := by
    unfold Sides.applyBoth
    rw [applyLevels_eq, applyLevels_eq, readLevels_raw, readLevels_raw]
    rfl
  exact ⟨_, happly, h.bids.puts bids, h.asks.puts asks⟩

variable (inst depth) in
/-- The one item of a message, from dictionaries that hold the book before it. -/
lemma spotItems_single {s : Sides} {b : Book} (h : s.Hold id b) (bids asks : List (ℚ × ℚ))
    (timestamp : Option ℤ) :
    (∀ frame ∈ (spotItems inst depth s 0 [⟨raw bids, raw asks, timestamp⟩]).1,
        frame.1.Shows id depth ⟨bids.foldl set b.bids, asks.foldl set b.asks⟩) ∧
      ∀ s', (spotItems inst depth s 0 [⟨raw bids, raw asks, timestamp⟩]).2 = some s' →
        s'.Hold id ⟨bids.foldl set b.bids, asks.foldl set b.asks⟩ := by
  obtain ⟨s₁, happly, hold⟩ := applyBoth_raw h bids asks
  unfold spotItems
  rw [happly]
  cases timestamp with
  | none => exact ⟨fun frame hframe => absurd hframe List.not_mem_nil, fun s' hs' => absurd hs' (by simp)⟩
  | some t =>
    refine ⟨fun frame hframe => ?_, fun s' hs' => ?_⟩
    · obtain rfl := List.mem_singleton.mp hframe
      exact hold.shows rfl rfl
    · obtain rfl := Option.some.inj hs'
      exact hold

/-- Once bootstrapped the dictionaries hold the view and what was pushed out of it. -/
def HoldsView (book view : ℕ → Book) (n : ℕ) (c : BookState) : Prop :=
  c.bootstrapped = true → ∃ i, n = i + 1 ∧ c.book.Hold id (heldBook book view i)

/-- A message takes the stream from one view to the next. -/
lemma ViewFeed.step (hfeed : ViewFeed n book view feed) (k i : ℕ) (c : BookState) (m : SpotMsg)
    (hholds : HoldsView book view k c) (_ : k ≤ i) (hget : feed[i]? = some m)
    (hnext : k = i ∨ Resync spotReading c m) :
    (∀ frame ∈ (onSpotMessage inst depth c m).1,
        frame.1.Shows id depth (heldBook book view i)) ∧
      ∀ c', (onSpotMessage inst depth c m).2 = some c' → HoldsView book view (i + 1) c' := by
  cases i with
  | zero =>
    obtain ⟨hsnap, bids, asks, timestamp, hdata, hbids, hasks⟩ := hfeed.snapshot m hget
    have hbook : m.isBook = true := (Bool.and_eq_true_iff.mp hsnap).1
    obtain ⟨hframes, hstate⟩ := spotItems_single inst depth (Sides.hold_empty id) bids asks timestamp
    have hheld : (⟨bids.foldl set Book.empty.bids, asks.foldl set Book.empty.asks⟩ : Book) =
        heldBook book view 0 := by
      show Book.mk (bids.foldl set fun _ => 0) (asks.foldl set fun _ => 0) = _
      rw [hbids.foldl_set, hasks.foldl_set]
      rfl
    rw [hheld] at hframes hstate
    unfold onSpotMessage
    simp only [hbook, hsnap, hdata, if_true, Bool.true_or]
    refine ⟨hframes, fun c' hc' _ => ?_⟩
    obtain ⟨s', hs', rfl⟩ := Option.map_eq_some_iff.mp hc'
    exact ⟨0, rfl, hstate s' hs'⟩
  | succ i =>
    obtain ⟨hbook, hsnap, bids, asks, timestamp, hdata, hbids, hasks⟩ := hfeed.update i m hget
    unfold onSpotMessage
    simp only [hbook, hsnap, hdata, if_true, Bool.false_or, Bool.false_eq_true, if_false]
    by_cases hboot : c.bootstrapped = true
    · have hk : k = i + 1 := by
        apply hnext.resolve_right
        rintro (hs | hnot)
        · exact absurd (hsnap.symm.trans hs) (by simp)
        · exact absurd (hboot.symm.trans hnot) (by simp)
      obtain ⟨i', hi', hold⟩ := hholds hboot
      obtain rfl : i' = i := by omega
      obtain ⟨hframes, hstate⟩ := spotItems_single inst depth hold bids asks timestamp
      have hview := hfeed.views (i' + 1)
      have hheld : (⟨bids.foldl set (heldBook book view i').bids,
          asks.foldl set (heldBook book view i').asks⟩ : Book) = heldBook book view (i' + 1) := by
        have hbids' := held_succ (fun j => (book j).bids) (fun j => (view j).bids) hbids
          fun p hp => hview.bids.eq_side hp ▸ hp
        have hasks' := held_succ (fun j => (book j).asks) (fun j => (view j).asks) hasks
          fun p hp => hview.asks.eq_side hp ▸ hp
        rw [heldBook, heldBook, hbids', hasks']
      rw [hheld] at hframes hstate
      rw [if_pos hboot]
      refine ⟨hframes, fun c' hc' _ => ?_⟩
      obtain ⟨s', hs', rfl⟩ := Option.map_eq_some_iff.mp hc'
      exact ⟨i' + 1, rfl, hstate s' hs'⟩
    · -- before the snapshot nothing is folded
      rw [if_neg hboot]
      refine ⟨fun frame hframe => absurd hframe List.not_mem_nil, fun c' hc' hboot' => ?_⟩
      obtain rfl := Option.some.inj hc'
      exact absurd hboot' hboot

/-- In every run in which nothing is lost a frame shows the best `depth` levels of the venue's view
exactly when the view outranks every level that was pushed out of it. -/
theorem spotFrames_view_iff (hfeed : ViewFeed (reqDepth depth).toNat book view feed)
    {events : List DropQueue.Event} {s : Pipe BookState SpotMsg (OrderBook × ℕ)}
    (hmeets : Meets (spotStep inst depth feed) (NothingLost spotReading feed) subscribed events)
    (hrun : run (spotStep inst depth feed) subscribed events = some s) :
    ∀ o ∈ s.out, o.1.1.Shows id (min depth (reqDepth depth).toNat) (view o.2) ↔
      Outranks book view depth o.2 := by
  have hinit : HoldsView book view 0 {} := fun hboot => absurd hboot (by simp)
  have hshows : ∀ o ∈ s.out, o.1.1.Shows id depth (heldBook book view o.2) :=
    outputs_of_run (by decide) hfeed.step hinit hmeets hrun
  intro o ho
  have hframe := hshows o ho
  have hview := hfeed.views o.2
  have hbids := hframe.bids.view_iff hview.bids fun p hp => held_of_view hp
  have hasks := hframe.asks.view_iff hview.asks fun p hp => held_of_view hp
  constructor
  · intro htop
    exact ⟨fun p hp => hbids.mp htop.bids p ((held_ne_zero_iff o.2 p).mpr hp),
      fun p hp => hasks.mp htop.asks p ((held_ne_zero_iff o.2 p).mpr hp)⟩
  · intro houtranks
    exact ⟨hbids.mpr fun p hp => houtranks.bids p ((held_ne_zero_iff o.2 p).mp hp),
      hasks.mpr fun p hp => houtranks.asks p ((held_ne_zero_iff o.2 p).mp hp)⟩

end

/-! ## A level that is gone while it is out of view -/

/-- A side with a unit at each of these prices. -/
def unitsAt (prices : List ℚ) : ℚ → ℚ := fun p => if p ∈ prices then 1 else 0

lemma unitsAt_ne_zero {prices : List ℚ} {p : ℚ} : unitsAt prices p ≠ 0 ↔ p ∈ prices := by
  unfold unitsAt
  split
  · next hmem => exact iff_of_true one_ne_zero hmem
  · next hout => exact iff_of_false (not_not.mpr rfl) hout

/-- Prices from the best to the worst are cut to a view by taking the first. -/
lemma isView_take {r : ℚ → ℚ → Prop} {prices : List ℚ}
    (hsorted : prices.Pairwise fun p p' => r p p' ∧ p ≠ p') (n : ℕ) :
    IsView r n (unitsAt prices) (unitsAt (prices.take n)) := by
  have hprices : ((prices.take n).map fun p => (p, (1 : ℚ))).map Prod.fst = prices.take n := by
    rw [List.map_map]
    exact List.map_id _
  refine ⟨(prices.take n).map fun p => (p, 1), ⟨?_, ?_, ?_, ?_⟩, fun p => ?_⟩
  · exact List.pairwise_map.mpr (hsorted.sublist (List.take_sublist n prices))
  · intro level hlevel
    obtain ⟨p, hp, rfl⟩ := List.mem_map.mp hlevel
    have hmem := List.mem_of_mem_take hp
    exact ⟨unitsAt_ne_zero.mpr hmem, (if_pos hmem).symm⟩
  · rw [List.length_map]
    exact List.length_take_le n prices
  · intro p hp hout
    rw [hprices] at hout
    have hdrop : p ∈ prices.drop n := by
      have hmem := unitsAt_ne_zero.mp hp
      rw [← List.take_append_drop n prices] at hmem
      exact (List.mem_append.mp hmem).resolve_left hout
    refine ⟨?_, fun level hlevel => ?_⟩
    · have hpos := List.length_pos_of_mem hdrop
      rw [List.length_drop] at hpos
      rw [List.length_map, List.length_take]
      omega
    · obtain ⟨p', hp', rfl⟩ := List.mem_map.mp hlevel
      have hpair := List.take_append_drop n prices ▸ hsorted
      exact ((List.pairwise_append.mp hpair).2.2 p' hp' p hdrop).1
  · rw [hprices]
    by_cases hp : p ∈ prices.take n
    · rw [if_pos hp, unitsAt, if_pos hp, unitsAt, if_pos (List.mem_of_mem_take hp)]
    · rw [if_neg hp, unitsAt, if_neg hp]

/-- The report of a change between views of units. -/
def unitChange (v b' v' : List ℚ) : List (ℚ × ℚ) :=
  (v'.filter (· ∉ v)).map (fun p => (p, 1)) ++ (v.filter (· ∉ b')).map fun p => (p, 0)

lemma reports_unitChange {v b' v' : List ℚ} (hv : v.Nodup) (hv' : v'.Nodup) :
    Reports (unitsAt v) (unitsAt b') (unitsAt v') (unitChange v b' v') := by
  have hprices : (unitChange v b' v').map Prod.fst =
      v'.filter (· ∉ v) ++ v.filter (· ∉ b') := by
    unfold unitChange
    rw [List.map_append, List.map_map, List.map_map]
    exact congrArg₂ _ (List.map_id _) (List.map_id _)
  refine ⟨?_, fun p q => ⟨fun h => ?_, ?_⟩⟩
  · rw [hprices]
    refine (hv'.filter _).append (hv.filter _) ?_
    intro p hnew hgone
    exact absurd (List.mem_filter.mp hgone).1 (of_decide_eq_true (List.mem_filter.mp hnew).2)
  · rcases List.mem_append.mp h with hin | hin
    · obtain ⟨p', hp', heq⟩ := List.mem_map.mp hin
      obtain ⟨rfl, rfl⟩ := Prod.mk.inj heq
      obtain ⟨hshown, hfresh⟩ := List.mem_filter.mp hp'
      have hzero : unitsAt v p' = 0 := if_neg (of_decide_eq_true hfresh)
      have hone : unitsAt v' p' = 1 := if_pos hshown
      rw [hzero, hone]
      exact Or.inl ⟨one_ne_zero, one_ne_zero, rfl⟩
    · obtain ⟨p', hp', heq⟩ := List.mem_map.mp hin
      obtain ⟨rfl, rfl⟩ := Prod.mk.inj heq
      obtain ⟨hshown, hgone⟩ := List.mem_filter.mp hp'
      exact Or.inr ⟨unitsAt_ne_zero.mpr hshown, if_neg (of_decide_eq_true hgone), rfl⟩
  · rintro (⟨hshown, hchanged, rfl⟩ | ⟨hshown, hgone, rfl⟩)
    · have hin := unitsAt_ne_zero.mp hshown
      have hone : unitsAt v' p = 1 := if_pos hin
      have hfresh : p ∉ v := fun hold => hchanged (by rw [hone, unitsAt, if_pos hold])
      rw [hone]
      exact List.mem_append_left _
        (List.mem_map.mpr ⟨p, List.mem_filter.mpr ⟨hin, decide_eq_true hfresh⟩, rfl⟩)
    · have hout : p ∉ b' := fun hin => unitsAt_ne_zero.mpr hin hgone
      exact List.mem_append_right _ (List.mem_map.mpr
        ⟨p, List.mem_filter.mpr ⟨unitsAt_ne_zero.mp hshown, decide_eq_true hout⟩, rfl⟩)

/-- A message about the asks. -/
def tellAsks (type : String) (v b' v' : List ℚ) : SpotMsg where
  channel := some "book"
  type := some type
  data := [⟨raw [], raw (unitChange v b' v'), some 1700000000000⟩]

/-- Ten asks, a better one that pushes the tenth out of the view, and then neither of the two. -/
def driftBook : ℕ → List ℚ
  | 0 => [1, 2, 3, 4, 5, 6, 7, 8, 9, 10]
  | 1 => [0, 1, 2, 3, 4, 5, 6, 7, 8, 9, 10]
  | _ => [1, 2, 3, 4, 5, 6, 7, 8, 9]

/-- A book with no bid, and one of each ask. -/
def asksOnly (prices : List ℚ) : Book := ⟨unitsAt [], unitsAt prices⟩

/-- The ten best asks of the venue's book. -/
def driftView (i : ℕ) : Book := asksOnly ((driftBook i).take 10)

/-- What the venue tells of these books. -/
def driftFeed : List SpotMsg :=
  [tellAsks "snapshot" [] (driftBook 0) ((driftBook 0).take 10),
    tellAsks "update" ((driftBook 0).take 10) (driftBook 1) ((driftBook 1).take 10),
    tellAsks "update" ((driftBook 1).take 10) (driftBook 2) ((driftBook 2).take 10)]

lemma driftBook_sorted (i : ℕ) : (driftBook i).Pairwise fun p p' => p ≤ p' ∧ p ≠ p' := by
  match i with
  | 0 => decide +kernel
  | 1 => decide +kernel
  | _ + 2 => exact (by decide +kernel : ([1, 2, 3, 4, 5, 6, 7, 8, 9] : List ℚ).Pairwise
      fun p p' => p ≤ p' ∧ p ≠ p')

lemma tells_drift (type : String) {v b' : List ℚ} (hv : v.Nodup) (hb' : b'.Nodup) :
    (tellAsks type v b' (b'.take 10)).Tells (asksOnly v) (asksOnly b') (asksOnly (b'.take 10)) := by
  have hnone : Reports (unitsAt []) (unitsAt []) (unitsAt []) (unitChange [] [] []) :=
    reports_unitChange List.nodup_nil List.nodup_nil
  exact ⟨_, _, _, rfl, hnone, reports_unitChange hv (hb'.sublist (List.take_sublist _ _))⟩

lemma viewFeed_drift :
    ViewFeed (reqDepth 10).toNat (fun i => asksOnly (driftBook i)) driftView driftFeed where
  views i := ⟨isView_take List.Pairwise.nil 10, isView_take (driftBook_sorted i) 10⟩
  snapshot m hm := by
    obtain rfl := Option.some.inj hm
    have hbook := (driftBook_sorted 0).imp And.right
    have hzero : unitsAt [] = fun _ => 0 := funext fun p => if_neg List.not_mem_nil
    have hempty : asksOnly [] = Book.empty := by rw [asksOnly, hzero, Book.empty]
    exact ⟨by decide, hempty ▸ tells_drift "snapshot" List.nodup_nil hbook⟩
  update i m hm := by
    have hnodup : ∀ j, (driftBook j).Nodup := fun j => (driftBook_sorted j).imp And.right
    have hview : ∀ j, ((driftBook j).take 10).Nodup := fun j =>
      (hnodup j).sublist (List.take_sublist _ _)
    match i, hm with
    | 0, hm =>
      obtain rfl := Option.some.inj hm
      exact ⟨by decide, by decide, tells_drift "update" (hview 0) (hnodup 1)⟩
    | 1, hm =>
      obtain rfl := Option.some.inj hm
      exact ⟨by decide, by decide, tells_drift "update" (hview 1) (hnodup 2)⟩

/-- The tenth ask is removed while it is out of the view, and it is in the frame of the last
message again. -/
theorem spotFrames_keep_gone_level :
    let inst : Instrument := ⟨"BTC-USD", .spot, "USD"⟩
    let events : List DropQueue.Event := [.deliver, .take, .deliver, .take, .deliver, .take]
    ViewFeed (reqDepth 10).toNat (fun i => asksOnly (driftBook i)) driftView driftFeed ∧
      Meets (spotStep inst 10 driftFeed) (NothingLost spotReading driftFeed) subscribed events ∧
      ∃ s, run (spotStep inst 10 driftFeed) subscribed events = some s ∧
        ∃ o ∈ s.out, ¬ o.1.1.Shows id (min 10 (reqDepth 10).toNat) (driftView o.2) := by
  intro inst events
  refine ⟨viewFeed_drift, ⟨Or.inl (by decide), trivial, Or.inl (by decide), trivial,
    Or.inl (by decide), trivial, trivial⟩, _, rfl, _, List.mem_of_getLast? rfl, fun hshows => ?_⟩
  have hgone : (driftView 2).asks 10 = 0 := by decide +kernel
  exact (hshows.asks.genuine (10, 1) (by decide +kernel)).1 hgone

lemma mem_of_driftView {i : ℕ} {p : ℚ} (h : (driftView i).asks p ≠ 0) :
    p ∈ (driftBook i).take 10 :=
  unitsAt_ne_zero.mp h

/-- The tenth ask is outranked while it is pushed out, and not any more when one of the others is
gone. -/
lemma outranks_drift_iff {i : ℕ} (hi : i < 3) :
    Outranks (fun j => asksOnly (driftBook j)) driftView 10 i ↔ i < 2 := by
  constructor
  · intro houtranks
    by_contra hlast
    obtain rfl : i = 2 := by omega
    have hpushed : PushedOut (fun j => (asksOnly (driftBook j)).asks) (fun j => (driftView j).asks)
        2 10 := by
      refine ⟨0, by decide, by decide +kernel, by decide +kernel, fun k hlow hhigh => ?_⟩
      obtain rfl | rfl : k = 1 ∨ k = 2 := by omega
      · decide +kernel
      · decide +kernel
    obtain ⟨better, hnodup, hmany, hbetter⟩ := houtranks.asks 10 hpushed
    have hsub : better ⊆ (driftBook 2).take 10 := fun p hp => mem_of_driftView (hbetter p hp).1
    have hle := (List.subperm_of_subset hnodup hsub).length_le
    have hnine : ((driftBook 2).take 10).length = 9 := rfl
    omega
  · intro hfirst
    refine ⟨fun p hp => ?_, fun p hp => ?_⟩
    · obtain ⟨j, -, hin, -⟩ := hp
      exact absurd rfl hin
    · obtain ⟨j, hj, hin, -, hout⟩ := hp
      obtain ⟨rfl, rfl⟩ : j = 0 ∧ i = 1 := by omega
      have hshown := mem_of_driftView hin
      have hhidden : p ∉ (driftBook 1).take 10 := fun hmem =>
        unitsAt_ne_zero.mpr hmem (hout 1 (by decide) le_rfl)
      -- of the first ten asks only the tenth is not in the second view
      have hten : ∀ q ∈ (driftBook 0).take 10, q ∉ (driftBook 1).take 10 → q = 10 := by
        decide +kernel
      obtain rfl := hten p hshown hhidden
      refine ⟨(driftBook 1).take 10, ?_, le_rfl, ?_⟩
      · exact ((driftBook_sorted 1).sublist (List.take_sublist 10 _)).imp And.right
      · intro q hq
        have hbest : ∀ q ∈ (driftBook 1).take 10, q ≤ 10 ∧ q ≠ 10 := by decide +kernel
        exact ⟨unitsAt_ne_zero.mpr hq, hbest q hq⟩

/-- The frames of the snapshot and of the first update show the view, and that of the second does
not. -/
theorem spotFrames_view_iff_snapshot :
    let inst : Instrument := ⟨"BTC-USD", .spot, "USD"⟩
    let events : List DropQueue.Event := [.deliver, .take, .deliver, .take, .deliver, .take]
    ∃ s, run (spotStep inst 10 driftFeed) subscribed events = some s ∧
      s.out.map Prod.snd = [0, 1, 2] ∧
      ∀ o ∈ s.out, o.1.1.Shows id (min 10 (reqDepth 10).toNat) (driftView o.2) ↔ o.2 < 2 := by
  intro inst events
  have hmeets : Meets (spotStep inst 10 driftFeed) (NothingLost spotReading driftFeed) subscribed
      events :=
    ⟨Or.inl (by decide), trivial, Or.inl (by decide), trivial, Or.inl (by decide), trivial, trivial⟩
  have hnumbered : ∃ s, run (spotStep inst 10 driftFeed) subscribed events = some s ∧
      s.out.map Prod.snd = [0, 1, 2] := ⟨_, rfl, rfl⟩
  obtain ⟨s, hrun, hout⟩ := hnumbered
  refine ⟨s, hrun, hout, fun o ho => ?_⟩
  refine (spotFrames_view_iff viewFeed_drift hmeets hrun o ho).trans (outranks_drift_iff ?_)
  have hmem := List.mem_map_of_mem (f := Prod.snd) ho
  rw [hout] at hmem
  simp at hmem
  omega

end Kraken
end ExchangeRouter
