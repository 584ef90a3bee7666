import ExchangeRouter.BybitBook
import ExchangeRouter.FoldedBookTheorems
import Mathlib.Data.List.Chain

/-!
# The book of a Bybit stream is the venue's

`Sequenced` is what the venue promises of the update ids. Under it the gap check lets a
delta through only right after the message before it, whatever the hub drops, and a delta
behind a loss ends the stream.
-/

namespace ExchangeRouter
namespace Bybit

/-- Every message has an id, no id comes twice, and a delta's is one above the id before. -/
structure Sequenced (feed : List BookMsg) : Prop where
  ids : ∀ m ∈ feed, m.u ≠ none
  unique : (feed.map BookMsg.u).Nodup
  succ : feed.IsChain fun m m' => m'.isSnapshot = false → m'.u = m.u.map (· + 1)

section

variable {feed : List BookMsg}

/-- The delta at position `i + 1` follows the message at position `j` by its id only if `j`
is `i`. -/
lemma Sequenced.eq_of_follows (h : Sequenced feed) {i j : ℕ} {m m' : BookMsg}
    (hm : feed[j]? = some m) (hm' : feed[i + 1]? = some m') (hdelta : m'.isSnapshot = false)
    (hpass : gap m.u m'.u = false) : j = i := by
  obtain ⟨hj, hmj⟩ := List.getElem?_eq_some_iff.mp hm
  obtain ⟨hi, hmi⟩ := List.getElem?_eq_some_iff.mp hm'
  have hsucc : m'.u = feed[i].u.map (· + 1) := by
    have hchain := List.isChain_iff_getElem.mp h.succ i hi
    rw [hmi] at hchain
    exact hchain hdelta
  -- both ids are one below the delta's, so they are the same, so the positions are
  have hids : m.u = feed[i].u := by
    have hm := h.ids m (hmj ▸ List.getElem_mem hj)
    have hi' := h.ids feed[i] (List.getElem_mem (show i < feed.length by omega))
    obtain ⟨a, ha⟩ := Option.ne_none_iff_exists'.mp hm
    obtain ⟨b, hb⟩ := Option.ne_none_iff_exists'.mp hi'
    simp only [ha, hsucc, hb, Option.map_some, gap, decide_eq_false_iff_not, not_not] at hpass
    rw [ha, hb]
    congr 1
    omega
  apply (List.getElem?_inj (show j < (feed.map BookMsg.u).length by simpa using hj)
    h.unique).mp
  rw [List.getElem?_map, List.getElem?_map, hm,
    List.getElem?_eq_getElem (show i < feed.length by omega)]
  exact congrArg some hids

/-- So a delta that passes the check finds the book as the last message left it. -/
lemma Sequenced.chained (h : Sequenced feed) (start : Book) : Chained reader start feed := by
  intro n i m' hn hni hget hdelta hpass
  obtain ⟨j, rfl⟩ := Nat.exists_eq_succ_of_ne_zero hn
  obtain ⟨k, rfl⟩ := Nat.exists_eq_succ_of_ne_zero (show i ≠ 0 by omega)
  have hk : k + 1 < feed.length := (List.getElem?_eq_some_iff.mp hget).1
  have hm : feed[j]? = some feed[j] := List.getElem?_eq_getElem (show j < feed.length by omega)
  rw [show reader.lastId feed (j + 1) = feed[j].u from BookReader.lastId_succ hm] at hpass
  rw [h.eq_of_follows hm hget hdelta hpass]

/-- A delta behind a loss fails the check. -/
lemma Sequenced.gap_of_loss (h : Sequenced feed) {i j : ℕ} {m m' : BookMsg}
    (hm : feed[j]? = some m) (hm' : feed[i]? = some m') (hdelta : m'.isSnapshot = false)
    (hloss : j + 1 < i) : gap m.u m'.u = true := by
  obtain ⟨k, rfl⟩ := Nat.exists_eq_succ_of_ne_zero (show i ≠ 0 by omega)
  by_contra hpass
  have heq := h.eq_of_follows hm hm' hdelta (by simpa using hpass)
  omega

/-- The frames of `stream_orderbook` show the book of the dictionaries. -/
lemma orderbookFrame_shows (inst : Instrument) (depth : ℕ) (book : Sides) (m : BookMsg)
    (frames : List OrderBook) (b : Book) (hold : book.Hold id b)
    (hframes : orderbookFrame inst depth book m = some frames) :
    ∀ o ∈ frames, o.Shows id depth b := by
  obtain ⟨ts, -, rfl⟩ := Option.map_eq_some_iff.mp hframes
  intro o ho
  obtain rfl := List.mem_singleton.mp ho
  exact hold.shows rfl rfl

/-- So do those of `stream_book_ticker`. -/
lemma bookTickerFrame_shows (inst : Instrument) (book : Sides) (m : BookMsg)
    (frames : List BookTicker) (b : Book) (hold : book.Hold id b)
    (hframes : bookTickerFrame inst book m = some frames) : ∀ t ∈ frames, t.Shows b := by
  unfold bookTickerFrame at hframes
  split at hframes
  · next bidPrice bid askPrice ask hhigh hlow =>
    obtain ⟨bidQty, hbid, hrest⟩ := Option.bind_eq_some_iff.mp hframes
    obtain ⟨askQty, hask, hrest⟩ := Option.bind_eq_some_iff.mp hrest
    obtain ⟨ts, -, rfl⟩ := Option.map_eq_some_iff.mp hrest
    intro t ht
    obtain rfl := List.mem_singleton.mp ht
    constructor
    · rw [buildQtyValue_native hbid]
      exact hold.bids.isBest_highest hhigh
    · rw [buildQtyValue_native hask]
      exact hold.asks.isBest_lowest hlow
  · intro t ht
    rw [← Option.some.inj hframes] at ht
    exact absurd ht List.not_mem_nil

/-- Over any feed with the venue's ids and any messages of it that reach the queues, every
frame of either stream is that of the venue's book as of its message, and a delta behind a
loss is the end of the stream. -/
theorem streams_exact_or_end (inst : Instrument) (depth : ℕ) (feed : List BookMsg) (start : Book)
    (hfeed : Sequenced feed) (delivered : List (BookMsg × ℕ))
    (hsub : delivered.Sublist feed.zipIdx) :
    (∀ o i, (o, i) ∈ streamOrderbook inst depth delivered →
      ∃ b, trueBook start ((reader.updates feed).take (i + 1)) = some b ∧ o.Shows id depth b ∧
        o.bids.Pairwise (fun x y => y.1 < x.1) ∧ o.asks.Pairwise (fun x y => x.1 < y.1) ∧
        ∀ level ∈ o.bids ++ o.asks, level.2 ≠ 0) ∧
    (∀ t i, (t, i) ∈ streamBookTicker inst delivered →
      ∃ b, trueBook start ((reader.updates feed).take (i + 1)) = some b ∧ t.Shows b ∧
        t.bidQty.native ≠ 0 ∧ t.askQty.native ≠ 0) ∧
    ∀ before m j m' i rest, delivered = before ++ (m, j) :: (m', i) :: rest → j + 1 < i →
      m'.isSnapshot = false →
      streamOrderbook inst depth delivered = streamOrderbook inst depth (before ++ [(m, j)]) ∧
      streamBookTicker inst delivered = streamBookTicker inst (before ++ [(m, j)]) := by
  have hchained := hfeed.chained start
  refine ⟨fun o i ho => ?_, fun t i ht => ?_, fun before m j m' i rest heq hloss hdelta => ?_⟩
  · obtain ⟨b, hb, hshows⟩ := yields_show _ (orderbookFrame_shows inst depth) hchained hsub o i ho
    exact ⟨b, hb, hshows, hshows.bids_descending, hshows.asks_ascending,
      hshows.qty_ne_zero fun q hq => hq⟩
  · obtain ⟨b, hb, hshows⟩ := yields_show _ (bookTickerFrame_shows inst) hchained hsub t i ht
    exact ⟨b, hb, hshows, hshows.qty_ne_zero⟩
  · subst heq
    have hdel := Generator.delivered_of_sublist hsub
    have hgap : reader.gap (reader.seq m) m' = true :=
      hfeed.gap_of_loss (hdel.genuine (m, j) (by simp)).2 (hdel.genuine (m', i) (by simp)).2
        hdelta hloss
    exact ⟨yields_eq_of_gap _ hdelta hgap, yields_eq_of_gap _ hdelta hgap⟩

end

/-- A feed of a snapshot and three deltas. -/
def sampleFeed : List BookMsg :=
  [⟨"snapshot", some 7, none, [(some 100, some 1), (some 99, some 2)], [(some 101, some 3)],
      some 1700000000000⟩,
    ⟨"delta", some 8, none, [(some 100, some 0)], [], some 1700000000100⟩,
    ⟨"delta", some 9, none, [(some 99, some 5)], [], some 1700000000200⟩,
    ⟨"delta", some 10, none, [(some 98, some 4)], [], some 1700000000300⟩]

/-- The third message is lost: two frames of either stream, and the fourth message ends both. -/
theorem streams_exact_or_end_sample :
    let inst : Instrument := ⟨"BTCUSDT", .linear, "USDT", none, id⟩
    let delivered := sampleFeed.zipIdx.eraseIdx 2
    ((streamOrderbook inst 20 delivered).map (fun o => (o.1.bids, o.2)) =
        [([(100, 1), (99, 2)], 0), ([(99, 2)], 1)] ∧
      ∀ o i, (o, i) ∈ streamOrderbook inst 20 delivered →
        ∃ b, trueBook Book.empty ((reader.updates sampleFeed).take (i + 1)) = some b ∧
          o.Shows id 20 b) ∧
    ((streamBookTicker inst delivered).map (fun t => (t.1.bidPrice, t.1.bidQty.native, t.2)) =
        [(100, 1, 0), (99, 2, 1)] ∧
      ∀ t i, (t, i) ∈ streamBookTicker inst delivered →
        ∃ b, trueBook Book.empty ((reader.updates sampleFeed).take (i + 1)) = some b ∧
          t.Shows b) ∧
    streamOrderbook inst 20 delivered = streamOrderbook inst 20 (delivered.take 2) ∧
      streamBookTicker inst delivered = streamBookTicker inst (delivered.take 2) := by
  intro inst delivered
  have hfeed : Sequenced sampleFeed := ⟨by decide, by decide, by decide⟩
  obtain ⟨hbook, hticker, hends⟩ := streams_exact_or_end inst 20 sampleFeed Book.empty hfeed
    delivered (List.eraseIdx_sublist _ 2)
  refine ⟨⟨by decide, fun o i ho => ?_⟩, ⟨by decide +kernel, fun t i ht => ?_⟩, ?_⟩
  · obtain ⟨b, hb, hshows, -⟩ := hbook o i ho
    exact ⟨b, hb, hshows⟩
  · obtain ⟨b, hb, hshows, -⟩ := hticker t i ht
    exact ⟨b, hb, hshows⟩
  · exact hends (sampleFeed.zipIdx.take 1) _ 1 _ 3 [] rfl (by decide) rfl

end Bybit
end ExchangeRouter
