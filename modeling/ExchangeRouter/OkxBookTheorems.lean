import ExchangeRouter.OkxBook
import ExchangeRouter.FoldedBookTheorems
import Mathlib.Algebra.Field.Rat
import Mathlib.Data.List.Chain

/-!
# The book of an OKX stream is the venue's

`prevSeqId` names the state of the book that an update is for. `Sequenced` says what that
takes: every update names the state before it, and one id names one state. An id may come
again, as OKX repeats it when nothing changed, but not for another book:
`orderbook_folded_over_gap` is a feed where it does.
-/

namespace ExchangeRouter
namespace Okx

/-- Every entry has an id, every update names the id before it, and entries of one id leave
one book. -/
structure Sequenced (channel : String) (start : Book) (feed : List Push) : Prop where
  ids : ∀ p ∈ feed, p.entry.seqId ≠ none
  succ : feed.IsChain fun p p' => p'.isFull channel = false →
    p'.entry.prevSeqId = p.entry.seqId
  names : ∀ (i j : ℕ) (p q : Push), feed[i]? = some p → feed[j]? = some q →
    p.entry.seqId = q.entry.seqId →
    trueBook start ((feed.map (Push.update channel)).take (i + 1)) =
      trueBook start ((feed.map (Push.update channel)).take (j + 1))

section

variable {depth : ℕ} {qtyMult : ℚ} {feed : List Push} {start : Book}

/-- On the channels that send the whole book each time there is nothing to check. -/
lemma isFull_of_channel_ne (h : channel depth ≠ "books") (p : Push) :
    p.isFull (channel depth) = true := by
  unfold Push.isFull
  rw [decide_eq_true h]
  rfl

/-- An update that passes the check finds the book of the id it names. -/
lemma chained (hfeed : channel depth = "books" → Sequenced (channel depth) start feed) :
    Chained (reader (channel depth) qtyMult) start feed := by
  intro n i p' hn hni hget hupdate hpass
  -- on the other channels every entry starts over
  have hbooks : channel depth = "books" := by
    by_contra hne
    exact absurd (isFull_of_channel_ne hne p') (by simpa [reader, Push.update] using hupdate)
  have h := hfeed hbooks
  obtain ⟨j, rfl⟩ := Nat.exists_eq_succ_of_ne_zero hn
  obtain ⟨k, rfl⟩ := Nat.exists_eq_succ_of_ne_zero (show i ≠ 0 by omega)
  obtain ⟨hk, hpk⟩ := List.getElem?_eq_some_iff.mp hget
  have hm : feed[j]? = some feed[j] := List.getElem?_eq_getElem (show j < feed.length by omega)
  have hprev : feed[k]? = some feed[k] := List.getElem?_eq_getElem (show k < feed.length by omega)
  have hsucc : p'.entry.prevSeqId = feed[k].entry.seqId := by
    have hchain := List.isChain_iff_getElem.mp h.succ k hk
    rw [hpk] at hchain
    exact hchain hupdate
  rw [show (reader (channel depth) qtyMult).lastId feed (j + 1) = feed[j].entry.seqId from
    BookReader.lastId_succ hm] at hpass
  -- the update names the id it was checked against, and the id before it
  have hids : feed[j].entry.seqId = feed[k].entry.seqId := by
    obtain ⟨a, ha⟩ := Option.ne_none_iff_exists'.mp
      (h.ids feed[j] (List.getElem_mem (show j < feed.length by omega)))
    obtain ⟨b, hb⟩ := Option.ne_none_iff_exists'.mp
      (h.ids feed[k] (List.getElem_mem (show k < feed.length by omega)))
    have hgap : gap (some a) (some b) = false := by
      rw [← ha, ← hb, ← hsucc]
      exact hpass
    simp only [gap, decide_eq_false_iff_not, not_not] at hgap
    rw [ha, hb, hgap]
  exact h.names j k _ _ hm hprev hids

/-- The frames show the book of the dictionaries, quantities multiplied. -/
lemma orderbookFrame_shows (inst : Instrument) (depth : ℕ) (book : Sides) (p : Push)
    (frames : List OrderBook) (b : Book) (hold : book.Hold (fun q => q * qtyMult) b)
    (hframes : orderbookFrame inst depth book p = some frames) :
    ∀ o ∈ frames, o.Shows (fun q => q * qtyMult) depth b := by
  obtain ⟨ts, -, rfl⟩ := Option.map_eq_some_iff.mp hframes
  intro o ho
  obtain rfl := List.mem_singleton.mp ho
  exact hold.shows rfl rfl

/-- A stream that starts knows its multiplier. -/
lemma streamOrderbook_ok {ι : Type*} {inst : Instrument} {entries : List (Push × ι)}
    {out : List (OrderBook × ι)} (h : streamOrderbook inst depth entries = .ok out) :
    ∃ qtyMult, inst.qtyMult = some qtyMult ∧ out = Generator.yields
      (onMessage (reader (channel depth) qtyMult) (orderbookFrame inst depth)) {} entries := by
  unfold streamOrderbook at h
  split at h
  · exact absurd h (by simp)
  · next qtyMult hmult => exact ⟨qtyMult, hmult, (Except.ok.inj h).symm⟩

/-- The entries, any of which may be lost with the messages they came in. Every frame is
that of the venue's book as of its entry, and an update that does not name the id before it
is the end of the stream. -/
theorem orderbook_exact_or_ends (inst : Instrument) (depth : ℕ) (msgs : List BookMsg)
    (start : Book)
    (hfeed : channel depth = "books" → Sequenced (channel depth) start (pushes msgs))
    (delivered : List (Push × ℕ)) (hsub : delivered.Sublist (pushes msgs).zipIdx)
    (out : List (OrderBook × ℕ)) (hout : streamOrderbook inst depth delivered = .ok out) :
    ∃ qtyMult, inst.qtyMult = some qtyMult ∧
      (∀ o i, (o, i) ∈ out →
        ∃ b, trueBook start (((pushes msgs).map (Push.update (channel depth))).take (i + 1)) =
            some b ∧
          o.Shows (fun q => q * qtyMult) depth b ∧ o.qtyUnit = inst.marketType.qtyUnit ∧
          o.bids.Pairwise (fun x y => y.1 < x.1) ∧ o.asks.Pairwise (fun x y => x.1 < y.1) ∧
          (qtyMult ≠ 0 → ∀ level ∈ o.bids ++ o.asks, level.2 ≠ 0)) ∧
      ∀ before p j p' i rest, delivered = before ++ (p, j) :: (p', i) :: rest →
        p'.isFull (channel depth) = false → p.entry.seqId ≠ none → p'.entry.prevSeqId ≠ none →
        p'.entry.prevSeqId ≠ p.entry.seqId →
        streamOrderbook inst depth (before ++ [(p, j)]) = .ok out := by
  obtain ⟨qtyMult, hmult, rfl⟩ := streamOrderbook_ok hout
  have hframes : ∀ (book : Sides) (p : Push) (frames : List OrderBook) (b : Book),
      book.Hold (fun q => q * qtyMult) b → orderbookFrame inst depth book p = some frames →
      ∀ o ∈ frames, o.Shows (fun q => q * qtyMult) depth b ∧
        o.qtyUnit = inst.marketType.qtyUnit := by
    intro book p frames b hold hframes o ho
    refine ⟨orderbookFrame_shows inst depth book p frames b hold hframes o ho, ?_⟩
    obtain ⟨ts, -, rfl⟩ := Option.map_eq_some_iff.mp hframes
    obtain rfl := List.mem_singleton.mp ho
    rfl
  refine ⟨qtyMult, hmult, fun o i ho => ?_, fun before p j p' i rest heq hupdate hid hprev hne => ?_⟩
  · obtain ⟨b, hb, hshows, hunit⟩ := yields_show _ hframes (chained hfeed) hsub o i ho
    refine ⟨b, hb, hshows, hunit, hshows.bids_descending, hshows.asks_ascending, fun hmult => ?_⟩
    exact hshows.qty_ne_zero fun q hq => mul_ne_zero hq hmult
  · subst heq
    have hgap : (reader (channel depth) qtyMult).gap
        ((reader (channel depth) qtyMult).seq p) p' = true := by
      obtain ⟨a, ha⟩ := Option.ne_none_iff_exists'.mp hid
      obtain ⟨b, hb⟩ := Option.ne_none_iff_exists'.mp hprev
      rw [ha, hb] at hne
      show gap p.entry.seqId p'.entry.prevSeqId = true
      rw [ha, hb]
      simpa [gap] using hne
    rw [yields_eq_of_gap _ hupdate hgap]
    unfold streamOrderbook
    rw [hmult]

end

/-- One level on the bid side, with the ids of an update. -/
def bidEntry (prevSeqId seqId : ℤ) (price qty : ℚ) : Entry where
  seqId := some seqId
  prevSeqId := some prevSeqId
  bids := [(some price, some qty)]
  asks := []
  ts := some 1700000000000

/-- A snapshot, a heartbeat that repeats its id, and an update. -/
def sampleFeed : List BookMsg :=
  [⟨some "snapshot", [bidEntry (-1) 10 100 1]⟩,
    ⟨some "update", [⟨some 10, some 10, [], [], some 1700000000100⟩]⟩,
    ⟨some "update", [bidEntry 10 11 99 2]⟩]

/-- The heartbeat is lost and no frame is wrong for it: two linear contracts are worth a
hundredth of a coin each. -/
theorem orderbook_exact_or_ends_sample :
    let inst : Instrument := ⟨"BTCUSDT", .linear, "USDT", some (1 / 100)⟩
    let delivered := (pushes sampleFeed).zipIdx.eraseIdx 1
    ∃ out, streamOrderbook inst 400 delivered = .ok out ∧
      out.map (fun o => (o.1.bids, o.2)) =
        [([(100, 1 / 100)], 0), ([(100, 1 / 100), (99, 2 / 100)], 2)] ∧
      ∃ qtyMult, inst.qtyMult = some qtyMult ∧ ∀ o i, (o, i) ∈ out →
        ∃ b, trueBook Book.empty
            (((pushes sampleFeed).map (Push.update (channel 400))).take (i + 1)) = some b ∧
          o.Shows (fun q => q * qtyMult) 400 b := by
  intro inst delivered
  have hsame : trueBook Book.empty
        (((pushes sampleFeed).map (Push.update (channel 400))).take 1) =
      trueBook Book.empty (((pushes sampleFeed).map (Push.update (channel 400))).take 2) := rfl
  have hfeed : Sequenced (channel 400) Book.empty (pushes sampleFeed) := by
    refine ⟨by decide, by decide, fun i j p q hp hq hpq => ?_⟩
    obtain ⟨hi, rfl⟩ := List.getElem?_eq_some_iff.mp hp
    obtain ⟨hj, rfl⟩ := List.getElem?_eq_some_iff.mp hq
    have hi' : i < 3 := hi
    have hj' : j < 3 := hj
    -- only the snapshot and the heartbeat share an id
    rcases (by omega : i = 0 ∨ i = 1 ∨ i = 2) with rfl | rfl | rfl <;>
      rcases (by omega : j = 0 ∨ j = 1 ∨ j = 2) with rfl | rfl | rfl <;>
      first
        | rfl
        | exact hsame
        | exact hsame.symm
        | exact absurd hpq (by simp [pushes, sampleFeed, bidEntry])
  have hsub : delivered.Sublist (pushes sampleFeed).zipIdx := List.eraseIdx_sublist _ 1
  have hout : ∃ out, streamOrderbook inst 400 delivered = .ok out ∧
      out.map (fun o => (o.1.bids, o.2)) =
        [([(100, 1 / 100)], 0), ([(100, 1 / 100), (99, 2 / 100)], 2)] :=
    ⟨_, rfl, by decide +kernel⟩
  obtain ⟨out, hrun, hbids⟩ := hout
  obtain ⟨qtyMult, hmult, hexact, -⟩ := orderbook_exact_or_ends inst 400 sampleFeed Book.empty
    (fun _ => hfeed) delivered hsub out hrun
  refine ⟨out, hrun, hbids, qtyMult, hmult, fun o i ho => ?_⟩
  obtain ⟨b, hb, hshows, -⟩ := hexact o i ho
  exact ⟨b, hb, hshows⟩

/-- A feed whose third update brings back the id of the snapshot for another book. -/
def loopingFeed : List BookMsg :=
  [⟨some "snapshot", [bidEntry (-1) 10 100 1]⟩,
    ⟨some "update", [bidEntry 10 11 100 2]⟩,
    ⟨some "update", [bidEntry 11 10 100 3]⟩,
    ⟨some "update", [bidEntry 10 12 99 4]⟩]

/-- Every update of the looping feed names the id before it, and with the second and third
message lost the last one is folded into the wrong book. A contract multiplier of zero puts
zero quantities into the frames. -/
theorem orderbook_folded_over_gap :
    let spot : Instrument := ⟨"BTCUSDT", .spot, "USDT", none⟩
    let delivered := ((pushes loopingFeed).zipIdx.eraseIdx 1).eraseIdx 1
    let worthless : Instrument := ⟨"BTCUSDT", .linear, "USDT", some 0⟩
    ((pushes loopingFeed).IsChain fun p p' => p'.isFull (channel 400) = false →
      p'.entry.prevSeqId = p.entry.seqId) ∧
    (∃ out, streamOrderbook spot 400 delivered = .ok out ∧ ∃ o, (o, 3) ∈ out ∧
      o.bids = [(100, 1), (99, 4)] ∧
      ¬ ∃ b, trueBook Book.empty
          (((pushes loopingFeed).map (Push.update (channel 400))).take (3 + 1)) = some b ∧
        o.Shows (fun q => q * 1) 400 b) ∧
    ∃ out o, streamOrderbook worthless 400 (pushes sampleFeed).zipIdx = .ok out ∧
      (o, 0) ∈ out ∧ o.bids = [(100, 0)] := by
  intro spot delivered worthless
  refine ⟨by decide, ⟨_, rfl, _, List.mem_cons_of_mem _ List.mem_cons_self, by decide +kernel, ?_⟩,
    _, _, rfl, List.mem_cons_self, by decide +kernel⟩
  rintro ⟨b, hb, hshows⟩
  -- the venue's third message set the bid that the frame shows with its first quantity
  have hbid : b.bids 100 = 3 := by
    rw [← Option.some.inj hb]
    decide +kernel
  have hlevel := (hshows.bids.genuine (100, 1) (by decide +kernel)).2
  rw [hbid] at hlevel
  exact absurd hlevel (by decide +kernel)

end Okx
end ExchangeRouter
