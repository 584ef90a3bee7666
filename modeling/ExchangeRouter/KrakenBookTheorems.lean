import ExchangeRouter.KrakenBook

/-!
# When the book of a Kraken stream is the venue's

A message on its own is folded as it should be (`spot_folds`, `futures_folds`). What the
streams lack is a check that no message is missing, so a run is right as long as no update
is dropped from the queue of a bootstrapped stream, unless what it finds next is a
snapshot: `runs_exact`. One update too many in the queue is enough for a wrong frame
(`burst_folded_over_loss`).
-/

namespace ExchangeRouter
namespace Kraken

open DropQueue Transition

/-! ## What the messages say about the book -/

/-- What an item says about the book. -/
def SpotItem.update (item : SpotItem) : BookUpdate := ⟨false, item.bids, item.asks⟩

/-- The message up to its `k`-th item. -/
def SpotMsg.updatesUpTo (m : SpotMsg) (k : ℕ) : List BookUpdate :=
  if m.isBook then
    (if m.isSnapshot then [⟨true, [], []⟩] else []) ++ (m.data.take k).map SpotItem.update
  else []

/-- The levels of a snapshot that a stream keeps. -/
def positive (levels : List RawLevel) : List RawLevel :=
  levels.filter fun level =>
    match level with
    | (some _, some q) => decide (0 < q)
    | _ => true

/-- The message, which is one update at most. -/
def FuturesMsg.updatesUpTo (m : FuturesMsg) (_ : ℕ) : List BookUpdate :=
  if m.isSnapshot then [⟨true, positive m.bids, positive m.asks⟩]
  else if m.isUpdate then
    let level : RawLevel := (m.price.getD none, m.qty.getD (some 0))
    match (m.side.getD "").toLower with
    | "buy" => [⟨false, [level], []⟩]
    | "sell" => [⟨false, [], [level]⟩]
    | _ => []
  else []

/-- How the messages of a feed are to be read: which are snapshots, and what a message says
up to its `k`-th item, of which it has `items`. -/
structure Reading (μ : Type*) where
  isSnapshot : μ → Bool
  upTo : μ → ℕ → List BookUpdate
  items : μ → ℕ

/-- What the whole message says. -/
def Reading.updates {μ : Type*} (r : Reading μ) (m : μ) : List BookUpdate := r.upTo m (r.items m)

/-- Spot messages, read item by item. -/
def spotReading : Reading SpotMsg := ⟨SpotMsg.isSnapshot, SpotMsg.updatesUpTo, fun m => m.data.length⟩

/-- Futures messages, which have one item each. -/
def futuresReading : Reading FuturesMsg :=
  ⟨FuturesMsg.isSnapshot, FuturesMsg.updatesUpTo, fun _ => 1⟩

/-! ## The contract -/

section

variable {μ : Type*} (r : Reading μ) (depth : ℕ) (feed : List μ)

/-- A frame made at message `i` shows the fold of a snapshot and of everything the feed says
after it, up to the `k`-th item of message `i`. -/
def Exact (i : ℕ) (frame : OrderBook × ℕ) : Prop :=
  ∃ j s m, j ≤ i ∧ feed[j]? = some s ∧ r.isSnapshot s = true ∧ feed[i]? = some m ∧
    ∃ b, trueBook Book.empty (((feed.take i).drop j).flatMap r.updates ++ r.upTo m frame.2) =
      some b ∧ frame.1.Shows id depth b

/-- The stream can go on with the message whatever was lost before it. -/
def Resync (c : BookState) (m : μ) : Prop := r.isSnapshot m = true ∨ c.bootstrapped = false

/-- A delivery finds room in the queue, or the stream can go on with the message that is then
the oldest. -/
def NothingLost (feed : List μ) :
    Pipe BookState μ (OrderBook × ℕ) → DropQueue.Event → Prop :=
  Survives queueSize feed (Resync r)

/-- Once bootstrapped the dictionaries hold the fold of a snapshot and everything after it,
up to position `n`. -/
def Holds (n : ℕ) (c : BookState) : Prop :=
  c.bootstrapped = true → ∃ j s, j < n ∧ feed[j]? = some s ∧ r.isSnapshot s = true ∧
    ∃ b, trueBook Book.empty (((feed.take n).drop j).flatMap r.updates) = some b ∧
      c.book.Hold id b

/-- What comes of a message, after the book `pre`: frames of a bootstrapped stream that show the
book as of their item, and a state that holds the book after the message. -/
def Folded (c : BookState) (m : μ) (pre : Option Book)
    (outcome : List (OrderBook × ℕ) × Option BookState) : Prop :=
  (∀ frame ∈ outcome.1, (r.isSnapshot m || c.bootstrapped) = true ∧
    ∃ b, applyAll pre (r.upTo m frame.2) = some b ∧ frame.1.Shows id depth b) ∧
  ∀ c', outcome.2 = some c' → c'.bootstrapped = (r.isSnapshot m || c.bootstrapped) ∧
    (c'.bootstrapped = true →
      ∃ b, applyAll pre (r.updates m) = some b ∧ c'.book.Hold id b)

/-- One message, from any book before it that a bootstrapped stream holds. -/
def FoldsMessage (body : BookState → μ → List (OrderBook × ℕ) × Option BookState) : Prop :=
  ∀ c m pre, (r.isSnapshot m = true ∨
      (c.bootstrapped = true → ∃ b, pre = some b ∧ c.book.Hold id b)) →
    Folded r depth c m pre (body c m)

variable {r depth feed}

/-- What the feed says from message `j` on, with one message more. -/
lemma updates_succ {i j : ℕ} {m : μ} (hget : feed[i]? = some m) (hj : j ≤ i) :
    ((feed.take (i + 1)).drop j).flatMap r.updates =
      ((feed.take i).drop j).flatMap r.updates ++ r.updates m := by
  have hlt : i < feed.length := (List.getElem?_eq_some_iff.mp hget).1
  have hlen : j ≤ (feed.take i).length := by
    rw [List.length_take]
    omega
  rw [List.take_add_one, hget, List.drop_append_of_le_length hlen, List.flatMap_append]
  simp

/-- A snapshot is folded from the empty book, whatever the stream held. -/
lemma FoldsMessage.step_snapshot
    {body : BookState → μ → List (OrderBook × ℕ) × Option BookState} (h : FoldsMessage r depth body)
    {i : ℕ} {c : BookState} {m : μ} (hget : feed[i]? = some m) (hsnap : r.isSnapshot m = true) :
    (∀ frame ∈ (body c m).1, Exact r depth feed i frame) ∧
      ∀ c', (body c m).2 = some c' → Holds r feed (i + 1) c' := by
  have hnil : (feed.take i).drop i = [] := by
    apply List.drop_eq_nil_of_le
    rw [List.length_take]
    omega
  obtain ⟨hframes, hstate⟩ := h c m (some Book.empty) (Or.inl hsnap)
  constructor
  · intro frame hframe
    obtain ⟨-, b, hb, hshows⟩ := hframes frame hframe
    refine ⟨i, m, m, le_refl i, hget, hsnap, hget, b, ?_, hshows⟩
    rw [hnil]
    exact hb
  · intro c' hc' hboot
    obtain ⟨b, hb, hold⟩ := (hstate c' hc').2 hboot
    refine ⟨i, m, Nat.lt_succ_self i, hget, hsnap, b, ?_, hold⟩
    rw [updates_succ hget (le_refl i), hnil]
    exact hb

/-- The next message of a stream that holds the book before it is folded into that book. -/
lemma FoldsMessage.step_next
    {body : BookState → μ → List (OrderBook × ℕ) × Option BookState} (h : FoldsMessage r depth body)
    {i : ℕ} {c : BookState} {m : μ} (hget : feed[i]? = some m) (hholds : Holds r feed i c)
    (hboot : c.bootstrapped = true) :
    (∀ frame ∈ (body c m).1, Exact r depth feed i frame) ∧
      ∀ c', (body c m).2 = some c' → Holds r feed (i + 1) c' := by
  obtain ⟨j, s, hj, hs, hsnap, b, hb, hold⟩ := hholds hboot
  obtain ⟨hframes, hstate⟩ := h c m (some b) (Or.inr fun _ => ⟨b, rfl, hold⟩)
  unfold trueBook at hb
  constructor
  · intro frame hframe
    obtain ⟨-, b', hb', hshows⟩ := hframes frame hframe
    refine ⟨j, s, m, hj.le, hs, hsnap, hget, b', ?_, hshows⟩
    rw [trueBook, applyAll_append, hb]
    exact hb'
  · intro c' hc' hboot'
    obtain ⟨b', hb', hold'⟩ := (hstate c' hc').2 hboot'
    refine ⟨j, s, by omega, hs, hsnap, b', ?_, hold'⟩
    rw [trueBook, updates_succ hget hj.le, applyAll_append, hb]
    exact hb'

/-- A loop body that folds a message right keeps the invariant over the messages it gets, as
long as they are the next ones or it can go on with them. -/
lemma FoldsMessage.step {body : BookState → μ → List (OrderBook × ℕ) × Option BookState}
    (h : FoldsMessage r depth body) (n i : ℕ) (c : BookState) (m : μ) (hholds : Holds r feed n c)
    (_ : n ≤ i) (hget : feed[i]? = some m) (hnext : n = i ∨ Resync r c m) :
    (∀ frame ∈ (body c m).1, Exact r depth feed i frame) ∧
      ∀ c', (body c m).2 = some c' → Holds r feed (i + 1) c' := by
  cases hsnap : r.isSnapshot m with
  | true => exact h.step_snapshot hget hsnap
  | false =>
    cases hboot : c.bootstrapped with
    | false =>
      -- before its first snapshot the stream yields nothing and holds nothing
      obtain ⟨hframes, hstate⟩ := h c m none
        (Or.inr fun htrue => absurd (hboot.symm.trans htrue) (by simp))
      rw [hsnap, hboot] at hframes
      refine ⟨fun frame hframe => absurd (hframes frame hframe).1 (by simp), ?_⟩
      intro c' hc' htrue
      have heq := (hstate c' hc').1
      rw [hsnap, hboot, htrue] at heq
      exact absurd heq (by simp)
    | true =>
      have hni : n = i := by
        apply hnext.resolve_right
        rintro (hs | hb)
        · exact absurd (hsnap.symm.trans hs) (by simp)
        · exact absurd (hboot.symm.trans hb) (by simp)
      rw [hni] at hholds
      exact h.step_next hget hholds hboot

/-- A run in which nothing is lost to a bootstrapped stream yields only exact frames. -/
theorem FoldsMessage.run_exact
    {body : BookState → μ → List (OrderBook × ℕ) × Option BookState}
    (h : FoldsMessage r depth body) {events : List DropQueue.Event}
    {s : Pipe BookState μ (OrderBook × ℕ)}
    (hmeets : Meets (DropQueue.step queueSize body feed) (NothingLost r feed) subscribed events)
    (hrun : run (DropQueue.step queueSize body feed) subscribed events = some s) :
    ∀ o ∈ s.out, Exact r depth feed o.2 o.1 :=
  outputs_of_run (by decide) h.step (fun hboot => absurd hboot (by simp)) hmeets hrun

end

/-! ## Spot -/

section

variable (inst : Instrument) (depth : ℕ)

/-- The items of a message, from dictionaries that hold the book before them. -/
lemma spotItems_spec {book : Sides} {b : Book} (hold : book.Hold id b) (folded : ℕ)
    (items : List SpotItem) :
    (∀ frame ∈ (spotItems inst depth book folded items).1, folded ≤ frame.2 ∧
      ∃ b', applyAll (some b) ((items.take (frame.2 - folded)).map SpotItem.update) = some b' ∧
        frame.1.Shows id depth b') ∧
    ∀ book', (spotItems inst depth book folded items).2 = some book' →
      ∃ b', applyAll (some b) (items.map SpotItem.update) = some b' ∧ book'.Hold id b' := by
  induction items generalizing book b folded with
  | nil =>
    refine ⟨fun frame hframe => absurd hframe List.not_mem_nil, fun book' hbook' => ?_⟩
    obtain rfl := Option.some.inj hbook'
    exact ⟨b, rfl, hold⟩
  | cons item rest ih =>
    unfold spotItems
    split
    · next book₁ timestamp happly htime =>
      obtain ⟨b₁, hb₁, hold₁⟩ := hold.applyBoth happly
      obtain ⟨hframes, hstate⟩ := ih hold₁ (folded + 1)
      have hfirst : ∀ us, applyAll (some b) (item.update :: us) = applyAll (some b₁) us := by
        intro us
        rw [← hb₁]
        rfl
      dsimp only
      refine ⟨fun frame hframe => ?_, fun book' hbook' => ?_⟩
      · rcases List.mem_cons.mp hframe with rfl | hframe
        · refine ⟨Nat.le_succ folded, b₁, ?_, hold₁.shows rfl rfl⟩
          rw [show folded + 1 - folded = 0 + 1 by omega, List.take_succ_cons, List.take_zero,
            List.map_cons, hfirst]
          rfl
        · obtain ⟨hle, b', hb', hshows⟩ := hframes frame hframe
          refine ⟨by omega, b', ?_, hshows⟩
          rw [show frame.2 - folded = (frame.2 - (folded + 1)) + 1 by omega, List.take_succ_cons,
            List.map_cons, hfirst]
          exact hb'
      · obtain ⟨b', hb', hold'⟩ := hstate book' hbook'
        refine ⟨b', ?_, hold'⟩
        rw [List.map_cons, hfirst]
        exact hb'
    · exact ⟨fun frame hframe => absurd hframe List.not_mem_nil, fun book' h => absurd h (by simp)⟩

/-- A message that raises yields nothing and ends the stream. -/
lemma folded_of_raise {μ : Type*} {r : Reading μ} {c : BookState} {m : μ} {pre : Option Book} :
    Folded r depth c m pre ([], none) :=
  ⟨fun _ hframe => absurd hframe List.not_mem_nil, fun _ hc' => absurd hc' (by simp)⟩

/-- A stream that skips a message which says nothing stays as it was. -/
lemma folded_of_skip {μ : Type*} {r : Reading μ} {c : BookState} {m : μ} {pre : Option Book}
    (hsnap : r.isSnapshot m = false) (hupdates : c.bootstrapped = true → r.updates m = [])
    (hpre : r.isSnapshot m = true ∨
      (c.bootstrapped = true → ∃ b, pre = some b ∧ c.book.Hold id b)) :
    Folded r depth c m pre ([], some c) := by
  refine ⟨fun frame hframe => absurd hframe List.not_mem_nil, fun c' hc' => ?_⟩
  obtain rfl := Option.some.inj hc'
  refine ⟨by rw [hsnap, Bool.false_or], fun hboot => ?_⟩
  obtain ⟨b, hb, hold⟩ := hpre.resolve_left (by simp [hsnap]) hboot
  refine ⟨b, ?_, hold⟩
  rw [hupdates hboot]
  exact hb

/-- The spot stream folds a message right. -/
theorem spot_folds : FoldsMessage spotReading depth (onSpotMessage inst depth) := by
  intro c m pre hpre
  unfold onSpotMessage
  split
  · next hbook =>
    dsimp only
    split
    · next hboot =>
      -- the book before the items: empty after a snapshot's reset
      have hstart : ∃ b, (if m.isSnapshot then {} else c.book : Sides).Hold id b ∧
          ∀ us, applyAll pre ((if m.isSnapshot then [⟨true, [], []⟩] else []) ++ us) =
            applyAll (some b) us := by
        cases hsnap : m.isSnapshot with
        | true =>
          refine ⟨Book.empty, Sides.hold_empty id, fun us => ?_⟩
          rfl
        | false =>
          rw [hsnap, Bool.false_or] at hboot
          obtain ⟨b, rfl, hold⟩ := hpre.resolve_left (by simp [spotReading, hsnap]) hboot
          exact ⟨b, hold, fun us => rfl⟩
      obtain ⟨b, hold, hus⟩ := hstart
      obtain ⟨hframes, hstate⟩ := spotItems_spec inst depth hold 0 m.data
      have hupTo : ∀ k, applyAll pre (m.updatesUpTo k) =
          applyAll (some b) ((m.data.take k).map SpotItem.update) := by
        intro k
        rw [SpotMsg.updatesUpTo, if_pos hbook, hus]
      refine ⟨fun frame hframe => ⟨hboot, ?_⟩, fun c' hc' => ?_⟩
      · obtain ⟨-, b', hb', hshows⟩ := hframes frame hframe
        exact ⟨b', (hupTo frame.2).trans hb', hshows⟩
      · obtain ⟨book', hbook', rfl⟩ := Option.map_eq_some_iff.mp hc'
        refine ⟨hboot.symm, fun _ => ?_⟩
        obtain ⟨b', hb', hold'⟩ := hstate book' hbook'
        refine ⟨b', ?_, hold'⟩
        rw [← List.take_length (l := m.data)] at hb'
        exact (hupTo m.data.length).trans hb'
    · next hboot =>
      rw [Bool.or_eq_true, not_or] at hboot
      exact folded_of_skip depth (Bool.eq_false_iff.mpr hboot.1) (fun h => absurd h hboot.2) hpre
  · next hbook =>
    -- not of the book channel
    refine folded_of_skip depth ?_ (fun _ => ?_) hpre
    · simp [spotReading, SpotMsg.isSnapshot, hbook]
    · simp [spotReading, Reading.updates, SpotMsg.updatesUpTo, hbook]

/-! ## Futures -/

/-- The loop over a snapshot's side is that over its positive levels. -/
lemma addPositive_eq (d : Levels.Side ℚ ℚ) (levels : List RawLevel) :
    addPositive d levels = applyLevels id d (positive levels) := by
  induction levels generalizing d with
  | nil => rfl
  | cons level levels ih =>
    obtain ⟨_ | p, _ | q⟩ := level
    · rfl
    · rfl
    · rfl
    · unfold addPositive positive
      by_cases hq : 0 < q
      · rw [List.filter_cons_of_pos (by simpa using hq), if_pos hq, ih]
        show _ = applyLevels id (Levels.Side.put id d (p, q)) (positive levels)
        rw [Levels.Side.put, if_neg (ne_of_gt hq)]
        rfl
      · rw [List.filter_cons_of_neg (by simpa using hq), if_neg hq, ih]
        rfl

/-- A snapshot holds the book of its positive levels, whatever was before. -/
lemma snapshot_hold {m : FuturesMsg} {book : Sides} (h : m.snapshot = some book)
    (pre : Option Book) :
    ∃ b, applyAll pre [⟨true, positive m.bids, positive m.asks⟩] = some b ∧ book.Hold id b := by
  unfold FuturesMsg.snapshot at h
  rw [addPositive_eq, addPositive_eq] at h
  exact (Sides.hold_empty id).applyBoth h

/-- What an update says, by its side. -/
lemma FuturesMsg.updatesUpTo_of_isUpdate {m : FuturesMsg} (hsnap : m.isSnapshot = false)
    (hupdate : m.isUpdate = true) (k : ℕ) :
    m.updatesUpTo k =
      if (m.side.getD "").toLower = "buy" then
        [⟨false, [(m.price.getD none, m.qty.getD (some 0))], []⟩]
      else if (m.side.getD "").toLower = "sell" then
        [⟨false, [], [(m.price.getD none, m.qty.getD (some 0))]⟩]
      else [] := by
  unfold FuturesMsg.updatesUpTo
  rw [hsnap, hupdate]
  simp only [Bool.false_eq_true, if_false, if_true]
  split <;> simp_all

/-- An update changes the book on its side, or nothing. -/
lemma change_hold {m : FuturesMsg} {s : Sides} {b : Book} (hold : s.Hold id b)
    (hsnap : m.isSnapshot = false) (hupdate : m.isUpdate = true) {next : Option Sides}
    (h : m.change s = some next) :
    ∃ b', applyAll (some b) (m.updatesUpTo 1) = some b' ∧ (next.getD s).Hold id b' := by
  rw [FuturesMsg.updatesUpTo_of_isUpdate hsnap hupdate]
  unfold FuturesMsg.change at h
  split at h
  · next p q hp hq =>
    rw [hp, hq]
    split at h
    · next hside =>
      obtain rfl := Option.some.inj h
      rw [if_pos hside]
      have happly : s.applyBoth id [(some p, some q)] [] =
          some { s with bids := Levels.Side.put id s.bids (p, q) } := rfl
      exact hold.applyBoth happly
    · next hside =>
      obtain rfl := Option.some.inj h
      rw [hside, if_neg (by decide), if_pos rfl]
      have happly : s.applyBoth id [] [(some p, some q)] =
          some { s with asks := Levels.Side.put id s.asks (p, q) } := rfl
      exact hold.applyBoth happly
    · next hbuy hsell =>
      obtain rfl := Option.some.inj h
      rw [if_neg hbuy, if_neg hsell]
      exact ⟨b, rfl, hold⟩
  · exact absurd h (by simp)

/-- The end of the loop body shows the dictionaries and leaves them as they are. -/
lemma futuresFrame_spec {s : BookState} {b : Book} (hold : s.book.Hold id b) (m : FuturesMsg) :
    (∀ frame ∈ (futuresFrame inst depth s m).1, frame.1.Shows id depth b) ∧
      ∀ s', (futuresFrame inst depth s m).2 = some s' → s' = s := by
  unfold futuresFrame
  split
  · exact ⟨fun frame hframe => absurd hframe List.not_mem_nil,
      fun s' hs' => (Option.some.inj hs').symm⟩
  · split
    · exact ⟨fun frame hframe => absurd hframe List.not_mem_nil, fun s' hs' => absurd hs' (by simp)⟩
    · refine ⟨fun frame hframe => ?_, fun s' hs' => (Option.some.inj hs').symm⟩
      obtain rfl := List.mem_singleton.mp hframe
      exact hold.shows rfl rfl

/-- A snapshot of the futures stream. -/
lemma futures_snapshot_folded {c : BookState} {m : FuturesMsg} (hsnap : m.isSnapshot = true)
    {book : Sides} (hbook : m.snapshot = some book) (pre : Option Book) :
    Folded futuresReading depth c m pre (futuresFrame inst depth ⟨book, true⟩ m) := by
  obtain ⟨b, hb, hold⟩ := snapshot_hold hbook pre
  have hupdates : ∀ k, futuresReading.upTo m k = [⟨true, positive m.bids, positive m.asks⟩] := by
    intro k
    show m.updatesUpTo k = _
    rw [FuturesMsg.updatesUpTo, if_pos hsnap]
  have hboot : (futuresReading.isSnapshot m || c.bootstrapped) = true := by
    rw [show futuresReading.isSnapshot m = true from hsnap, Bool.true_or]
  obtain ⟨hframes, hstate⟩ := futuresFrame_spec inst depth (s := ⟨book, true⟩) hold m
  constructor
  · intro frame hframe
    refine ⟨hboot, b, ?_, hframes frame hframe⟩
    rw [hupdates]
    exact hb
  · intro c' hc'
    rw [hstate c' hc']
    refine ⟨hboot.symm, fun _ => ⟨b, ?_, hold⟩⟩
    rw [Reading.updates, hupdates]
    exact hb

/-- An update of a bootstrapped futures stream, which may be of neither side. -/
lemma futures_update_folded {c : BookState} {m : FuturesMsg} (hsnap : m.isSnapshot = false)
    (hupdate : m.isUpdate = true) (hboot : c.bootstrapped = true) {b : Book}
    (hold : c.book.Hold id b) {next : Option Sides} (hchange : m.change c.book = some next) :
    Folded futuresReading depth c m (some b)
      (match next with
      | none => ([], some c)
      | some book => futuresFrame inst depth { c with book := book } m) := by
  obtain ⟨b', hb', hold'⟩ := change_hold hold hsnap hupdate hchange
  have hboot' : c.bootstrapped = (futuresReading.isSnapshot m || c.bootstrapped) := by
    rw [show futuresReading.isSnapshot m = false from hsnap, Bool.false_or]
  cases next with
  | none =>
    refine ⟨fun frame hframe => absurd hframe List.not_mem_nil, fun c' hc' => ?_⟩
    obtain rfl := Option.some.inj hc'
    exact ⟨hboot', fun _ => ⟨b', hb', hold'⟩⟩
  | some book =>
    obtain ⟨hframes, hstate⟩ := futuresFrame_spec inst depth (s := { c with book := book }) hold' m
    constructor
    · intro frame hframe
      exact ⟨hboot'.symm.trans hboot, b', hb', hframes frame hframe⟩
    · intro c' hc'
      rw [hstate c' hc']
      exact ⟨hboot', fun _ => ⟨b', hb', hold'⟩⟩

/-- The futures stream folds a message right. -/
theorem futures_folds : FoldsMessage futuresReading depth (onFuturesMessage inst depth) := by
  intro c m pre hpre
  unfold onFuturesMessage
  by_cases hsnap : m.isSnapshot = true
  · rw [if_pos hsnap]
    cases hbook : m.snapshot with
    | none => exact folded_of_raise depth
    | some book => exact futures_snapshot_folded inst depth hsnap hbook pre
  · have hsnap' : futuresReading.isSnapshot m = false := Bool.eq_false_iff.mpr hsnap
    rw [if_neg hsnap]
    by_cases hupdate : m.isUpdate = true
    · rw [if_pos hupdate]
      by_cases hboot : c.bootstrapped = true
      · rw [if_pos hboot]
        obtain ⟨b, rfl, hold⟩ := hpre.resolve_left (by simp [hsnap']) hboot
        cases hchange : m.change c.book with
        | none => exact folded_of_raise depth
        | some next =>
          have hfolded := futures_update_folded inst depth hsnap' hupdate hboot hold hchange
          cases next <;> exact hfolded
      · -- an update before the first snapshot is skipped
        rw [if_neg hboot]
        exact folded_of_skip depth hsnap' (fun h => absurd h hboot) hpre
    · rw [if_neg hupdate]
      refine folded_of_skip depth hsnap' (fun _ => ?_) hpre
      show m.updatesUpTo 1 = []
      rw [FuturesMsg.updatesUpTo, if_neg hsnap, if_neg hupdate]

/-! ## Runs -/

/-- In every run in which no update is dropped from the queue of a bootstrapped stream, but
right before a snapshot, every frame is exact. -/
theorem runs_exact :
    (∀ (feed : List SpotMsg) (events : List DropQueue.Event)
        (s : Pipe BookState SpotMsg (OrderBook × ℕ)),
      Meets (spotStep inst depth feed) (NothingLost spotReading feed) subscribed events →
      run (spotStep inst depth feed) subscribed events = some s →
      ∀ o ∈ s.out, Exact spotReading depth feed o.2 o.1) ∧
    ∀ (feed : List FuturesMsg) (events : List DropQueue.Event)
        (s : Pipe BookState FuturesMsg (OrderBook × ℕ)),
      Meets (futuresStep inst depth feed) (NothingLost futuresReading feed) subscribed events →
      run (futuresStep inst depth feed) subscribed events = some s →
      ∀ o ∈ s.out, Exact futuresReading depth feed o.2 o.1 := by
  refine ⟨fun feed events s hmeets hrun => ?_, fun feed events s hmeets hrun => ?_⟩
  · exact (spot_folds inst depth).run_exact hmeets hrun
  · exact (futures_folds inst depth).run_exact hmeets hrun

end

/-- A spot message with one item on the bid side. -/
def spotBid (type : String) (price qty : ℚ) : SpotMsg where
  channel := some "book"
  type := some type
  data := [⟨[(some price, some qty)], [], some 1700000000000⟩]

/-- A futures update on the ask side. -/
def futuresAsk (price qty : ℚ) : FuturesMsg where
  feed := some "book"
  bids := []
  asks := []
  side := some "sell"
  price := some (some price)
  qty := some (some qty)
  timestamp := some 1700000000000

/-- A snapshot with one bid, and an ask of no quantity. -/
def futuresSnapshot : FuturesMsg where
  feed := some "book_snapshot"
  bids := [(some 100, some 1)]
  asks := [(some 101, some 2), (some 102, some 0)]
  side := none
  price := none
  qty := none
  timestamp := some 1700000000000

/-- A snapshot and an update, each read before the next one comes. -/
theorem runs_exact_sample :
    let inst : Instrument := ⟨"BTCUSD", .inverse, "USD"⟩
    let events : List DropQueue.Event := [.deliver, .take, .deliver, .take]
    (∃ s, run (spotStep inst 10 [spotBid "snapshot" 100 1, spotBid "update" 99 2]) subscribed
        events = some s ∧ s.out.map (fun o => o.1.1.bids) = [[(100, 1)], [(100, 1), (99, 2)]] ∧
      ∀ o ∈ s.out, Exact spotReading 10 [spotBid "snapshot" 100 1, spotBid "update" 99 2]
        o.2 o.1) ∧
    ∃ s, run (futuresStep inst 10 [futuresSnapshot, futuresAsk 101 0]) subscribed events =
        some s ∧ s.out.map (fun o => o.1.1.asks) = [[(101, 2)]] ∧
      ∀ o ∈ s.out, Exact futuresReading 10 [futuresSnapshot, futuresAsk 101 0] o.2 o.1 := by
  intro inst events
  refine ⟨⟨_, rfl, by decide, ?_⟩, _, rfl, by decide +kernel, ?_⟩
  · refine (runs_exact inst 10).1 _ events _ ?_ rfl
    exact ⟨Or.inl (by decide), trivial, Or.inl (by decide), trivial, trivial⟩
  · refine (runs_exact inst 10).2 _ events _ ?_ rfl
    exact ⟨Or.inl (by decide), trivial, Or.inl (by decide), trivial, trivial⟩

/-! ## One message too many -/

/-- A snapshot, an update that takes its level away, and a queue full of later updates. -/
def burstFeed : List SpotMsg :=
  spotBid "snapshot" 100 1 :: spotBid "update" 100 0 ::
    List.replicate queueSize (spotBid "update" 99 2)

/-- The stream has read the snapshot when the rest of the feed comes in one burst: the level
that the dropped update took away is still in the next frame. -/
theorem burst_folded_over_loss :
    let inst : Instrument := ⟨"BTC-USD", .spot, "USD"⟩
    let events : List DropQueue.Event :=
      [.deliver, .take] ++ (List.replicate (queueSize + 1) .deliver ++ [.take])
    ∃ s, run (spotStep inst 10 burstFeed) subscribed events = some s ∧
      ∃ frame, (frame, 2) ∈ s.out ∧ frame.1.bids = [(100, 1), (99, 2)] ∧
        ¬ Exact spotReading 10 burstFeed 2 frame := by
  intro inst events
  have hlen : burstFeed.length = queueSize + 2 := by
    unfold burstFeed
    rw [List.length_cons, List.length_cons, List.length_replicate]
  have hthird : burstFeed[2]? = some (spotBid "update" 99 2) := by
    unfold burstFeed
    rw [List.getElem?_cons_succ, List.getElem?_cons_succ, List.getElem?_replicate,
      if_pos (by decide)]
  -- the snapshot is read, and then the queue overflows by one
  obtain ⟨s₁, hs₁, hsent, hqueue, hconsumer⟩ :
      ∃ s₁, run (spotStep inst 10 burstFeed) subscribed [.deliver, .take] = some s₁ ∧
        s₁.sent = 1 ∧ s₁.queue = [] ∧ s₁.consumer =
          some ⟨⟨Levels.Side.put id ∅ (100, 1), ∅⟩, true⟩ := ⟨_, rfl, rfl, rfl, rfl⟩
  have hburst := run_burst queueSize (onSpotMessage inst 10) burstFeed (by decide)
    (queueSize + 1) (show s₁.sent + (queueSize + 1) ≤ burstFeed.length by rw [hlen, hsent]; omega)
    (show 1 ≤ s₁.sent by omega) (by rw [hsent]; decide) (by rw [hqueue, hsent]; rfl)
  rw [hsent, show max 1 (1 + (queueSize + 1) - queueSize) = 2 by decide,
    piece_cons hthird (by decide)] at hburst
  have hrun : run (spotStep inst 10 burstFeed) subscribed events = some
      { s₁ with
        sent := 1 + (queueSize + 1)
        queue := piece burstFeed 3 (1 + (queueSize + 1))
        consumer := some ⟨⟨Levels.Side.put id (Levels.Side.put id ∅ (100, 1)) (99, 2), ∅⟩, true⟩
        out := s₁.out ++ [((orderbookFrame inst 10
          ⟨Levels.Side.put id (Levels.Side.put id ∅ (100, 1)) (99, 2), ∅⟩ 1700000000000, 1), 2)] } := by
    rw [run_append, hs₁, Option.bind_some, run_append]
    rw [show run (spotStep inst 10 burstFeed) s₁ (List.replicate (queueSize + 1) .deliver) = _
      from hburst, Option.bind_some, run_cons]
    exact ⟨_, step_take rfl hconsumer, rfl⟩
  refine ⟨_, hrun, _, List.mem_append_right _ List.mem_cons_self, by decide, ?_⟩
  -- the only snapshot is the first message, and the fold from it has no bid at 100
  rintro ⟨j, snap, m, hj, hsnap, hissnap, hm, b, hb, hshows⟩
  obtain rfl : m = spotBid "update" 99 2 := Option.some.inj (hm.symm.trans hthird)
  have hzero : j = 0 := by
    by_contra hne
    rcases (by omega : j = 1 ∨ j = 2) with rfl | rfl
    · obtain rfl : snap = spotBid "update" 100 0 := (Option.some.inj hsnap).symm
      exact absurd hissnap (by decide)
    · obtain rfl : snap = spotBid "update" 99 2 := Option.some.inj (hsnap.symm.trans hthird)
      exact absurd hissnap (by decide)
  subst hzero
  have hbid : b.bids 100 = 0 := by
    rw [← Option.some.inj hb]
    decide +kernel
  exact (hshows.bids.genuine (100, 1) (by decide)).1 hbid

end Kraken
end ExchangeRouter
