import ExchangeRouter.Models
import ExchangeRouter.Lib.Generator
import ExchangeRouter.Lib.Levels
import Mathlib.Algebra.Order.Ring.Unbundled.Rat
import Mathlib.Algebra.Ring.Rat

/-!
# Order books and the messages that change them

`Book` is the venue's book: the quantity at each price of either side. A message of a book
feed is a `BookUpdate`, which may start the book over. The streams of the adapters keep a
book in two dictionaries (`Sides`) and apply the levels of a message to them; prices and
quantities arrive as strings, and one that `float()` does not read raises, which ends the
stream.

`trueBook` is the book a feed describes. It is undefined from a message that cannot be read
up to the next one that starts the book over.
-/

namespace ExchangeRouter

open Levels

/-- A `[price, qty]` pair of a message, each as `float()` reads it, `none` where it raises. -/
abbrev RawLevel := Option ℚ × Option ℚ

/-- What a message says about the book. -/
structure BookUpdate where
  reset : Bool
  bids : List RawLevel
  asks : List RawLevel
deriving DecidableEq, Repr

/-! ## The venue's book -/

/-- The quantity at each price, zero where there is no level. -/
structure Book where
  bids : ℚ → ℚ
  asks : ℚ → ℚ

/-- The book without a level. -/
def Book.empty : Book := ⟨fun _ => 0, fun _ => 0⟩

/-- The levels of a message, when all of them can be read. -/
def readLevels : List RawLevel → Option (List (ℚ × ℚ))
  | [] => some []
  | (some p, some q) :: rest => (readLevels rest).map ((p, q) :: ·)
  | _ :: _ => none

/-- The book after a message. -/
def BookUpdate.apply (u : BookUpdate) (b : Option Book) : Option Book :=
  match readLevels u.bids, readLevels u.asks, if u.reset then some Book.empty else b with
  | some bids, some asks, some b => some ⟨bids.foldl set b.bids, asks.foldl set b.asks⟩
  | _, _, _ => none

/-- The book after some more messages. -/
def applyAll (b : Option Book) (updates : List BookUpdate) : Option Book :=
  updates.foldl (fun b u => u.apply b) b

/-- The book after a list of messages, from the book before them. -/
def trueBook (start : Book) (updates : List BookUpdate) : Option Book :=
  applyAll (some start) updates

lemma applyAll_append (b : Option Book) (us vs : List BookUpdate) :
    applyAll b (us ++ vs) = applyAll (applyAll b us) vs := List.foldl_append

/-- The feed up to its `n`-th message and that message. -/
lemma trueBook_take_succ {start : Book} {updates : List BookUpdate} {n : ℕ} {u : BookUpdate}
    (h : updates[n]? = some u) :
    trueBook start (updates.take (n + 1)) = u.apply (trueBook start (updates.take n)) := by
  rw [List.take_add_one, h]
  exact applyAll_append (some start) (updates.take n) [u]

/-! ## The book of a stream -/

/-- `bids` and `asks`. -/
structure Sides where
  bids : Side ℚ ℚ := ∅
  asks : Side ℚ ℚ := ∅

/-- The loop over the levels of one side; `none` when a level raises. -/
def applyLevels (g : ℚ → ℚ) (d : Side ℚ ℚ) : List RawLevel → Option (Side ℚ ℚ)
  | [] => some d
  | (some p, some q) :: rest => applyLevels g (Side.put g d (p, q)) rest
  | _ :: _ => none

/-- Both loops, over the bids and then over the asks. -/
def Sides.applyBoth (g : ℚ → ℚ) (s : Sides) (bids asks : List RawLevel) : Option Sides :=
  (applyLevels g s.bids bids).bind fun b => (applyLevels g s.asks asks).map fun a => ⟨b, a⟩

/-- The dictionaries hold the book, its quantities scaled by `g`. -/
structure Sides.Hold (g : ℚ → ℚ) (s : Sides) (b : Book) : Prop where
  bids : Represents g s.bids b.bids
  asks : Represents g s.asks b.asks

lemma Sides.hold_empty (g : ℚ → ℚ) : Sides.Hold g {} Book.empty :=
  ⟨represents_empty, represents_empty⟩

/-- The loop reads what the venue sent and updates the dictionary level by level. -/
lemma applyLevels_eq (g : ℚ → ℚ) (d : Side ℚ ℚ) (levels : List RawLevel) :
    applyLevels g d levels = (readLevels levels).map fun ls => ls.foldl (Side.put g) d := by
  induction levels generalizing d with
  | nil => rfl
  | cons level levels ih =>
    obtain ⟨_ | p, _ | q⟩ := level
    -- a price or a quantity that `float()` does not read stops both
    · rfl
    · rfl
    · rfl
    · unfold applyLevels readLevels
      rw [ih, Option.map_map]
      rfl

/-- The dictionaries follow the book: one message, from dictionaries that hold it. -/
theorem Sides.Hold.applyBoth {g : ℚ → ℚ} {s s' : Sides} {b : Book} (h : s.Hold g b)
    {bids asks : List RawLevel} (happly : s.applyBoth g bids asks = some s') :
    ∃ b', (BookUpdate.mk false bids asks).apply (some b) = some b' ∧ s'.Hold g b' := by
  unfold Sides.applyBoth at happly
  rw [applyLevels_eq, applyLevels_eq] at happly
  cases hbids : readLevels bids with
  | none => simp [hbids] at happly
  | some bs =>
    cases hasks : readLevels asks with
    | none => simp [hbids, hasks] at happly
    | some as =>
      simp only [hbids, hasks, Option.map_some, Option.bind_some, Option.some.injEq] at happly
      refine ⟨⟨bs.foldl set b.bids, as.foldl set b.asks⟩, ?_, ?_⟩
      · simp [BookUpdate.apply, hbids, hasks]
      · rw [← happly]
        exact ⟨h.bids.puts bs, h.asks.puts as⟩

/-- A message that starts over is applied to the empty book. -/
lemma BookUpdate.apply_reset (bids asks : List RawLevel) (b : Option Book) :
    (BookUpdate.mk true bids asks).apply b =
      (BookUpdate.mk false bids asks).apply (some Book.empty) := rfl

/-- The dictionaries hold the book of the feed's first `n` messages. -/
def Sides.HoldAt (g : ℚ → ℚ) (start : Book) (updates : List BookUpdate) (n : ℕ) (s : Sides) :
    Prop :=
  ∃ b, trueBook start (updates.take n) = some b ∧ s.Hold g b

/-- The refinement step of every stream: message `i` is applied to dictionaries that hold the
book before it, or to empty ones when it starts over. -/
theorem Sides.HoldAt.succ {g : ℚ → ℚ} {start : Book} {updates : List BookUpdate} {i : ℕ}
    {u : BookUpdate} (hget : updates[i]? = some u) {s s' : Sides}
    (hs : u.reset = true ∨ s.HoldAt g start updates i)
    (happly : (if u.reset then {} else s).applyBoth g u.bids u.asks = some s') :
    s'.HoldAt g start updates (i + 1) := by
  obtain ⟨reset, bids, asks⟩ := u
  unfold Sides.HoldAt
  rw [trueBook_take_succ hget]
  -- a message that starts over needs nothing from the messages before it
  cases reset with
  | true =>
    rw [BookUpdate.apply_reset]
    exact (Sides.hold_empty g).applyBoth happly
  | false =>
    obtain ⟨b, hb, hold⟩ := hs.resolve_left (by simp)
    rw [hb]
    exact hold.applyBoth happly

/-! ## What a stream yields -/

/-- The frame lists the best `depth` levels of the book, quantities scaled by `g`. -/
structure OrderBook.Shows (o : OrderBook) (g : ℚ → ℚ) (depth : ℕ) (b : Book) : Prop where
  bids : TopLevels (· ≥ ·) g b.bids depth o.bids
  asks : TopLevels (· ≤ ·) g b.asks depth o.asks

/-- The frame shows the best level of either side of the book. -/
structure BookTicker.Shows (t : BookTicker) (b : Book) : Prop where
  bid : IsBest (· ≥ ·) id b.bids (t.bidPrice, t.bidQty.native)
  ask : IsBest (· ≤ ·) id b.asks (t.askPrice, t.askQty.native)

/-- Neither quantity is zero. -/
lemma BookTicker.Shows.qty_ne_zero {t : BookTicker} {b : Book} (h : t.Shows b) :
    t.bidQty.native ≠ 0 ∧ t.askQty.native ≠ 0 := by
  constructor
  · rw [show t.bidQty.native = b.bids t.bidPrice from h.bid.genuine.2]
    exact h.bid.genuine.1
  · rw [show t.askQty.native = b.asks t.askPrice from h.ask.genuine.2]
    exact h.ask.genuine.1

namespace OrderBook.Shows

variable {o : OrderBook} {g : ℚ → ℚ} {depth : ℕ} {b : Book}

/-- Bids are strictly descending. -/
lemma bids_descending (h : o.Shows g depth b) : o.bids.Pairwise fun x y => y.1 < x.1 :=
  h.bids.sorted.imp fun hxy => lt_of_le_of_ne hxy.1 (Ne.symm hxy.2)

/-- Asks are strictly ascending. -/
lemma asks_ascending (h : o.Shows g depth b) : o.asks.Pairwise fun x y => x.1 < y.1 :=
  h.asks.sorted.imp fun hxy => lt_of_le_of_ne hxy.1 hxy.2

/-- No quantity is zero, unless the scaling makes it so. -/
lemma qty_ne_zero (h : o.Shows g depth b) (hg : ∀ q, q ≠ 0 → g q ≠ 0) :
    ∀ level ∈ o.bids ++ o.asks, level.2 ≠ 0 := by
  intro level hlevel
  rcases List.mem_append.mp hlevel with hbid | hask
  · exact h.bids.ne_zero hg level hbid
  · exact h.asks.ne_zero hg level hask

end OrderBook.Shows

/-- `sorted(bids.items(), key=lambda kv: -kv[0])[:depth]` and the same of the asks. -/
def Sides.top (s : Sides) (depth : ℕ) : List (ℚ × ℚ) × List (ℚ × ℚ) :=
  (s.bids.top (· ≥ ·) depth, s.asks.top (· ≤ ·) depth)

/-- The sorted and cut dictionaries show the book they hold. -/
lemma Sides.Hold.shows {g : ℚ → ℚ} {s : Sides} {b : Book} (h : s.Hold g b) {depth : ℕ}
    {o : OrderBook} (hbids : o.bids = (s.top depth).1) (hasks : o.asks = (s.top depth).2) :
    o.Shows g depth b := by
  constructor
  · rw [hbids]
    exact h.bids.topLevels (· ≥ ·) depth
  · rw [hasks]
    exact h.asks.topLevels (· ≤ ·) depth

end ExchangeRouter
