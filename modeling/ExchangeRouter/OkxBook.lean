import ExchangeRouter.Errors
import ExchangeRouter.FoldedBook

/-!
# The order book stream of OKX

One stream over three channels, chosen by the depth: `bbo-tbt` and `books5` send the whole
book of the channel each time, `books` sends it once and updates afterwards. The entries of
a message's `data` are folded one after the other, each with the `action` of the message,
so the two loops of the stream are one loop over `pushes`.
-/

namespace ExchangeRouter
namespace Okx

/-- An entry of `data`. A level's first two fields are its price and its quantity. -/
structure Entry where
  seqId : Option ℤ
  prevSeqId : Option ℤ
  bids : List RawLevel
  asks : List RawLevel
  ts : Option ℤ
deriving DecidableEq, Repr

/-- A message of a book channel. -/
structure BookMsg where
  action : Option String
  data : List Entry
deriving DecidableEq, Repr

/-- An entry with the action of its message. -/
structure Push where
  action : Option String
  entry : Entry
deriving DecidableEq, Repr

/-- The entries of the messages, in order. -/
def pushes (msgs : List BookMsg) : List Push :=
  msgs.flatMap fun m => m.data.map fun b => ⟨m.action, b⟩

/-- The channel for a depth. -/
def channel (depth : ℕ) : String :=
  if depth ≤ 1 then "bbo-tbt" else if depth ≤ 5 then "books5" else "books"

/-- `channel != "books" or action != "update"`: the entry is the whole book. -/
def Push.isFull (channel : String) (p : Push) : Bool :=
  decide (channel ≠ "books") || decide (p.action ≠ some "update")

/-- What the entry says about the book. -/
def Push.update (channel : String) (p : Push) : BookUpdate :=
  ⟨p.isFull channel, p.entry.bids, p.entry.asks⟩

/-- `last_seq is not None and prev is not None and prev != last_seq`. -/
def gap : Option ℤ → Option ℤ → Bool
  | some lastSeq, some prev => decide (prev ≠ lastSeq)
  | _, _ => false

/-- What the stream knows about the symbol before the first message. -/
structure Instrument where
  modelSym : String
  marketType : MarketType
  quote : String
  /-- `_multiplier_for`, read on linear markets only. -/
  multiplier : Option ℚ

/-- `qty_mult`; `none` where the stream raises before it subscribes. -/
def Instrument.qtyMult (inst : Instrument) : Option ℚ :=
  match inst.marketType with
  | .linear => inst.multiplier
  | .inverse => some 1
  | .spot => some 1

/-- The entries as the stream reads them. -/
def reader (channel : String) (qtyMult : ℚ) : BookReader Push where
  update := Push.update channel
  seq := fun p => p.entry.seqId
  gap := fun lastSeq p => gap lastSeq p.entry.prevSeqId
  scale := fun q => q * qtyMult

/-- The `OrderBook` of an entry. -/
def orderbookFrame (inst : Instrument) (depth : ℕ) (book : Sides) (p : Push) :
    Option (List OrderBook) :=
  (normalizeTimestamp p.entry.ts).map fun ts =>
    [{ symbol := inst.modelSym
       marketType := inst.marketType
       quote := inst.quote
       bids := (book.top depth).1
       asks := (book.top depth).2
       qtyUnit := inst.marketType.qtyUnit
       timestamp := ts }]

/-- `stream_orderbook`, on the entries that reach its queue. -/
def streamOrderbook {ι : Type*} (inst : Instrument) (depth : ℕ) (entries : List (Push × ι)) :
    Except Fault (List (OrderBook × ι)) :=
  match inst.qtyMult with
  | none => .error (.valueError
      s!"Contract multiplier unavailable for {inst.modelSym} on OKX linear")
  | some qtyMult => .ok (Generator.yields
      (onMessage (reader (channel depth) qtyMult) (orderbookFrame inst depth)) {} entries)

end Okx
end ExchangeRouter
