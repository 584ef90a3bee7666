import ExchangeRouter.Books
import ExchangeRouter.Lib.DropQueue

/-!
# The order book streams of Kraken

Spot and futures messages have different shapes and neither carries an id that the stream
looks at, so the stream folds whatever its queue gives it. The queue is the bounded one of
the hub, and the consumer reads it at its own pace.
-/

namespace ExchangeRouter
namespace Kraken

/-- `queue_size` of the hub. -/
def queueSize : ℕ := 1024

/-- The local variables of both streams. -/
structure BookState where
  book : Sides := {}
  bootstrapped : Bool := false

/-- What the streams know about the symbol before the first message. -/
structure Instrument where
  modelSym : String
  marketType : MarketType
  quote : String

/-- The `OrderBook` both streams make of the dictionaries. -/
def orderbookFrame (inst : Instrument) (depth : ℕ) (book : Sides) (timestamp : ℤ) : OrderBook where
  symbol := inst.modelSym
  marketType := inst.marketType
  quote := inst.quote
  bids := (book.top depth).1
  asks := (book.top depth).2
  qtyUnit := inst.marketType.qtyUnit
  timestamp := timestamp

/-! ## Spot -/

/-- An item of `data`. `timestamp` is what `normalize_timestamp` makes of it, or of the clock
where there is none. -/
structure SpotItem where
  bids : List RawLevel
  asks : List RawLevel
  timestamp : Option ℤ
deriving DecidableEq, Repr

/-- A message of the Spot feed. -/
structure SpotMsg where
  channel : Option String
  type : Option String
  data : List SpotItem
deriving DecidableEq, Repr

/-- A snapshot or an update of the book channel; anything else is skipped. -/
def SpotMsg.isBook (m : SpotMsg) : Bool :=
  decide (m.channel = some "book") && (decide (m.type = some "snapshot") ||
    decide (m.type = some "update"))

/-- `msg.get("type") == "snapshot"`, of a message that is not skipped. -/
def SpotMsg.isSnapshot (m : SpotMsg) : Bool := m.isBook && decide (m.type = some "snapshot")

section

variable (inst : Instrument) (depth : ℕ)

/-- The loop over the items of a message. A frame carries the number of items folded by then. -/
def spotItems (book : Sides) (folded : ℕ) :
    List SpotItem → List (OrderBook × ℕ) × Option Sides
  | [] => ([], some book)
  | item :: rest =>
    match book.applyBoth id item.bids item.asks, item.timestamp with
    | some book, some timestamp =>
      let (frames, next) := spotItems book (folded + 1) rest
      ((orderbookFrame inst depth book timestamp, folded + 1) :: frames, next)
    | _, _ => ([], none)

/-- The loop body of the spot stream. -/
def onSpotMessage (s : BookState) (m : SpotMsg) :
    List (OrderBook × ℕ) × Option BookState :=
  if m.isBook then
    let book := if m.isSnapshot then {} else s.book
    -- an update before the first snapshot is skipped
    if m.isSnapshot || s.bootstrapped then
      let (frames, next) := spotItems inst depth book 0 m.data
      (frames, next.map fun book => ⟨book, true⟩)
    else ([], some s)
  else ([], some s)

end

/-! ## Futures -/

/-- A message of the futures socket. For `price` and `qty` the outer option is whether the
key is there, the inner one whether `float()` reads the value. -/
structure FuturesMsg where
  feed : Option String
  bids : List RawLevel
  asks : List RawLevel
  side : Option String
  price : Option (Option ℚ)
  qty : Option (Option ℚ)
  timestamp : Option ℤ
deriving DecidableEq, Repr

/-- `feed == "book_snapshot"`. -/
def FuturesMsg.isSnapshot (m : FuturesMsg) : Bool := decide (m.feed = some "book_snapshot")

/-- `feed == "book" and "side" in data and "price" in data`. -/
def FuturesMsg.isUpdate (m : FuturesMsg) : Bool :=
  decide (m.feed = some "book") && m.side.isSome && m.price.isSome

/-- The loop over one side of a snapshot, which keeps the positive quantities. -/
def addPositive (d : Levels.Side ℚ ℚ) : List RawLevel → Option (Levels.Side ℚ ℚ)
  | [] => some d
  | (some p, some q) :: rest => addPositive (if 0 < q then d.insert p q else d) rest
  | _ :: _ => none

/-- The dictionaries after a snapshot. -/
def FuturesMsg.snapshot (m : FuturesMsg) : Option Sides :=
  (addPositive ∅ m.bids).bind fun bids => (addPositive ∅ m.asks).map fun asks => ⟨bids, asks⟩

/-- The dictionaries after an update, `none` where `float()` raises and `some none` where the
side is neither. -/
def FuturesMsg.change (m : FuturesMsg) (book : Sides) : Option (Option Sides) :=
  match m.price.getD none, m.qty.getD (some 0) with
  | some p, some q =>
    match (m.side.getD "").toLower with
    | "buy" => some (some { book with bids := Levels.Side.put id book.bids (p, q) })
    | "sell" => some (some { book with asks := Levels.Side.put id book.asks (p, q) })
    | _ => some none
  | _, _ => none

section

variable (inst : Instrument) (depth : ℕ)

/-- The end of the loop body: nothing while a side is empty, and else a frame. -/
def futuresFrame (s : BookState) (m : FuturesMsg) :
    List (OrderBook × ℕ) × Option BookState :=
  if s.book.bids.entries.isEmpty || s.book.asks.entries.isEmpty then ([], some s)
  else
    -- the timestamp is read once both sides have a level
    match m.timestamp with
    | none => ([], none)
    | some timestamp => ([(orderbookFrame inst depth s.book timestamp, 1)], some s)

/-- The loop body of the futures stream. -/
def onFuturesMessage (s : BookState) (m : FuturesMsg) :
    List (OrderBook × ℕ) × Option BookState :=
  if m.isSnapshot then
    match m.snapshot with
    | none => ([], none)
    | some book => futuresFrame inst depth ⟨book, true⟩ m
  else if m.isUpdate then
    if s.bootstrapped then
      match m.change s.book with
      | none => ([], none)
      | some none => ([], some s)
      | some (some book) => futuresFrame inst depth { s with book := book } m
    else ([], some s)
  else ([], some s)

/-! ## The streams behind the hub's queue -/

/-- One step of the hub or of the spot stream. -/
def spotStep (feed : List SpotMsg) :
    DropQueue.Pipe BookState SpotMsg (OrderBook × ℕ) → DropQueue.Event →
      Option (DropQueue.Pipe BookState SpotMsg (OrderBook × ℕ)) :=
  DropQueue.step queueSize (onSpotMessage inst depth) feed

/-- One step of the hub or of the futures stream. -/
def futuresStep (feed : List FuturesMsg) :
    DropQueue.Pipe BookState FuturesMsg (OrderBook × ℕ) → DropQueue.Event →
      Option (DropQueue.Pipe BookState FuturesMsg (OrderBook × ℕ)) :=
  DropQueue.step queueSize (onFuturesMessage inst depth) feed

end

/-- A stream that has just subscribed. -/
def subscribed {μ : Type*} : DropQueue.Pipe BookState μ (OrderBook × ℕ) :=
  { consumer := some {} }

end Kraken
end ExchangeRouter
