import ExchangeRouter.FoldedBook

/-!
# The book streams of Bybit

`stream_orderbook` and `stream_book_ticker` fold the same messages in the same way and
differ in the frame they make of the book.
-/

namespace ExchangeRouter
namespace Bybit

/-- A message of an `orderbook` topic, as the streams read it: `data.u`, `data.s`, `data.b`,
`data.a` and the message's `ts`. -/
structure BookMsg where
  type : String
  u : Option ℤ
  s : Option String
  b : List RawLevel
  a : List RawLevel
  ts : Option ℤ
deriving DecidableEq, Repr

/-- `msg["type"] == "snapshot"`. -/
def BookMsg.isSnapshot (m : BookMsg) : Bool := decide (m.type = "snapshot")

/-- What the message says about the book. -/
def BookMsg.update (m : BookMsg) : BookUpdate := ⟨m.isSnapshot, m.b, m.a⟩

/-- What the streams know about the symbol before the first message. -/
structure Instrument where
  apiSymbol : String
  marketType : MarketType
  quote : String
  contractSize : Option ℚ
  /-- `get_model_symbol` on the market. -/
  modelSymbol : String → String

/-- `last_u is not None and u is not None and u != last_u + 1`. -/
def gap : Option ℤ → Option ℤ → Bool
  | some lastU, some u => decide (u ≠ lastU + 1)
  | _, _ => false

/-- The messages as both streams read them. -/
def reader : BookReader BookMsg where
  update := BookMsg.update
  seq := BookMsg.u
  gap := fun lastU m => gap lastU m.u
  scale := id

/-- The `OrderBook` of a message. -/
def orderbookFrame (inst : Instrument) (depth : ℕ) (book : Sides) (m : BookMsg) :
    Option (List OrderBook) :=
  (normalizeTimestamp m.ts).map fun ts =>
    [{ symbol := inst.modelSymbol (m.s.getD inst.apiSymbol)
       marketType := inst.marketType
       quote := inst.quote
       bids := (book.top depth).1
       asks := (book.top depth).2
       qtyUnit := inst.marketType.qtyUnit
       timestamp := ts }]

/-- The `BookTicker` of a message, none while a side is empty. -/
def bookTickerFrame (inst : Instrument) (book : Sides) (m : BookMsg) :
    Option (List BookTicker) :=
  match book.bids.highest, book.asks.lowest with
  | some (bidPrice, bid), some (askPrice, ask) =>
    (buildQtyValue bid inst.marketType.qtyUnit inst.contractSize bidPrice).bind fun bidQty =>
      (buildQtyValue ask inst.marketType.qtyUnit inst.contractSize askPrice).bind fun askQty =>
        (normalizeTimestamp m.ts).map fun ts =>
          [{ symbol := inst.modelSymbol (m.s.getD inst.apiSymbol)
             marketType := inst.marketType
             quote := inst.quote
             bidPrice := bidPrice
             bidQty := bidQty
             askPrice := askPrice
             askQty := askQty
             timestamp := ts }]
  | _, _ => some []

section

variable {ι : Type*}

/-- `stream_orderbook`, on the messages that reach its queue. -/
def streamOrderbook (inst : Instrument) (depth : ℕ) (msgs : List (BookMsg × ι)) :
    List (OrderBook × ι) :=
  Generator.yields (onMessage reader (orderbookFrame inst depth)) {} msgs

/-- `stream_book_ticker`. -/
def streamBookTicker (inst : Instrument) (msgs : List (BookMsg × ι)) :
    List (BookTicker × ι) :=
  Generator.yields (onMessage reader (bookTickerFrame inst)) {} msgs

end

end Bybit
end ExchangeRouter
