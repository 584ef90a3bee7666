import ExchangeRouter.Klines
import ExchangeRouter.SideCaches

/-!
# The tickers of Hyperliquid

Hyperliquid publishes no range of the day, so `get_ticker` and `stream_ticker` derive one: a
candle snapshot seeds it and the prices that come in widen it. The one keeps it for every coin in
`_hl_cache`, the other in two locals of the generator.

An event is what runs between two awaits, and reads each clock once. A call is taken from its
asset context on, whatever `_ctx_snapshot` has it from, and a call or a stream that is cancelled
has no event any more, or a request that raises.
-/

namespace ExchangeRouter
namespace HyperliquidTicker

open SideCaches (Cell)

/-- `_TICKER_RESEED_S`. -/
def tickerReseed : ℚ := 120

/-- `time.monotonic()` and `time.time()`. -/
structure Clock where
  monotonic : ℚ
  time : ℚ

/-- What `_lookup` returns, and the market it was asked for. -/
structure Market where
  symbol : String
  marketType : MarketType
  coin : String
  quote : String
deriving DecidableEq, Repr

/-! ## The range -/

/-- `high` and `low`, each a number or `None`. -/
structure Range where
  high : Option ℚ
  low : Option ℚ
deriving DecidableEq, Repr

/-- The two `if`s that take a price in. -/
def Range.widen (r : Range) (close : ℚ) : Range where
  high :=
    match r.high with
    | none => some close
    | some high => if high < close then some close else some high
  low :=
    match r.low with
    | none => some close
    | some low => if close < low then some close else some low

/-- A candle of the snapshot: `h` and `l`. -/
structure Row where
  high : Cell
  low : Cell
deriving DecidableEq, Repr

/-- What the request for a snapshot gives. -/
abbrev Reply := Except Fault (List Row)

/-- `_high_low_24h`. -/
def highLow24h (reply : Reply) : Except Fault Range := do
  let rows ← reply
  if rows = [] then return ⟨none, none⟩
  let highs ← rows.mapM fun row => row.high.float
  let lows ← rows.mapM fun row => row.low.float
  return ⟨highs.max?, lows.min?⟩

/-! ## The records -/

/-- The fields of an asset context. -/
structure Ctx where
  midPx : Cell
  markPx : Cell
  prevDayPx : Cell
  dayBaseVlm : Cell
deriving DecidableEq, Repr

/-- `ctx.get("midPx") or ctx.get("markPx")`. -/
def Ctx.px (ctx : Ctx) : Cell := ctx.midPx.orElse ctx.markPx

/-- The price of `get_ticker`. -/
def Ctx.close (ctx : Ctx) (coin : String) : Except Fault ℚ :=
  match ctx.px with
  | .missing => .error (.valueError ("Hyperliquid returned no price for " ++ coin))
  | px => px.float

/-- The price of `stream_ticker`: zero where there is none. -/
def Ctx.closeOrZero (ctx : Ctx) : Except Fault ℚ := (ctx.px.orElse (.num 0)).float

/-- `Ticker`. -/
structure Ticker where
  symbol : String
  marketType : MarketType
  quote : String
  price : ℚ
  open24h : ℚ
  high24h : ℚ
  low24h : ℚ
  volume24h : VolumeValue
  priceChangePercent : ℚ
  timestamp : ℤ
deriving DecidableEq, Repr

/-- The `Ticker` of a context, a price and a range. -/
def buildTicker (m : Market) (ctx : Ctx) (close high low : ℚ) (now : Clock) :
    Except Fault Ticker := do
  let prev ← (ctx.prevDayPx.orElse (.num 0)).float
  let native ← (ctx.dayBaseVlm.orElse (.num 0)).float
  let volume ← buildVolumeValue native .base none close
  return {
    symbol := m.symbol
    marketType := m.marketType
    quote := m.quote
    price := close
    open24h := prev
    high24h := high
    low24h := low
    volume24h := volume
    priceChangePercent := if 0 < prev then (close - prev) / prev * 100 else 0
    timestamp := ⌊now.time * 1000⌋ }

/-- The `Ticker` of a stream. Without a range it is a `ValidationError`. -/
def streamTicker (m : Market) (ctx : Ctx) (close : ℚ) (range : Range) (now : Clock) :
    Except Fault Ticker :=
  match range.high, range.low with
  | some high, some low => buildTicker m ctx close high low now
  | _, _ => .error (.validationError "Input should be a valid number")

/-- The classes of the `except` in `stream_ticker`. -/
def isMalformed : Fault → Bool
  | .other name => name ∈ ["TypeError", "KeyError", "IndexError", "AttributeError"]
  | e => e.isValueError

/-! ## The calls and the streams -/

/-- An entry of `_hl_cache`. -/
structure Entry where
  seeded : ℚ
  range : Range
deriving DecidableEq, Repr

/-- Where `_high_low_24h_cached` stands: at the lock, or at the request with the lock held. -/
inductive CallStage where
  | waiting
  | fetching
  | ended
deriving DecidableEq, Repr

/-- A `get_ticker` call that found no fresh entry. -/
structure Call where
  market : Market
  ctx : Ctx
  close : ℚ
  stage : CallStage
deriving DecidableEq, Repr

/-- Where `stream_ticker` stands: at the snapshot it begins with, at its queue, or at a snapshot
in the middle of a frame. -/
inductive StreamStage where
  | starting
  | reading (range : Range) (reseedAt : ℚ)
  | reseeding (range : Range) (reseedAt : ℚ) (ctx : Ctx) (close : ℚ)
  | ended
deriving DecidableEq, Repr

/-- A `stream_ticker` generator. -/
structure Stream where
  market : Market
  stage : StreamStage
deriving DecidableEq, Repr

/-- The adapter, and every `Ticker` that was returned or yielded. -/
structure State where
  hlCache : String → Option Entry := fun _ => none
  calls : List Call := []
  streams : List Stream := []
  tickers : List Ticker := []

/-- A context reaches `get_ticker`; a call has the lock; its snapshot comes. A stream is opened;
its first snapshot comes; it takes a frame, `none` if no context can be read from it; the
snapshot of a re-seed comes. -/
inductive Event where
  | getTicker (m : Market) (ctx : Ctx) (now : Clock)
  | locked (i : ℕ) (now : Clock)
  | fetched (i : ℕ) (reply : Reply) (now : Clock)
  | openStream (m : Market)
  | seeded (j : ℕ) (reply : Reply) (now : Clock)
  | frame (j : ℕ) (ctx : Option Ctx) (now : Clock)
  | reseeded (j : ℕ) (reply : Reply) (now : Clock)

/-! ## `get_ticker` -/

/-- The entry of the coin, unless it is due for a re-seed. -/
def State.fresh (s : State) (coin : String) (now : Clock) : Option Entry :=
  (s.hlCache coin).filter fun e => decide (now.monotonic - e.seeded < tickerReseed)

/-- The lock of the coin is held: a call under it awaits its snapshot. -/
def State.isLocked (s : State) (coin : String) : Bool :=
  s.calls.any fun c => decide (c.market.coin = coin ∧ c.stage = .fetching)

/-- Call `i` comes to `stage`. -/
def State.setStage (s : State) (i : ℕ) (c : Call) (stage : CallStage) : State :=
  { s with calls := s.calls.set i { c with stage := stage } }

/-- The entry once the price was taken in. -/
def Entry.taken (e : Entry) (close : ℚ) : Entry :=
  if 0 < close then { e with range := e.range.widen close } else e

/-- `get_ticker` from the entry on, and what it returns, if it does. -/
def State.answer (s : State) (m : Market) (ctx : Ctx) (close : ℚ) (e : Entry) (now : Clock) :
    State :=
  let range := (e.taken close).range
  { s with
    hlCache := Function.update s.hlCache m.coin (some (e.taken close))
    tickers := s.tickers ++
      (buildTicker m ctx close (range.high.getD close) (range.low.getD close) now).toOption.toList }

/-- `get_ticker` from its context on. A free lock is taken without an await. -/
def State.getTicker (s : State) (m : Market) (ctx : Ctx) (now : Clock) : State :=
  match ctx.close m.coin with
  | .error _ => s
  | .ok close =>
    match s.fresh m.coin now with
    | some e => s.answer m ctx close e now
    | none =>
      let stage := if s.isLocked m.coin then .waiting else .fetching
      { s with calls := s.calls ++ [⟨m, ctx, close, stage⟩] }

/-- The call under the lock looks again, and asks for the snapshot if it has to. -/
def State.locked (s : State) (i : ℕ) (c : Call) (now : Clock) : State :=
  match s.fresh c.market.coin now with
  | some e => (s.setStage i c .ended).answer c.market c.ctx c.close e now
  | none => s.setStage i c .fetching

/-- The call's snapshot comes. One that raises ends the call and leaves the cache alone. -/
def State.fetched (s : State) (i : ℕ) (c : Call) (reply : Reply) (now : Clock) : State :=
  match highLow24h reply with
  | .error _ => s.setStage i c .ended
  | .ok range =>
    (s.setStage i c .ended).answer c.market c.ctx c.close ⟨now.monotonic, range⟩ now

/-! ## `stream_ticker` -/

/-- Stream `j` comes to `stage`. -/
def State.setStream (s : State) (j : ℕ) (m : Market) (stage : StreamStage) : State :=
  { s with streams := s.streams.set j ⟨m, stage⟩ }

/-- The snapshot that a stream begins with comes. -/
def State.seeded (s : State) (j : ℕ) (m : Market) (reply : Reply) (now : Clock) : State :=
  match highLow24h reply with
  | .error _ => s.setStream j m .ended
  | .ok range => s.setStream j m (.reading range (now.time + tickerReseed))

/-- The end of a frame: its `Ticker`, or what the `except` logs. -/
def State.yieldTicker (s : State) (j : ℕ) (m : Market) (range : Range) (reseedAt : ℚ) (ctx : Ctx)
    (close : ℚ) (now : Clock) : State :=
  { s.setStream j m (.reading range reseedAt) with
    tickers := s.tickers ++ (streamTicker m ctx close range now).toOption.toList }

/-- A frame up to its re-seed, or to its end. -/
def State.frame (s : State) (j : ℕ) (m : Market) (range : Range) (reseedAt : ℚ) (now : Clock) :
    Option Ctx → State
  | none => s
  | some ctx =>
    match ctx.closeOrZero with
    | .error _ => s
    | .ok close =>
      if close ≤ 0 then s
      -- the next re-seed is set before this one is awaited: one that raises is not made up for
      else if reseedAt ≤ now.time then
        s.setStream j m
          (.reseeding (range.widen close) (now.time + tickerReseed) ctx close)
      else s.yieldTicker j m (range.widen close) reseedAt ctx close now

/-- The rest of a frame after its re-seed. -/
def State.reseeded (s : State) (j : ℕ) (m : Market) (range : Range) (reseedAt : ℚ) (ctx : Ctx)
    (close : ℚ) (reply : Reply) (now : Clock) : State :=
  match highLow24h reply with
  -- the `except` is that of the frame, so the frame goes with its re-seed
  | .error e => s.setStream j m (if isMalformed e then .reading range reseedAt else .ended)
  | .ok snapshot =>
    -- `if h2 is not None: high, low = h2, l2`
    let range := if snapshot.high.isSome then snapshot else range
    s.yieldTicker j m range reseedAt ctx close now

/-! ## The step -/

/-- A step of the adapter, `none` where the event cannot happen. -/
def step (s : State) : Event → Option State
  | .getTicker m ctx now => some (s.getTicker m ctx now)
  | .locked i now =>
    match s.calls[i]? with
    | some c =>
      if c.stage = .waiting ∧ s.isLocked c.market.coin = false then some (s.locked i c now)
      else none
    | none => none
  | .fetched i reply now =>
    match s.calls[i]? with
    | some c => if c.stage = .fetching then some (s.fetched i c reply now) else none
    | none => none
  | .openStream m => some { s with streams := s.streams ++ [⟨m, .starting⟩] }
  | .seeded j reply now =>
    match s.streams[j]? with
    | some ⟨m, .starting⟩ => some (s.seeded j m reply now)
    | _ => none
  | .frame j ctx now =>
    match s.streams[j]? with
    | some ⟨m, .reading range reseedAt⟩ => some (s.frame j m range reseedAt now ctx)
    | _ => none
  | .reseeded j reply now =>
    match s.streams[j]? with
    | some ⟨m, .reseeding range reseedAt ctx close⟩ =>
      some (s.reseeded j m range reseedAt ctx close reply now)
    | _ => none

/-! ## What is asked of a run -/

/-- The price lies in the range of the ticker. -/
def Ticker.InRange (t : Ticker) : Prop := t.low24h ≤ t.price ∧ t.price ≤ t.high24h

/-- The context of a `get_ticker` has a positive price, if it has one. -/
def Event.Positive : Event → Prop
  | .getTicker m ctx _ => ∀ close, ctx.close m.coin = .ok close → 0 < close
  | _ => True

/-- The fields of a `Ticker` that `float` is called on besides the price. -/
def Ctx.readable (ctx : Ctx) : Bool := decide (ctx.prevDayPx ≠ .bad ∧ ctx.dayBaseVlm ≠ .bad)

/-- The snapshot of a re-seed, if it has rows, does not leave out the price of the frame that
asked for it, unless no `Ticker` can be made of that frame. -/
def State.Covers (s : State) : Event → Prop
  | .reseeded j reply _ => ∀ m range reseedAt ctx close high low,
      s.streams[j]? = some ⟨m, .reseeding range reseedAt ctx close⟩ → ctx.readable = true →
      highLow24h reply = .ok ⟨some high, some low⟩ → low ≤ close ∧ close ≤ high
  | _ => True

end HyperliquidTicker
end ExchangeRouter
