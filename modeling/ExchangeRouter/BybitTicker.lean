import ExchangeRouter.BybitBook
import ExchangeRouter.HubRoutes
import ExchangeRouter.Lib.Generator

/-!
# The ticker stream of Bybit

`stream_ticker` carries a dictionary: a snapshot replaces it, any other message updates it, and a
`Ticker` is made of it. All of this is one `try` block, so a message is skipped that cannot be
folded in, and one that was folded in and leaves a dictionary no `Ticker` can be made of.

Floats are rationals here, or one of the three others. A key of the dictionary that is no text is
left out, since nothing looks it up.
-/

namespace ExchangeRouter
namespace BybitTicker

open Bybit (Instrument)
open HubRoutes (get hashable orElse)
open MakeRequest (Json PyFloat)

/-! ## Values -/

/-- What is raised in the `try` block: `malformed` is a `ValueError`, a `TypeError`, a `KeyError`,
an `IndexError` or an `AttributeError`. -/
inductive Raised where
  | malformed
  | other
deriving DecidableEq, Repr

/-- `float()` of a text, and the milliseconds of a time that `datetime.fromisoformat` reads. -/
structure Texts where
  float : String → Option PyFloat
  isoMs : String → Except Raised ℤ

/-- `float(value)`. -/
def float (texts : Texts) : Json → Except Raised PyFloat
  | .str s =>
    match texts.float s with
    | some x => .ok x
    | none => .error .malformed
  | .num q => .ok (.finite q)
  | .bool b => .ok (.finite (if b then 1 else 0))
  | _ => .error .malformed

/-- The sign of a float that is no NaN. -/
def sign : PyFloat → ℤ
  | .finite q => if 0 < q then 1 else if q < 0 then -1 else 0
  | .inf => 1
  | .negInf => -1
  | .nan => 0

/-- `a * b`. -/
def product : PyFloat → PyFloat → PyFloat
  | .finite a, .finite b => .finite (a * b)
  | .nan, _ => .nan
  | _, .nan => .nan
  | a, b =>
    if 0 < sign a * sign b then .inf
    else if sign a * sign b < 0 then .negInf
    else .nan

/-- `int(q)`. -/
def trunc (q : ℚ) : ℤ := if 0 ≤ q then q.floor else q.ceil

/-- `normalize_timestamp` of a float. An infinity has no `int()`: that is an `OverflowError`. -/
def stamp : PyFloat → Except Raised ℤ
  | .finite q => .ok (if q < 100000000000 then trunc (q * 1000) else trunc q)
  | .nan => .error .malformed
  | .inf => .error .other
  | .negInf => .error .other

/-- `normalize_timestamp`. -/
def normalizeTimestamp (texts : Texts) : Json → Except Raised ℤ
  | .str s =>
    match texts.float s with
    | some x => stamp x
    | none => texts.isoMs s
  | .num q => stamp (.finite q)
  | .bool b => stamp (.finite (if b then 1 else 0))
  | _ => .error .malformed

/-! ## The dictionary -/

/-- A dictionary, by what it has under each key. -/
abbrev Dict := String → Option Json

/-- `d[key] = value`. -/
def setItem (d : Dict) : Json → Json → Dict
  | .str key, value => Function.update d key (some value)
  | _, _ => d

/-- An item that is read as a key and its value: a sequence of two. -/
def pairOf : Json → Option (Json × Json)
  | .arr [key, value] => some (key, value)
  | .obj [(key, _), (value, _)] => some (.str key, .str value)
  | .str s =>
    match s.toList with
    | [key, value] => some (.str (String.singleton key), .str (String.singleton value))
    | _ => none
  | _ => none

/-- `update` from the items of a list, and whether it came to their end: those before the one
that raises are in. -/
def updatePairs (d : Dict) : List Json → Dict × Bool
  | [] => (d, true)
  | item :: rest =>
    match pairOf item with
    | none => (d, false)
    | some (key, value) =>
      if hashable key then updatePairs (setItem d key value) rest else (d, false)

/-- `d.update(value)`, and whether it raised nothing. A text that is not empty raises at its
first letter, which is no pair. -/
def update (d : Dict) : Json → Dict × Bool
  | .obj fields => (fields.foldl (fun d f => setItem d (.str f.1) f.2) d, true)
  | .arr items => updatePairs d items
  | _ => (d, false)

/-! ## The stream -/

/-- A message, and the time at which it is read. -/
structure Message where
  fields : List (String × Json)
  now : ℚ

/-- The local variables. -/
structure State where
  state : Dict := fun _ => none
  bootstrapped : Bool := false

/-- `VolumeValue`. -/
structure VolumeValue where
  native : PyFloat
  unit : QtyUnit
  contractSize : Option ℚ
  usd : PyFloat
deriving DecidableEq, Repr

/-- `Ticker`. -/
structure Ticker where
  symbol : String
  marketType : MarketType
  quote : String
  price : PyFloat
  open24h : PyFloat
  high24h : PyFloat
  low24h : PyFloat
  volume24h : VolumeValue
  priceChangePercent : PyFloat
  timestamp : ℤ
deriving DecidableEq, Repr

/-- `build_volume_value`. -/
def buildVolumeValue (native : PyFloat) (unit : QtyUnit) (contractSize : Option ℚ)
    (close : PyFloat) : Except Raised VolumeValue :=
  match unit, contractSize with
  | .contract, none => .error .malformed
  | .contract, some size => .ok ⟨native, .contract, some size, product native (.finite size)⟩
  | .base, _ => .ok ⟨native, .base, none, product native close⟩

/-- `msg.get("data") or {}`. -/
def Message.data (m : Message) : Json := orElse (get m.fields "data") (.obj [])

/-- `msg.get("type") == "snapshot"`. -/
def Message.isSnapshot (m : Message) : Bool := (get m.fields "type").isStr "snapshot"

/-- `msg.get("ts", time.time())`. -/
def Message.ts (m : Message) : Json :=
  if HubRoutes.hasKey m.fields "ts" then get m.fields "ts" else .num m.now

/-- The state after a message was folded in, and whether that raised nothing. A snapshot is
copied before it is assigned. -/
def merge (s : State) (m : Message) : State × Bool :=
  if m.isSnapshot then
    match update (fun _ => none) m.data with
    | (state, true) => (⟨state, true⟩, true)
    | (_, false) => (s, false)
  else
    let out := update s.state m.data
    ({ s with state := out.1 }, out.2)

section

variable (inst : Instrument) (texts : Texts)

/-- `float(state.get(key) or 0)`. -/
def number (state : Dict) (key : String) : Except Raised PyFloat :=
  float texts (orElse ((state key).getD .null) (.num 0))

/-- `get_model_symbol(state.get("symbol", api_symbol))`: only a text has an `upper`. -/
def symbolOf (state : Dict) : Except Raised String :=
  match (state "symbol").getD (.str inst.apiSymbol) with
  | .str s => .ok (inst.modelSymbol s)
  | _ => .error .malformed

/-- The `Ticker` of the dictionary. -/
def buildTicker (state : Dict) (ts : Json) : Except Raised Ticker := do
  let closePrice ← number texts state "lastPrice"
  let symbol ← symbolOf inst state
  let open24h ← number texts state "prevPrice24h"
  let high24h ← number texts state "highPrice24h"
  let low24h ← number texts state "lowPrice24h"
  let native ← number texts state "volume24h"
  let volume24h ← buildVolumeValue native inst.marketType.qtyUnit inst.contractSize closePrice
  let change ← number texts state "price24hPcnt"
  let timestamp ← normalizeTimestamp texts ts
  return {
    symbol := symbol
    marketType := inst.marketType
    quote := inst.quote
    price := closePrice
    open24h := open24h
    high24h := high24h
    low24h := low24h
    volume24h := volume24h
    priceChangePercent := product change (.finite 100)
    timestamp := timestamp }

/-- The `try` block: the state it leaves, and the `Ticker` it yields, if any, or what it
raises. -/
def tryBlock (s : State) (m : Message) : State × Except Raised (Option Ticker) :=
  match merge s m with
  | (merged, false) => (merged, .error .malformed)
  | (merged, true) =>
    -- deltas ahead of the first snapshot are folded in all the same
    if merged.bootstrapped then (merged, (buildTicker inst texts merged.state m.ts).map some)
    else (merged, .ok none)

/-- The loop body: `except` logs and goes on. -/
def onTicker (s : State) (m : Message) : List Ticker × Option State :=
  match tryBlock inst texts s m with
  | (s', .ok ticker) => (ticker.toList, some s')
  | (s', .error .malformed) => ([], some s')
  | (_, .error .other) => ([], none)

/-- The message is logged as malformed and skipped. -/
def malformed (s : State) (m : Message) : Bool :=
  match (tryBlock inst texts s m).2 with
  | .error .malformed => true
  | _ => false

variable {ι : Type*}

/-- `stream_ticker`, on the messages that reach its queue. -/
def streamTicker (msgs : List (Message × ι)) : List (Ticker × ι) :=
  Generator.yields (onTicker inst texts) {} msgs

/-- The messages without those that the stream skips as malformed. -/
def wellFormed (msgs : List (Message × ι)) : List (Message × ι) :=
  Generator.without (malformed inst texts) (onTicker inst texts) {} msgs

end

end BybitTicker
end ExchangeRouter
