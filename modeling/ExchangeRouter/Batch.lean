import ExchangeRouter.Errors
import ExchangeRouter.Lib.Dict
import ExchangeRouter.Lib.Transition

/-!
# `fetch_many` and its `BatchResult`

The calls of a batch wait for a semaphore, run, and end in any order; what `gather` returns is in
the order of the symbols. It is folded into three dictionaries under the symbols. The order of a
dictionary is not kept.
-/

namespace ExchangeRouter
namespace Batch

/-! ## The calls -/

/-- How `one(symbol)` ends: with a frame, or with what the method raised. -/
inductive Outcome (φ ε : Type) where
  | frame (df : φ)
  | raised (error : ε)

/-- Where `one(symbol)` stands: at the semaphore, past it, or over. -/
inductive Call (φ ε : Type) where
  | waiting
  | running
  | done (outcome : Outcome φ ε)

/-- The calls of a batch in the order of the symbols, each under its own. -/
abbrev Calls (φ ε : Type) := List (String × Call φ ε)

/-- What happens to the calls of a batch. -/
inductive Event (φ ε : Type) where
  /-- A call is past `async with semaphore`. -/
  | enter (i : ℕ)
  /-- A call ends, and gives the semaphore back. -/
  | finish (i : ℕ) (outcome : Outcome φ ε)

section

variable {φ ε : Type}

/-- `[one(s) for s in symbols]`. -/
def start (symbols : List String) : Calls φ ε := symbols.map fun s => (s, .waiting)

/-- The call holds the semaphore. -/
def Call.isRunning : Call φ ε → Bool
  | running => true
  | _ => false

/-- The calls that hold the semaphore. -/
def running (calls : Calls φ ε) : ℕ := calls.countP fun c => c.2.isRunning

/-- One step of a batch, `none` where it cannot be made. -/
def step (maxConcurrent : ℕ) (calls : Calls φ ε) : Event φ ε → Option (Calls φ ε)
  | .enter i =>
    match calls[i]? with
    | some (symbol, .waiting) =>
      if running calls < maxConcurrent then some (calls.set i (symbol, .running)) else none
    | _ => none
  | .finish i outcome =>
    match calls[i]? with
    | some (symbol, .running) => some (calls.set i (symbol, .done outcome))
    | _ => none

/-- What a call returned under its symbol, `none` where it has not. -/
def returned : String × Call φ ε → Option (String × Outcome φ ε)
  | (symbol, .done outcome) => some (symbol, outcome)
  | _ => none

/-- What `asyncio.gather` returns, `none` while a call is not done. -/
def gathered (calls : Calls φ ε) : Option (List (String × Outcome φ ε)) := calls.mapM returned

end

/-! ## The result -/

/-- `BatchResult`. -/
structure BatchResult (φ ε : Type) where
  ok : AList fun _ : String => φ
  degraded : AList fun _ : String => φ × List String
  failed : AList fun _ : String => ε
  requested : ℕ

namespace BatchResult

variable {φ ε : Type} (r : BatchResult φ ε)

/-- `data()`. -/
def data : AList fun _ : String => φ :=
  r.degraded.entries.foldl (fun merged e => merged.insert e.1 e.2.1) r.ok

/-- `summary()`. -/
def summary : String :=
  s!"{r.requested} requested: {r.ok.keys.length} ok, {r.degraded.keys.length} degraded, {r.failed.keys.length} failed"

/-- The loop over what was gathered, one pass of it. `warnings` is
`list(df.attrs.get("warnings", []))`. -/
def add (warnings : φ → List String) (r : BatchResult φ ε) :
    String × Outcome φ ε → BatchResult φ ε
  | (symbol, .raised error) => { r with failed := r.failed.insert symbol error }
  | (symbol, .frame df) =>
    let messages := warnings df
    if messages ≠ [] then { r with degraded := r.degraded.insert symbol (df, messages) }
    else { r with ok := r.ok.insert symbol df }

end BatchResult

section

variable {φ ε : Type}

/-- The result of a batch of symbols. -/
def collect (warnings : φ → List String) (symbols : List String)
    (gathered : List (String × Outcome φ ε)) : BatchResult φ ε :=
  gathered.foldl (BatchResult.add warnings) ⟨∅, ∅, ∅, symbols.length⟩

/-- `SERIES_ROUTES`. -/
def seriesRoutes : List String :=
  ["candles", "trades", "agg_trades", "funding_rate", "open_interest", "liquidations",
    "long_short_ratio"]

/-- What `fetch_many` raises for a route that it does not take. -/
def notSeries (route : String) : RouterError :=
  let routes := ", ".intercalate seriesRoutes
  ⟨.badRequest, s!"route '{route}' is not a series route; fetch_many takes one of {routes}",
    some 400, none⟩

/-- `fetch_many` once its calls are where they are, `none` while it still waits.
`ensureCapabilities` is how `_ensure_capabilities` ended. -/
def fetchMany (warnings : φ → List String) (route : String)
    (ensureCapabilities : Except RouterError Unit) (symbols : List String) (calls : Calls φ ε) :
    Option (Except RouterError (BatchResult φ ε)) :=
  if route ∉ seriesRoutes then some (.error (notSeries route))
  else
    match ensureCapabilities with
    | .error e => some (.error e)
    | .ok _ => (gathered calls).map fun g => .ok (collect warnings symbols g)

end

end Batch
end ExchangeRouter
