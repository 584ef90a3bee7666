import ExchangeRouter.Lib.Dict
import ExchangeRouter.Lib.Transition
import ExchangeRouter.MakeRequest
import ExchangeRouter.PagedReads
import Mathlib.Algebra.Order.Field.Rat
import Mathlib.Data.List.DropRight

/-!
# The throttle of Kraken

Any number of `_await_throttle` and `_set_backoff` calls of one adapter. Nothing is awaited while
the lock is held, so a round of `_await_throttle`, up to its return or its sleep, is one event,
and so is a `_set_backoff`. Times are numbers of seconds; `Retry-After` may put `_backoff_until`
at infinity. `grants` records which call returned when, and the deadlines it returned under.
-/

namespace ExchangeRouter
namespace KrakenThrottle

open Transition MakeRequest

/-! ## Requests -/

/-- What `_await_throttle` is called with. -/
structure Request where
  url : String
  params : Option (List (String × Param)) := none
deriving DecidableEq, Repr

/-- `spot_rest_url`. -/
def spotRestUrl : String := "https://api.kraken.com/0/public"

/-- `_pair_endpoint`. -/
def pairEndpoint (url : String) : Option String :=
  if spotRestUrl.toList <+: url.toList ∧
      ("/OHLC".toList <:+ url.toList ∨ "/Trades".toList <:+ url.toList) then
    some (String.ofList (url.toList.rtakeWhile fun c => decide (c ≠ '/')))
  else none

/-- `str(pair)` of a pair that is true. -/
def pairText : Param → Option String
  | .int n => if n = 0 then none else some (toString n)
  | .text s => if s = "" then none else some s

/-- The key in `_last_pair_call_at`, of a request that has one. -/
def pairKey (r : Request) : Option (String × String) :=
  (pairEndpoint r.url).bind fun endpoint =>
    (r.params.bind fun params => (params.lookup "pair").bind pairText).map fun pair =>
      (endpoint, pair)

/-! ## The adapter -/

/-- A call of `_await_throttle`: asleep until a time, returned, or cancelled in its sleep. -/
inductive Caller where
  | asleep (request : Request) (wake : WithTop ℚ)
  | returned
  | cancelled
deriving DecidableEq

/-- A call that returned, with the deadlines as they stood. -/
structure Grant where
  caller : ℕ
  request : Request
  time : ℚ
  backoffUntil : WithTop ℚ
  slowdownUntil : ℚ
deriving DecidableEq

/-- The throttle's fields and its callers. No code reads `grants`. -/
structure State where
  now : ℚ
  backoffUntil : WithTop ℚ := 0
  slowdownUntil : ℚ := 0
  extraIntervalMs : ℚ := 0
  lastRequestAt : ℚ := 0
  lastPairCallAt : AList fun _ : String × String => ℚ := ∅
  callers : List Caller := []
  grants : List Grant := []
deriving DecidableEq

/-- `_base_interval_ms`. -/
def baseIntervalMs : ℚ := 200

/-- `_pair_interval_ms`. -/
def pairIntervalMs : ℚ := 1100

/-! ## A round of `_await_throttle` -/

/-- What is missing to `interval` seconds after `last`, where there is a `last`. -/
def State.missing (s : State) (last interval : ℚ) : List (WithTop ℚ) :=
  if 0 < last ∧ s.now - last < interval then [((interval - (s.now - last) : ℚ) : WithTop ℚ)] else []

/-- `global_interval_ms`. -/
def State.globalIntervalMs (s : State) : ℚ :=
  if s.now < s.slowdownUntil then baseIntervalMs + s.extraIntervalMs else baseIntervalMs

/-- `delays`. -/
def State.delays (s : State) (r : Request) : List (WithTop ℚ) :=
  (if (s.now : WithTop ℚ) < s.backoffUntil then [remaining s.backoffUntil s.now] else []) ++
    s.missing s.lastRequestAt (s.globalIntervalMs / 1000) ++
    match pairKey r with
    | none => []
    | some key => s.missing ((s.lastPairCallAt.lookup key).getD 0) (pairIntervalMs / 1000)

/-- `wait`. -/
def State.wait (s : State) (r : Request) : WithTop ℚ := ((s.delays r).max?).getD 0

/-- The return of call `i`. -/
def State.grant (s : State) (i : ℕ) (r : Request) : State :=
  { s with
    lastRequestAt := s.now
    lastPairCallAt :=
      match pairKey r with
      | none => s.lastPairCallAt
      | some key => s.lastPairCallAt.insert key s.now
    callers := s.callers.set i .returned
    grants := s.grants ++ [⟨i, r, s.now, s.backoffUntil, s.slowdownUntil⟩] }

/-- A round of call `i`. A `jitter` is what `random.uniform(0.01, 0.1)` returns. -/
def State.round (s : State) (i : ℕ) (r : Request) (jitter : ℚ) : State :=
  if s.wait r ≤ 0 then s.grant i r
  else
    { s with
      callers := s.callers.set i (.asleep r (((s.now + jitter : ℚ) : WithTop ℚ) + s.wait r)) }

/-! ## `_set_backoff` -/

/-- `retry_until and retry_until > now`, and the time until then. -/
def retryWait (now : ℚ) : Option PyFloat → Option (WithTop ℚ)
  | some (.finite t) => if t ≠ 0 ∧ now < t then some ((t - now : ℚ) : WithTop ℚ) else none
  | some .inf => some ⊤
  | _ => none

/-- The exponential wait, where `random.random()` returns `random`. -/
def attemptWait (attempt : ℕ) (random : ℚ) : WithTop ℚ :=
  ((min 60 (2 ^ attempt) * (1 / 2 + random) : ℚ) : WithTop ℚ)

/-- `_set_backoff`. -/
def State.setBackoff (s : State) (attempt : ℕ) (retryUntil : Option PyFloat) (strong : Bool)
    (random : ℚ) : State :=
  let wait := (retryWait s.now retryUntil).getD (attemptWait attempt random)
  let s := { s with backoffUntil := max s.backoffUntil ((s.now : WithTop ℚ) + wait) }
  if strong then
    { s with
      slowdownUntil := max s.slowdownUntil (s.now + 60)
      extraIntervalMs := max s.extraIntervalMs 1000 }
  else s

/-! ## Runs -/

/-- The clock goes on, a call begins, wakes or is cancelled, or a refused request backs off. -/
inductive Event where
  | tick (t : ℚ)
  | awaitThrottle (r : Request) (jitter : ℚ)
  | wake (i : ℕ) (jitter : ℚ)
  | setBackoff (attempt : ℕ) (retryUntil : Option PyFloat) (strong : Bool) (random : ℚ)
  | cancel (i : ℕ)
deriving DecidableEq, Repr

/-- `random.uniform(0.01, 0.1)`. -/
def isJitter (jitter : ℚ) : Bool := decide (1 / 100 ≤ jitter ∧ jitter ≤ 1 / 10)

/-- A step of the throttle, `none` where the event cannot happen. -/
def step (s : State) : Event → Option State
  | .tick t => if s.now ≤ t then some { s with now := t } else none
  | .awaitThrottle r jitter =>
    if isJitter jitter then
      some (State.round { s with callers := s.callers ++ [.cancelled] } s.callers.length r jitter)
    else none
  | .wake i jitter =>
    match s.callers[i]? with
    | some (.asleep r wake) =>
      if wake ≤ (s.now : WithTop ℚ) ∧ isJitter jitter then some (s.round i r jitter) else none
    | _ => none
  | .setBackoff attempt retryUntil strong random =>
    if 0 ≤ random ∧ random < 1 then some (s.setBackoff attempt retryUntil strong random) else none
  | .cancel i =>
    match s.callers[i]? with
    | some (.asleep _ _) => some { s with callers := s.callers.set i .cancelled }
    | _ => none

end KrakenThrottle
end ExchangeRouter
