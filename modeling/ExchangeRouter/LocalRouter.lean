import ExchangeRouter.Backend
import ExchangeRouter.Lib.Effect
import ExchangeRouter.SchemaGate

/-!
# A router in local mode and the adapter registry

`AsyncCore` over `LocalBackend`: `warm`, the reads, the streams and `close`, and the registry
`EXCHANGE_REGISTRY` that they share. In local mode the handshake awaits nothing, so a call runs
through to the await of an adapter's own coroutine; calls are interleaved at those awaits. A call
is kept as the place it waits at. What the adapters answer, and the warnings, are left out.
-/

namespace ExchangeRouter
namespace LocalRouter

open SchemaGate (Method seriesRoutes)

/-! ## Adapters -/

/-- The entries of a route's block that `_preflight` and `validate_interval` read. A missing list
of intervals and an empty one are alike to them. -/
structure Block where
  rest : Option Bool := none
  intervals : List String := []
deriving DecidableEq, Repr

/-- `streams` are the channels that it has a `stream_` method for. -/
structure Adapter where
  name : String
  supportedMarketTypes : List MarketType
  getCapabilities : MarketType → String → Option Block := fun _ _ => none
  streams : List String := []

/-- `EXCHANGE_REGISTRY`, in the order of its keys. -/
abbrev Registry : Type := List Adapter

/-- `EXCHANGE_REGISTRY[adapter.name] = adapter`. -/
def register (registry : Registry) (adapter : Adapter) : Registry :=
  if registry.any (·.name = adapter.name) then
    registry.map fun a => if a.name = adapter.name then adapter else a
  else registry ++ [adapter]

/-- `load_exchanges`, with the adapters that the package's modules build. -/
def loadExchanges (installed : List Adapter) (registry : Registry) : Registry :=
  installed.foldl register registry

/-- `get_adapter`. -/
def getAdapter (registry : Registry) (name : String) : Option Adapter :=
  registry.find? (·.name = name)

/-! ## The router's fields -/

/-- What a call raises. Anything outside the error tree is `other`, by its class. -/
inductive Raised where
  | router (e : RouterError)
  | cancelled
  | other (name : String)
deriving DecidableEq, Repr

/-- `isinstance(error, RouterError)`. -/
def Raised.isRouterError : Raised → Bool
  | router _ => true
  | _ => false

/-- A task is the number of its call. `cancelled` are the tasks that `close` cancelled, and
`completed` says that a `close()` has returned, which no code reads. -/
structure Core where
  registry : Registry
  scope : List String
  capabilities : List (String × (MarketType → String → Option Block)) := []
  warmTask : Option ℕ := none
  closed : Bool := false
  cancelled : List ℕ := []
  completed : Bool := false

/-- What is streamed. -/
structure Subscription where
  exchange : String
  marketType : String
  channel : String
deriving DecidableEq, Repr

/-- Where a call is: a task that was created and has not begun; `warm` in its `gather`, with the
problems so far and the names after this one (`quiet` in `_warm_quietly`); a read in an adapter's
coroutine; a stream that is open, or asleep before it subscribes again; `close` in the shutdown of
an adapter, with the size of the registry that it iterates and how many are left. -/
inductive Stage where
  | scheduled
  | warming (quiet : Bool) (problems : List Raised) (left : List String)
  | reading
  | streaming (sub : Subscription) (reconnect : Bool)
  | pausing (sub : Subscription)
  | closing (size left : ℕ)
  | over (raised : Option Raised)
deriving DecidableEq, Repr

/-- A call from one await to the next. -/
abbrev Sync (α : Type) : Type := Effect Core Raised α

/-- `CLOSED`. -/
def closedText : String :=
  "this router is closed; build another with AsyncRouter.local(exchanges=[...]) or " ++
    "AsyncRouter.service(url, exchanges=[...])"

/-- What a call on a closed router raises. -/
def closedError : Raised := .router ⟨.routerError, closedText, none, none⟩

/-- `_check_open`. -/
def checkOpen : Sync Unit := do
  if (← get).closed then throw closedError

/-! ## The backend -/

section

variable (installed : List Adapter)

/-- `if not EXCHANGE_REGISTRY: load_exchanges()`. -/
def ensureLoaded : Sync Unit :=
  modify fun core =>
    if core.registry = [] then { core with registry := loadExchanges installed core.registry }
    else core

/-- The checks of `_adapter`. -/
def checkAdapter (exchange : String) (marketType : Option MarketType) :
    Option Adapter → Sync Adapter
  | none => throw (.router
      ⟨.notFound, s!"Exchange '{exchange}' not found or not enabled", some 404, none⟩)
  | some adapter =>
    match marketType with
    | none => return adapter
    | some m =>
      if m ∉ adapter.supportedMarketTypes then
        throw (.router ⟨.badRequest, s!"Market type '{m.value}' not supported on {exchange}",
          some 400, none⟩)
      else return adapter

/-- `_adapter`. -/
def adapterOf (exchange : String) (marketType : Option MarketType := none) : Sync Adapter := do
  ensureLoaded installed
  let core ← get
  checkAdapter exchange marketType (getAdapter core.registry exchange)

/-- `_market_type` of a name. -/
def marketTypeOf (marketType : String) : Sync MarketType :=
  match LocalBackend.marketTypeOf marketType with
  | .ok m => return m
  | .error e => throw (.router e)

/-- `INTERVAL_ROUTES`. -/
def intervalRoutes : List String := ["candles", "open_interest", "long_short_ratio"]

/-- `POINT_METHODS`. -/
def pointMethods : List String :=
  ["ticker", "book_ticker", "mark_price", "symbol_info", "margin_tiers"]

/-- `validate_interval`, with the `ValueError` as `fetch` maps it. -/
def validateInterval (adapter : Adapter) (marketType : MarketType) (route label value : String) :
    Sync Unit := do
  let intervals := ((adapter.getCapabilities marketType route).getD {}).intervals
  if intervals ≠ [] ∧ value ∉ intervals then
    throw (.router (errorForFault (.valueError
      s!"{label} '{value}' is not valid for {adapter.name} {marketType.value} {route}")))

/-- The check of an interval that the caller gave, with its label. -/
def checkInterval (adapter : Adapter) (marketType : MarketType) (route : String) :
    Option (String × String) → Sync Unit
  | some (label, value) =>
    if route ∈ intervalRoutes then validateInterval adapter marketType route label value
    else return ()
  | none => return ()

/-- The routes of `_dispatch` that name a market type. -/
def dispatchMarket (route exchange : String) (marketType : MarketType)
    (interval : Option (String × String)) : Sync Stage := do
  let adapter ← adapterOf installed exchange (some marketType)
  if route = "markets" then return .reading
  else do
    checkInterval adapter marketType route interval
    if route ∈ pointMethods ∨ route = "orderbook" ∨ route ∈ seriesRoutes then return .reading
    else
      throw (.router ⟨.notSupported,
        s!"route '{route}' is not served in local mode; it exists on the service only",
        some 501, none⟩)

/-- `_dispatch` without a market type. -/
def dispatch (route exchange : String) : Sync Stage := do
  if route = "status" ∨ route = "version" then return .over none
  else if route = "exchanges" then do
    ensureLoaded installed
    return .over none
  else do
    let _ ← adapterOf installed exchange
    if route = "exchange_status" ∨ route = "overview" then return .reading
    else return .over none

/-- `LocalBackend.fetch`. -/
def backendFetch (route exchange : String) (marketType : Option String)
    (interval : Option (String × String)) : Sync Stage :=
  match marketType with
  | none => dispatch installed route exchange
  | some name => do
    let marketType ← marketTypeOf name
    dispatchMarket installed route exchange marketType interval

/-- What `warm` raises after its loop. -/
def warmResult (problems : List Raised) : Sync Stage :=
  if .cancelled ∈ problems then throw .cancelled
  else
    match problems with
    | problem :: _ => throw problem
    | [] => return .over none

/-- The loop of `LocalBackend.warm`. Its `gather` of nothing does not wait. -/
def warmFrom (quiet : Bool) (problems : List Raised) : List String → Sync Stage
  | [] => warmResult problems
  | name :: left => do
    let adapter ← adapterOf installed name
    if adapter.supportedMarketTypes = [] then warmFrom quiet problems left
    else return .warming quiet problems left

/-- `LocalBackend.stream`, until it is open. -/
def backendStream (sub : Subscription) (reconnect : Bool) : Sync Stage := do
  let marketType ← marketTypeOf sub.marketType
  let adapter ← adapterOf installed sub.exchange (some marketType)
  if sub.channel ∉ adapter.streams then
    throw (.router ⟨.notSupported, s!"channel '{sub.channel}' has no stream here; " ++
      "get_capabilities lists the ones served", some 501, none⟩)
  else return .streaming sub reconnect

end

/-- The end of a `close()`. -/
def complete : Sync Stage := do
  modify fun core => { core with completed := true }
  return .over none

/-- The loop of `shutdown_exchanges`. An iteration over a dictionary whose size has changed
raises. No adapter has a task for `cancel_warm`: `preload` is the service's. -/
def shutdownFrom (size : ℕ) : ℕ → Sync Stage
  | left => do
    let core ← get
    if core.registry.length ≠ size then throw (.other "RuntimeError")
    else
      match left with
      | 0 => do
        modify fun core => { core with registry := [] }
        complete
      | left + 1 => return .closing size left

/-- `close`. -/
def close : Sync Stage := do
  let core ← get
  if core.closed then complete
  else do
    -- a task that is done is not cancelled, and is never resumed either
    modify fun core => { core with
      closed := true
      warmTask := none
      cancelled := core.warmTask.toList ++ core.cancelled }
    shutdownFrom core.registry.length core.registry.length

/-! ## The calls -/

section

variable (installed : List Adapter)

/-- `_ensure_capabilities`. -/
def ensureCapabilities (exchange : String) (quiet : Bool := true) : Sync Unit := do
  checkOpen
  let core ← get
  match core.capabilities.lookup exchange with
  | some _ => return ()
  | none =>
    tryCatch
      (do
        let adapter ← adapterOf installed exchange
        modify fun core =>
          { core with
            capabilities := (exchange, adapter.getCapabilities) :: core.capabilities })
      fun e => if e.isRouterError ∧ quiet then return () else throw e

/-- `_route_block`. -/
def Core.routeBlock (core : Core) (exchange marketType route : String) : Block :=
  ((do (← core.capabilities.lookup exchange) (← MarketType.ofString marketType) route) :
    Option Block).getD {}

/-- `_preflight`; the warning about a depth is left out. -/
def preflight (exchange marketType route : String) (interval : Option (String × String)) :
    Sync Unit := do
  ensureCapabilities installed exchange
  let core ← get
  let block := core.routeBlock exchange marketType route
  if block.rest = some false then
    throw (.router ⟨.notSupported, s!"{route} is not exposed on {exchange}/{marketType}",
      none, none⟩)
  else
    match interval with
    | none => return ()
    | some (label, value) =>
      if block.intervals ≠ [] ∧ value ∉ block.intervals then
        let valid := ", ".intercalate block.intervals
        throw (.router ⟨.badRequest, s!"{label} '{value}' is not valid for " ++
          s!"{exchange} {marketType} {route}. valid: {valid}", none, none⟩)
      else return ()

/-- `_fetch`. -/
def fetch (route : String) (exchange : String := "None") (marketType : Option String := none)
    (interval : Option (String × String) := none) : Sync Stage := do
  checkOpen
  backendFetch installed route exchange marketType interval

/-- `warm`. -/
def warm (exchange : Option String) (quiet : Bool := false) : Sync Stage := do
  checkOpen
  let core ← get
  warmFrom installed quiet [] (match exchange with | some name => [name] | none => core.scope)

/-- `_warm_quietly`; a problem becomes a warning. -/
def warmQuietly : Sync Stage :=
  tryCatch (warm installed none true) fun
    | .cancelled => throw .cancelled
    | _ => return .over none

/-- A call until its first await. The tasks that `fetch_many` gathers are calls of their own,
begun after it. -/
def enter : Method → Sync Stage
  | .discovery route arguments =>
    fetch installed route (arguments[0]?.getD "None") arguments[1]?
  | .getVersion => fetch installed "version"
  | .getCapabilities exchange => do
    ensureCapabilities installed exchange false
    return .over none
  | .point route exchange marketType _ => do
    preflight installed exchange marketType route none
    fetch installed route exchange (some marketType)
  | .getMarginTiers exchange marketType _ => do
    ensureCapabilities installed exchange
    preflight installed exchange marketType "margin_tiers" none
    fetch installed "margin_tiers" exchange (some marketType)
  | .series route exchange marketType _ interval intervalLabel => do
    preflight installed exchange marketType route (interval.map fun value => (intervalLabel, value))
    fetch installed route exchange (some marketType)
      (interval.map fun value => (intervalLabel, value))
  | .fetchMany route exchange =>
    if route ∉ seriesRoutes then
      let routes := ", ".intercalate seriesRoutes
      throw (.router ⟨.badRequest, s!"route '{route}' is not a series route; fetch_many takes " ++
        s!"one of {routes}", some 400, none⟩)
    else do
      ensureCapabilities installed exchange
      return .reading
  | .warm exchange => warm installed exchange

/-- `subscribe`, which is what `stream` does again after a drop. -/
def subscribe (sub : Subscription) (reconnect : Bool) : Sync Stage := do
  checkOpen
  backendStream installed sub reconnect

/-- `warm` after its `gather`; the problems are in the order of the market types. -/
def warmOn (quiet : Bool) (problems : List Raised) (left : List String)
    (results : List (Option Raised)) : Sync Stage :=
  if quiet then
    tryCatch (warmFrom installed quiet (problems ++ results.filterMap id) left) fun
      | .cancelled => throw .cancelled
      | _ => return .over none
  else warmFrom installed quiet (problems ++ results.filterMap id) left

end

/-! ## Runs -/

/-- The router and where its calls stand. -/
structure State where
  core : Core
  calls : List Stage := []

/-- `start` is a read or a `warm`, `stream` a stream or a `subscribe`, which is one that does not
reconnect. The background task begins; a `gather` of `warm` has all its results; an adapter's
coroutine that a read or `close` awaits is through; a stream drops or ends, or has slept; and a
call's task is cancelled. The items of a stream change nothing. -/
inductive Event where
  | start (m : Method)
  | stream (sub : Subscription) (reconnect : Bool)
  | close
  | begin (call : ℕ)
  | gathered (call : ℕ) (results : List (Option Raised))
  | answer (call : ℕ) (raised : Option Raised)
  | drop (call : ℕ) (e : Raised) (retryable : Bool)
  | finish (call : ℕ)
  | wake (call : ℕ)
  | cancel (call : ℕ)

/-- Where the call stands after a stretch. -/
def stageOf : Except Raised Stage → Stage
  | .ok stage => stage
  | .error e => .over (some e)

/-- Call `i` runs until its next await. -/
def State.resume (s : State) (i : ℕ) (m : Sync Stage) : State where
  core := (m.exec s.core).2
  calls := s.calls.set i (stageOf (m.exec s.core).1)

/-- A new call runs until its first await. -/
def State.call (s : State) (m : Sync Stage) : State :=
  State.resume { s with calls := s.calls ++ [.over none] } s.calls.length m

/-- Call `i` comes to `stage` with nothing run. -/
def State.finish (s : State) (i : ℕ) (stage : Stage) : State :=
  { s with calls := s.calls.set i stage }

/-- Where a call waits, unless it is to be cancelled. -/
def State.waiting (s : State) (i : ℕ) : Option Stage :=
  if i ∈ s.core.cancelled then none else s.calls[i]?

/-- A step of the router, `none` where the event cannot happen. -/
def step (installed : List Adapter) (s : State) : Event → Option State
  | .start m => some (s.call (enter installed m))
  | .stream sub reconnect => some (s.call (subscribe installed sub reconnect))
  | .close => some (s.call LocalRouter.close)
  | .begin i =>
    match s.waiting i with
    | some .scheduled => some (s.resume i (warmQuietly installed))
    | _ => none
  | .gathered i results =>
    match s.waiting i with
    | some (.warming quiet problems left) =>
      some (s.resume i (warmOn installed quiet problems left results))
    | _ => none
  | .answer i raised =>
    match s.waiting i with
    | some .reading => some (s.finish i (.over raised))
    | some (.closing size left) =>
      match raised with
      | none => some (s.resume i (shutdownFrom size left))
      | some e => some (s.finish i (.over (some e)))
    | _ => none
  | .drop i e retryable =>
    match s.waiting i with
    | some (.streaming sub reconnect) =>
      some (s.finish i (if reconnect ∧ retryable then .pausing sub else .over (some e)))
    | _ => none
  | .finish i =>
    match s.waiting i with
    | some (.streaming sub true) => some (s.resume i (subscribe installed sub true))
    | some (.streaming _ false) => some (s.finish i (.over none))
    | _ => none
  | .wake i =>
    match s.waiting i with
    | some (.pausing sub) => some (s.resume i (subscribe installed sub true))
    | _ => none
  | .cancel i =>
    match s.calls[i]? with
    | some (.over _) => none
    | some _ => some (s.finish i (.over (some .cancelled)))
    | none => none

/-- The router that `AsyncRouter.local` returns, with what the registry holds and the scope it
resolved. `_start_warm` needs a running loop for its task. -/
def start (registry : Registry) (scope : List String) (running : Bool) : State :=
  if scope ≠ [] ∧ running then
    { core := { registry := registry, scope := scope, warmTask := some 0 }, calls := [.scheduled] }
  else { core := { registry := registry, scope := scope } }

end LocalRouter
end ExchangeRouter
