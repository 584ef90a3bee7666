import ExchangeRouter.Errors
import ExchangeRouter.Lib.Coroutine
import ExchangeRouter.Lib.Transition
import ExchangeRouter.MakeRequest

/-!
# The schema gate of the SDK

`AsyncCore` in service mode: the handshake, the reads behind it, and the streams. A call is a
coroutine over the router's fields that awaits `_backend.fetch`; calls of one router run
interleaved at their awaits. A stream is not a read: it opens a subscription and yields its items.

What the SDK makes of a route's data (rows, frames, warnings) is left out: a read returns the data.
-/

namespace ExchangeRouter
namespace SchemaGate

open MakeRequest (Json)

/-- `SCHEMA_VERSION`. -/
def schemaVersion : ℤ := 3

/-- `__version__`. -/
def version : String := "3.2.0"

/-- `SERIES_ROUTES`. -/
def seriesRoutes : List String :=
  ["candles", "trades", "agg_trades", "funding_rate", "open_interest", "liquidations",
    "long_short_ratio"]

/-! ## Values -/

/-- Conversions of the language: `str` of a parsed value, a list of names in an f-string, and
`sorted`, `none` where it raises a `TypeError`. -/
structure Texts where
  str : Json → String
  names : List String → String
  sorted : List Json → Option (List String)

/-- What a call raises. Anything outside the error tree is `other`, by its class. -/
inductive Err where
  | schemaMismatch (message : String) (sdkSchema : ℤ) (serviceSchema : Json)
  | router (e : RouterError)
  | other (name : String)

/-- `isinstance(error, SchemaMismatch)`. -/
def Err.isSchemaMismatch : Err → Bool
  | schemaMismatch .. => true
  | _ => false

/-- `isinstance(error, RouterError)`. -/
def Err.isRouterError : Err → Bool
  | other _ => false
  | _ => true

/-- `value or {}`. -/
def orEmpty (j : Json) : Json := if j.truthy then j else .obj []

/-- The elements that iterating over a value gives, `none` where it raises a `TypeError`. -/
def elements? : Json → Option (List Json)
  | .arr xs => some xs
  | .obj fields => some (fields.map fun f => Json.str f.1)
  | .str s => some (s.toList.map fun c => Json.str (String.singleton c))
  | _ => none

/-- The value may be an element of a set. -/
def hashable : Json → Bool
  | .arr _ => false
  | .obj _ => false
  | _ => true

/-- `set(value)`, `none` where it raises. -/
def toSet? (j : Json) : Option (List Json) :=
  (elements? j).bind fun xs => if xs.all hashable then some xs else none

/-- `s in value`, `none` where it raises. -/
def contains? (s : String) : Json → Option Bool
  | .str t => some (decide (s.toList <:+: t.toList))
  | j => (elements? j).map fun xs => xs.any (Json.isStr s)

/-- `', '.join(value)`, `none` where it raises. -/
def join? (j : Json) : Option String :=
  (elements? j).bind fun xs =>
    (xs.mapM fun | Json.str s => some s | _ => none).map fun names => ", ".intercalate names

/-- `theirs is not None and theirs != SCHEMA_VERSION`. -/
def differs : Json → Bool
  | .null => false
  | theirs => !theirs.isInt schemaVersion

/-- A reply of the version endpoint with another schema. -/
def mismatching (data : Json) : Bool := (data.get? .null "schema_version").any differs

/-- A reply that a handshake goes on after. -/
def accepted (data : Json) : Bool := (data.get? .null "schema_version").any (!differs ·)

/-- `market_block`, `none` where it raises an `AttributeError`. -/
def marketBlock (capabilities : Option Json) (marketType : String) : Option Json := do
  let markets := orEmpty (← (orEmpty (capabilities.getD .null)).get? .null "markets")
  return orEmpty (← markets.get? .null marketType)

/-- `route_block`. -/
def routeBlock (capabilities : Option Json) (marketType route : String) : Option Json := do
  return orEmpty (← (← marketBlock capabilities marketType).get? .null route)

/-! ## The router's fields -/

/-- `version` and `exchanges` are the handshake's own two fetches, on the raw path. `read` is a
fetch behind the gate, with the exchange, the market type and the symbol it names. -/
inductive Request where
  | version
  | exchanges
  | read (route : String) (arguments : List String)

/-- What happened. `mismatch` is a version reply with another schema, `shook` a handshake that
succeeded, `requested` a request for data or a subscription, `received` data of the service. -/
inductive Entry where
  | started (call : ℕ)
  | requested
  | received
  | mismatch
  | shook
  | ended (call : ℕ) (raised : Option Err)

/-- `log` is what happened so far, newest first; no code reads it. -/
structure Router where
  baseUrl : String
  scope : List String := []
  scopeAll : Bool := false
  handshakeDone : Bool := false
  handshakeError : Option Err := none
  capabilities : List (String × Json) := []
  log : List Entry := []

/-- A reply that arrives is noted before the call goes on. -/
def arrives (request : Request) (reply : Except Err Json) (r : Router) : Router :=
  match request, reply with
  | .version, .ok data => if mismatching data then { r with log := .mismatch :: r.log } else r
  | .read route _, .ok data =>
    if route = "version" ∧ mismatching data then
      { r with log := .mismatch :: .received :: r.log }
    else { r with log := .received :: r.log }
  | _, _ => r

/-! ## The reads -/

/-- A coroutine of the router. An `await` sends a request and has its reply. -/
abbrev Co : Type → Type := Coroutine Router Request (Except Err Json) Err

/-- `await self._backend.fetch(..)`. -/
def fetch (request : Request) : Co Json :=
  .awaits request fun
    | .ok data => .returns data
    | .error e => .raises e

/-- A value that is `none` where the language raises. -/
def orRaise {α : Type} (name : String) : Option α → Co α
  | some a => .returns a
  | none => .raises (.other name)

/-- `self._handshake_done = True`. -/
def shake : Co Unit :=
  .writes (fun r => { r with handshakeDone := true, log := .shook :: r.log }) (.returns ())

/-- `self._handshake_error = e` and `raise e`. -/
def refuse (e : Err) : Co Unit := .writes (fun r => { r with handshakeError := some e }) (.raises e)

section Reads

variable (texts : Texts)

/-- The second half of `_ensure_handshake`: the declared scope against what is served. -/
def ensureScope : Co Unit := do
  let served ← orRaise "TypeError" (toSet?
    (← orRaise "AttributeError" ((← fetch .exchanges).get? (.arr []) "exchanges")))
  .reads fun r =>
    if r.scopeAll then do
      let scope ← orRaise "TypeError" (texts.sorted served)
      .writes (fun r => { r with scope := scope }) shake
    else
      let missing := r.scope.filter fun name => !served.any (Json.isStr name)
      if missing ≠ [] then do
        let carried ← orRaise "TypeError" (texts.sorted served)
        refuse (.router ⟨.notFound, s!"exchanges {texts.names missing} are not served by " ++
          s!"{r.baseUrl}; it carries {texts.names carried}", some 404, none⟩)
      else shake

/-- What `_ensure_handshake` makes of the version reply. -/
def ensureSchema (data : Json) : Co Unit := do
  let theirs ← orRaise "AttributeError" (data.get? .null "schema_version")
  if differs theirs then do
    let release ← orRaise "AttributeError" (data.get? .null "version")
    .reads fun r => refuse (.schemaMismatch
      (s!"this SDK speaks schema {schemaVersion}, {r.baseUrl} speaks schema " ++
        s!"{texts.str theirs} (sdk {version}, service {texts.str release}); upgrade the " ++
        s!"SDK or pin the service to a schema {schemaVersion} release")
      schemaVersion theirs)
  else
    .reads fun r => if r.scope ≠ [] ∨ r.scopeAll then ensureScope texts else shake

/-- `_ensure_handshake`. -/
def ensureHandshake : Co Unit :=
  .reads fun r =>
    match r.handshakeError with
    | some e => .raises e
    | none =>
      if r.handshakeDone then .returns () else do
        let data ← fetch .version
        ensureSchema texts data

/-- `_ensure_capabilities`. -/
def ensureCapabilities (exchange : String) (quiet : Bool := true) : Co Json := do
  ensureHandshake texts
  .reads fun r =>
    match r.capabilities.lookup exchange with
    | some capabilities => .returns capabilities
    | none => .awaits (.read "capabilities" [exchange]) fun
      | .ok data =>
        .writes (fun r => { r with capabilities := (exchange, orEmpty data) :: r.capabilities })
          (.returns (orEmpty data))
      | .error e => if e.isRouterError ∧ quiet then .returns (.obj []) else .raises e

/-- `_fetch`. -/
def fetchRead (route : String) (arguments : List String) : Co Json := do
  ensureHandshake texts
  fetch (.read route arguments)

/-- `_preflight`; the warning about a depth is left out. -/
def preflight (exchange marketType route : String) (interval : Option String := none)
    (intervalLabel : String := "Interval") : Co Unit := do
  let caps ← ensureCapabilities texts exchange
  .reads fun r => do
    let block ← orRaise "AttributeError"
      (routeBlock (r.capabilities.lookup exchange) marketType route)
    if caps.truthy && block.truthy then do
      let rest ← orRaise "AttributeError" (block.get? .null "rest")
      if rest matches .bool false then
        .raises (.router ⟨.notSupported,
          s!"{route} is not exposed on {exchange}/{marketType}", none, none⟩)
      else do
        let intervals ← orRaise "AttributeError" (block.get? .null "intervals")
        match interval with
        | none => .returns ()
        | some interval =>
          if intervals.truthy then do
            if ← orRaise "TypeError" (contains? interval intervals) then .returns ()
            else do
              let valid ← orRaise "TypeError" (join? intervals)
              .raises (.router ⟨.badRequest, s!"{intervalLabel} '{interval}' is not valid for " ++
                s!"{exchange} {marketType} {route}. valid: {valid}", none, none⟩)
          else .returns ()
    else .returns ()

/-- The public reads. `discovery` are the routes that go straight to `_fetch`, `point` those
behind `_preflight`, `series` those of `_series` with their interval or period. -/
inductive Method where
  | discovery (route : String) (arguments : List String)
  | getVersion
  | getCapabilities (exchange : String)
  | point (route exchange marketType symbol : String)
  | getMarginTiers (exchange marketType symbol : String)
  | series (route exchange marketType symbol : String) (interval : Option String)
      (intervalLabel : String)
  | fetchMany (route exchange : String)
  | warm (exchange : Option String)

namespace Method

/-- `get_status`. -/
def getStatus : Method := .discovery "status" []

/-- `get_exchanges`. -/
def getExchanges : Method := .discovery "exchanges" []

/-- `get_market_types`. -/
def getMarketTypes (exchange : String) : Method := .discovery "market_types" [exchange]

/-- `get_exchange_overview`. -/
def getExchangeOverview (exchange : String) : Method := .discovery "overview" [exchange]

/-- `get_exchange_status`. -/
def getExchangeStatus (exchange : String) : Method := .discovery "exchange_status" [exchange]

/-- `get_markets`. -/
def getMarkets (exchange marketType : String) : Method :=
  .discovery "markets" [exchange, marketType]

/-- `get_symbol_info`. -/
def getSymbolInfo (exchange marketType symbol : String) : Method :=
  .discovery "symbol_info" [exchange, marketType, symbol]

/-- `get_ticker`. -/
def getTicker : String → String → String → Method := .point "ticker"

/-- `get_book_ticker`. -/
def getBookTicker : String → String → String → Method := .point "book_ticker"

/-- `get_mark_price`. -/
def getMarkPrice : String → String → String → Method := .point "mark_price"

/-- `get_orderbook`. -/
def getOrderbook : String → String → String → Method := .point "orderbook"

/-- `get_candles`. -/
def getCandles (exchange marketType symbol : String) (interval : String := "1h") : Method :=
  .series "candles" exchange marketType symbol (some interval) "Interval"

/-- `get_trades`. -/
def getTrades (exchange marketType symbol : String) : Method :=
  .series "trades" exchange marketType symbol none "Interval"

/-- `get_agg_trades`. -/
def getAggTrades (exchange marketType symbol : String) : Method :=
  .series "agg_trades" exchange marketType symbol none "Interval"

/-- `get_funding_rate`. -/
def getFundingRate (exchange marketType symbol : String) : Method :=
  .series "funding_rate" exchange marketType symbol none "Interval"

/-- `get_open_interest`. -/
def getOpenInterest (exchange marketType symbol : String) (period : String := "1h") : Method :=
  .series "open_interest" exchange marketType symbol (some period) "Period"

/-- `get_liquidations`. -/
def getLiquidations (exchange marketType symbol : String) : Method :=
  .series "liquidations" exchange marketType symbol none "Interval"

/-- `get_long_short_ratio`. -/
def getLongShortRatio (exchange marketType symbol : String) (period : String := "5m") : Method :=
  .series "long_short_ratio" exchange marketType symbol (some period) "Period"

end Method

/-- `get_version`. -/
def getVersion : Co Json := do
  let data ← fetchRead texts "version" []
  orRaise "AttributeError" (data.get? (.str "") "version")

/-- `not (market and "margin_tiers" not in market)`. -/
def listsMarginTiers (market : Json) : Co Bool :=
  if market.truthy then orRaise "TypeError" (contains? "margin_tiers" market) else .returns true

/-- `get_margin_tiers`: a service that does not list the route is too old to have it. -/
def getMarginTiers (exchange marketType symbol : String) : Co Json := do
  let market ← orRaise "AttributeError"
    (marketBlock (some (← ensureCapabilities texts exchange)) marketType)
  if ← listsMarginTiers market then do
    preflight texts exchange marketType "margin_tiers"
    fetchRead texts "margin_tiers" [exchange, marketType, symbol]
  else do
    let release ← getVersion texts
    .reads fun r => .raises (.router ⟨.notSupported, s!"margin_tiers is not served by " ++
      s!"{r.baseUrl}, which runs {texts.str release}; upgrade the service to 3.2.0 or newer",
      none, none⟩)

/-- The loop of `warm` over the names. -/
def warmNames : List String → Co Unit
  | [] => .returns ()
  | name :: names => do
    let _ ← ensureCapabilities texts name
    warmNames names

/-- The coroutine of a read. The tasks that `fetch_many` gathers are calls of their own, begun
after it; `_backend.warm` of a remote backend does nothing. -/
def Method.coroutine : Method → Co Json
  | .discovery route arguments => fetchRead texts route arguments
  | .getVersion => SchemaGate.getVersion texts
  | .getCapabilities exchange => ensureCapabilities texts exchange false
  | .point route exchange marketType symbol => do
    preflight texts exchange marketType route
    fetchRead texts route [exchange, marketType, symbol]
  | .getMarginTiers exchange marketType symbol =>
    SchemaGate.getMarginTiers texts exchange marketType symbol
  | .series route exchange marketType symbol interval intervalLabel => do
    preflight texts exchange marketType route interval intervalLabel
    fetchRead texts route [exchange, marketType, symbol]
  | .fetchMany route exchange =>
    if route ∉ seriesRoutes then
      let routes := ", ".intercalate seriesRoutes
      .raises (.router ⟨.badRequest, s!"route '{route}' is not a series route; fetch_many takes " ++
        s!"one of {routes}", some 400, none⟩)
    else ensureCapabilities texts exchange
  | .warm exchange => do
    ensureHandshake texts
    .reads fun r => do
      warmNames texts (match exchange with | some name => [name] | none => r.scope)
      .returns .null

end Reads

/-! ## The calls of one router -/

/-- A call that is under way. `streaming` has a subscription open, `pausing` sleeps before the
next one. -/
inductive Call where
  | running (request : Request) (next : Except Err Json → Co Json)
  | streaming (reconnect : Bool)
  | pausing
  | over

/-- The router and its calls. -/
structure State where
  router : Router
  calls : List Call := []

/-- `start` and `answer` are those of a read, `resend` is a retry of its request in
`RemoteBackend.fetch`. `stream` begins a stream, or a `subscribe`, which is one that does not
reconnect. An item of it reaches the caller, it drops with an error, the upstream ends it, and
the sleep after a drop is over. -/
inductive Event where
  | start (m : Method)
  | answer (call : ℕ) (reply : Except Err Json)
  | resend (call : ℕ)
  | stream (reconnect : Bool)
  | item (call : ℕ)
  | drop (call : ℕ) (e : Err) (retryable : Bool)
  | finish (call : ℕ)
  | wake (call : ℕ)

/-- The log gets an entry. -/
def Router.note (r : Router) (entry : Entry) : Router := { r with log := entry :: r.log }

/-- A request goes out. -/
def Request.sent : Request → Router → Router
  | .read _ _, r => r.note .requested
  | _, r => r

/-- What an outcome raised, if it did. -/
def raised? {α : Type} : Except Err α → Option Err
  | .ok _ => none
  | .error e => some e

/-- Call `i` comes to the end of a stretch. -/
def State.settle (s : State) (i : ℕ) :
    Router × Coroutine.Pause Router Request (Except Err Json) Err Json → State
  | (r, .ended result) =>
    { router := r.note (.ended i (raised? result)), calls := s.calls.set i .over }
  | (r, .waits request next) =>
    { router := request.sent r, calls := s.calls.set i (.running request next) }

/-- Call `i` opens a subscription. -/
def State.subscribe (s : State) (i : ℕ) (reconnect : Bool) : State :=
  { router := s.router.note .requested, calls := s.calls.set i (.streaming reconnect) }

/-- A new call. -/
def State.begin (s : State) : State :=
  { router := s.router.note (.started s.calls.length), calls := s.calls ++ [.over] }

/-- Call `i` ends. -/
def State.finish (s : State) (i : ℕ) (raised : Option Err) : State :=
  { router := s.router.note (.ended i raised), calls := s.calls.set i .over }

/-- A step of the router, `none` where the event cannot happen. -/
def step (texts : Texts) (s : State) : Event → Option State
  | .start m =>
    some (s.begin.settle s.calls.length ((m.coroutine texts).stretch s.begin.router))
  | .answer i reply =>
    match s.calls[i]? with
    | some (.running request next) =>
      some (s.settle i ((next reply).stretch (arrives request reply s.router)))
    | _ => none
  | .resend i =>
    match s.calls[i]? with
    | some (.running request _) => some { s with router := request.sent s.router }
    | _ => none
  | .stream reconnect => some (s.begin.subscribe s.calls.length reconnect)
  | .item i =>
    match s.calls[i]? with
    | some (.streaming _) => some { s with router := s.router.note .received }
    | _ => none
  | .drop i e retryable =>
    match s.calls[i]? with
    | some (.streaming reconnect) =>
      if reconnect ∧ retryable then some { s with calls := s.calls.set i .pausing }
      else some (s.finish i (some e))
    | _ => none
  | .finish i =>
    match s.calls[i]? with
    | some (.streaming true) => some (s.subscribe i true)
    | some (.streaming false) => some (s.finish i none)
    | _ => none
  | .wake i =>
    match s.calls[i]? with
    | some .pausing => some (s.subscribe i true)
    | _ => none

/-- The router before its first call. -/
def init (baseUrl : String) (scope : List String) (scopeAll : Bool) : State :=
  { router := { baseUrl := baseUrl, scope := scope, scopeAll := scopeAll } }

/-! ## What the gate promises -/

/-- No data before a handshake has succeeded, and no request for data after a mismatch. -/
def Gated : List Entry → Prop
  | [] => True
  | .received :: earlier => .shook ∈ earlier ∧ Gated earlier
  | .requested :: earlier => .mismatch ∉ earlier ∧ Gated earlier
  | _ :: earlier => Gated earlier

/-- A call that starts after a mismatch raises `SchemaMismatch`. -/
def Refuses (log : List Entry) : Prop :=
  ∀ later earlier i, log = later ++ .started i :: earlier → .mismatch ∈ earlier →
    ∃ e : Err, e.isSchemaMismatch ∧ .ended i (some e) ∈ later

/-- The router refuses its calls. -/
def Router.Refused (r : Router) : Prop := ∃ e, r.handshakeError = some e ∧ e.isSchemaMismatch

/-- A handshake has succeeded and no mismatch was read: a read would go through. -/
def Router.Open (r : Router) : Prop := r.handshakeDone ∧ ¬ r.Refused

/-- The replies that the gate can take: after a mismatch none that lets a handshake of another
call go on, and no version that a read asked for with another schema. -/
def Acceptable (request : Request) (reply : Except Err Json) (r : Router) : Prop :=
  match request, reply with
  | .version, .ok data => r.Refused → ¬ accepted data
  | .exchanges, .ok _ => ¬ r.Refused
  | .read route _, .ok data => ¬ (route = "version" ∧ mismatching data)
  | _, .error _ => True

/-- The condition under which the gate holds. A stream is begun only where a read would pass, and
subscribes again only while no mismatch was read. -/
def Safe (s : State) : Event → Prop
  | .start (.fetchMany route _) => route ∈ seriesRoutes ∨ ¬ s.router.Refused
  | .start _ => True
  | .answer i reply => ∀ request next, s.calls[i]? = some (.running request next) →
      Acceptable request reply s.router
  | .resend i => ∀ route arguments next,
      s.calls[i]? = some (.running (.read route arguments) next) → ¬ s.router.Refused
  | .stream _ => s.router.Open
  | .item _ => True
  | .drop .. => True
  | .finish i => s.calls[i]? = some (.streaming true) → ¬ s.router.Refused
  | .wake _ => ¬ s.router.Refused

end SchemaGate
end ExchangeRouter
