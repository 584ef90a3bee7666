import ExchangeRouter.Service

/-!
# The two backends

`RemoteBackend` asks the service over HTTP and websockets, and maps statuses and close codes to
the error tree. `LocalBackend` asks the adapters of its own process and maps their exceptions.

`RemoteBackend` pastes what it is given into a URL without quoting it. What arrives is up to the
clients and the server: `Http` and `Ws` are `httpx` and `websockets` with the server's reading of
their URLs, as far as it depends on them.
-/

namespace ExchangeRouter

section

variable {J : Type}

/-! ## URLs -/

/-- The way of a request. `accepts` is false where `httpx` raises `InvalidURL`. `decode` is the path
in the end: `httpx` quotes it and lets escapes stand, and the server reads the escapes. `read` are
the parameters where the URL has a query of its own, `none` where FastAPI finds no number. -/
structure Http where
  accepts : String → Params → Bool
  decode : String → String
  read : String → Params → Option Params
  decode_of_notMem : ∀ s : String, '%' ∉ s.toList → decode s = s

/-- The path and the parameters that arrive: no `httpx` URL has dot segments. -/
def Http.arrival (http : Http) (url : String) (params : Params) : List String × Option Params :=
  (Url.segments (http.decode (Url.normalized (Url.path url))),
    match Url.query url with
    | none => some params
    | some query => http.read query params)

/-- The way of a handshake. `accepts` is false where `websockets` raises `InvalidURI`, and `decode`
is `none` where the server makes no request of it. -/
structure Ws where
  accepts : String → Bool
  decode : String → Option String

/-! ## `RemoteBackend.fetch` -/

/-- `_endpoint`, for the data routes. -/
def endpoint (r : Request) : String :=
  match r.route with
  | .markets => r.exchange ++ "/" ++ (r.marketType ++ "/" ++ "markets")
  | .symbolInfo => r.exchange ++ "/" ++ (r.marketType ++ "/" ++ ("markets" ++ "/" ++ r.symbol))
  | route => r.exchange ++ "/" ++ (r.marketType ++ "/" ++ (route.name ++ "/" ++ r.symbol))

/-- `_detail`. -/
def detailOf (status : ℕ) : Option Service.ErrorBody → String
  | none => s!"HTTP {status}"
  | some body =>
    if body.detail ≠ "" then body.detail
    else if body.error.getD "" ≠ "" then body.error.getD ""
    else "\x7b'detail': ''\x7d"

/-- The statuses that are asked for again. -/
def retriedStatuses : List ℕ := [429, 500, 502, 503, 504]

namespace RemoteBackend

/-- What `fetch` raises. `escaped` is an exception that no clause makes a `RouterError` of:
`InvalidURL`, or the `ValueError` of a body that is no JSON. -/
inductive Raised where
  | router (e : RouterError)
  | escaped
deriving DecidableEq, Repr

/-- The loop of `fetch`, with the retries that are left and the answer to each attempt. -/
def fetchLoop (request : ℕ → Service.Response J) (left attempt : ℕ) : Except Raised (Body J) :=
  match request attempt with
  | .ok body => .ok body
  | .page => .error .escaped
  | .error status body retryAfter =>
    let e := errorForStatus status (detailOf status body) (retryAfter.map fun (s : ℤ) => (s : ℚ))
    -- the waits between the attempts are left out
    if status ∉ retriedStatuses then .error (.router e)
    else
      match left with
      | 0 => .error (.router e)
      | left + 1 => fetchLoop request left (attempt + 1)

/-- `RemoteBackend.fetch` against the service. -/
def fetch (http : Http) (registry : Registry J)
    (unprocessable : Service.Match → Option Params → String) (pages : Service.Pages J)
    (maxRetries : ℕ) (r : Request) : Except Raised (Body J) :=
  if http.accepts (endpoint r) r.params then
    let (path, params) := http.arrival (endpoint r) r.params
    fetchLoop (fun _ => Service.respond registry unprocessable pages path params) maxRetries 0
  else .error .escaped

end RemoteBackend

/-! ## `LocalBackend.fetch` -/

namespace LocalBackend

/-- What is raised inside `fetch`. -/
inductive Raised where
  | router (e : RouterError)
  | fault (e : Fault)
deriving DecidableEq, Repr

/-- `_market_type`. -/
def marketTypeOf (marketType : String) : Except RouterError MarketType :=
  match MarketType.ofString marketType with
  | some m => .ok m
  | none => .error ⟨.routerError,
      s!"market_type '{marketType}' is not a market type; use spot, linear or inverse",
      some 422, none⟩

/-- `_adapter`. -/
def adapterFor (registry : Registry J) (exchange : String) (marketType : MarketType) :
    Except RouterError (Adapter J) :=
  match registry exchange with
  | none => .error ⟨.notFound, s!"Exchange '{exchange}' not found or not enabled", some 404, none⟩
  | some adapter =>
    if marketType ∉ adapter.supportedMarketTypes then
      .error ⟨.badRequest, s!"Market type '{marketType.value}' not supported on {exchange}",
        some 400, none⟩
    else .ok adapter

/-- `INTERVAL_ROUTES`: the label of the route's interval and the caller's value. -/
def intervalRoute (params : Params) : Route → Option (String × Option String)
  | .candles => some ("Interval", params.interval)
  | .openInterest => some ("Period", params.period)
  | .longShortRatio => some ("Period", params.period)
  | _ => none

/-- The check of an interval that the caller gave. -/
def checkInterval (adapter : Adapter J) (marketType : MarketType) (params : Params)
    (route : Route) : Except Fault Unit :=
  match intervalRoute params route with
  | some (label, some value) => validateInterval adapter marketType route.name label value
  | _ => .ok ()

/-- `POINT_METHODS`. -/
def pointMethod (adapter : Adapter J) :
    Route → Option (MarketType → String → Except Fault J)
  | .ticker => some adapter.getTicker
  | .bookTicker => some adapter.getBookTicker
  | .markPrice => some adapter.getMarkPrice
  | .symbolInfo => some adapter.getSymbolInfo
  | .marginTiers => some adapter.getMarginTiers
  | _ => none

/-- `_series`. -/
def series (adapter : Adapter J) (marketType : MarketType) (symbol : String) (params : Params) :
    Route → Except Fault (Body J)
  | .trades => .rows <$> adapter.getTrades marketType symbol (params.limit.getD 100)
  | .aggTrades =>
    .rows <$> adapter.getAggTrades marketType symbol params.start (params.limit.getD 500)
  | .candles =>
    .candles <$> adapter.getCandles marketType symbol (params.interval.getD "1h") params.start
      (params.limit.getD 100)
  | .fundingRate =>
    .rows <$> adapter.getFundingRate marketType symbol params.start (params.limit.getD 100)
  | .liquidations =>
    .rows <$> adapter.getLiquidations marketType symbol params.start (params.limit.getD 100)
  | .longShortRatio =>
    .rows <$> adapter.getLongShortRatio marketType symbol (params.period.getD "5m") params.start
      (params.limit.getD 30)
  | _ => do
    -- `open_interest`, the series that is left
    let period := params.period.getD "1h"
    let limit := params.limit.getD 30
    let oiRows ← adapter.getOpenInterest marketType symbol period params.start limit
    let rows ← joinOpenInterestBasis adapter marketType symbol period params.start limit oiRows
    return .openInterest rows

/-- `_dispatch` past `_adapter`. -/
def answer (adapter : Adapter J) (exchange : String) (marketType : MarketType) (symbol : String)
    (params : Params) (route : Route) : Except Fault (Body J) :=
  if route = .markets then
    (fun infoList : List SymbolInfo => .markets exchange marketType.value infoList.length
      (infoList.map symbolInfoToLite)) <$> adapter.getExchangeInfo marketType
  else do
    checkInterval adapter marketType params route
    match pointMethod adapter route with
    | some method => .record <$> method marketType symbol
    | none =>
      if route = .orderbook then
        .record <$> adapter.getOrderbook marketType symbol (params.depth.getD 20)
      else series adapter marketType symbol params route

/-- `_dispatch`, for the data routes. -/
def dispatch (registry : Registry J) (r : Request) (marketType : MarketType) :
    Except Raised (Body J) := do
  let adapter ← (adapterFor registry r.exchange marketType).mapError .router
  (answer adapter r.exchange marketType r.symbol r.params r.route).mapError .fault

/-- `LocalBackend.fetch`. -/
def fetch (registry : Registry J) (r : Request) : Except RouterError (Body J) :=
  match (marketTypeOf r.marketType).mapError .router >>= dispatch registry r with
  | .ok body => .ok body
  | .error (.router e) => .error e
  | .error (.fault e) => .error (errorForFault e)

end LocalBackend

/-! ## Streams -/

/-- How a stream of a backend has come: open, ended, refused with a `RouterError`, or dropped
with the transport's exception. -/
inductive Opening where
  | pending
  | ended
  | refused (e : RouterError)
  | dropped (code : Option ℕ) (message : String)
deriving DecidableEq, Repr

/-- A stream of a backend: its items so far and how it has come. -/
structure Stream (J : Type) where
  items : List J
  opening : Opening
deriving DecidableEq, Repr

/-- `FATAL_CLOSE_CODES`. -/
def fatalCloseCodes : List ℕ := [1003, 1008]

/-- `error_for_close`. -/
def errorForClose (code : ℕ) (reason exchange marketType channel : String) :
    Option RouterError :=
  if code ∉ fatalCloseCodes then none
  else if code = 1003 then
    let unstreamed :=
      s!"channel '{channel}' is not streamed on {exchange}/{marketType}; " ++
        "get_capabilities lists the channels that are"
    some ⟨.notSupported, if reason ≠ "" then reason else unstreamed, some 501, none⟩
  else
    let refused := s!"channel '{channel}' was refused by {exchange}/{marketType}; subscribe again"
    some ⟨.badRequest, if reason ≠ "" then reason else refused, some 400, none⟩

/-- What `stream` puts behind the host. -/
def wsPath (exchange marketType : String) : String := "ws" ++ "/" ++ (exchange ++ "/" ++ marketType)

/-- The path of the handshake that arrives. One that is no request has none, and is refused as an
unknown path is. -/
def Ws.arrival (ws : Ws) (exchange marketType : String) : List String :=
  ((ws.decode (Url.path (wsPath exchange marketType))).map Url.segments).getD []

/-- `RemoteBackend.stream` against the service at `url`. `InvalidURI` is no `InvalidHandshake`. -/
def RemoteBackend.stream (ws : Ws) (registry : Registry J)
    (url exchange marketType channel symbol : String) : Stream J :=
  if ws.accepts (wsPath exchange marketType) then
    match Service.websocketEndpoint registry (ws.arrival exchange marketType) channel symbol with
    | .refused =>
      ⟨[], .refused ⟨.notFound,
        s!"exchange '{exchange}' or market_type '{marketType}' is not streamed by " ++
          s!"{url}; check both against get_exchanges and get_market_types", some 404, none⟩⟩
    | .opened items none => ⟨items, .pending⟩
    | .opened items (some (code, reason)) =>
      match errorForClose code reason exchange marketType channel with
      | some e => ⟨items, .refused e⟩
      | none => ⟨items, .dropped (some code) reason⟩
  else ⟨[], .dropped none s!"{url}/{wsPath exchange marketType} isn't a valid URI"⟩

/-- The `except` clauses of `LocalBackend.stream`: an exception of the transport passes, unless
its close code is fatal. -/
def LocalBackend.openingOf : StreamEnd → Opening
  | .pending => .pending
  | .ended => .ended
  | .raised (.fault e) => .refused (errorForFault e)
  | .raised (.transport code message) =>
    if code.any (· ∈ fatalCloseCodes) then .refused (errorForFault (.other message))
    else .dropped code message

/-- `LocalBackend.stream`. -/
def LocalBackend.stream (registry : Registry J) (exchange marketType channel symbol : String) :
    Stream J :=
  match LocalBackend.marketTypeOf marketType with
  | .error e => ⟨[], .refused e⟩
  | .ok market =>
    match LocalBackend.adapterFor registry exchange market with
    | .error e => ⟨[], .refused e⟩
    | .ok adapter =>
      match adapter.stream channel with
      | none => ⟨[], .refused ⟨.notSupported,
          s!"channel '{channel}' has no stream here; get_capabilities lists the ones served",
          some 501, none⟩⟩
      | some method =>
        let run := method market symbol
        ⟨run.items, LocalBackend.openingOf run.ending⟩

end

end ExchangeRouter
