import ExchangeRouter.Backend

/-!
# Reads through the two backends

A read of a registered exchange comes out alike from `RemoteBackend.fetch` and
`LocalBackend.fetch` if its URL arrives as it was written and reaches the route it names, its
numbers pass the constraints of the route, and an interval that is left out has a default the
adapter declares. The theorem says that these are the only reads that do, apart from those a market
type outside the enum has refused on both sides, and from those whose URL asks for something else
that the service has.
-/

namespace ExchangeRouter

/-! ## Segments -/

/-- What one path parameter matches. -/
def IsSegment (s : String) : Prop := s ≠ "" ∧ '/' ∉ s.toList

instance (s : String) : Decidable (IsSegment s) := inferInstanceAs (Decidable (_ ∧ _))

namespace Service

/-- A market type is a segment of its own. -/
lemma ofString_notMem {s : String} {m : MarketType} (h : MarketType.ofString s = some m) :
    s ≠ "" ∧ '/' ∉ s.toList := by
  unfold MarketType.ofString at h
  split at h
  · next hs => subst hs; decide
  · split at h
    · next hs => subst hs; decide
    · split at h
      · next hs => subst hs; decide
      · simp at h

/-- No path has more than four segments. -/
lemma matchRoute_of_length {path : List String} (h : 5 ≤ path.length) : matchRoute path = none := by
  match path with
  | [] => rfl
  | [_] => rfl
  | [_, _] => rfl
  | [_, _, _] => simp at h
  | [_, _, _, _] => simp at h
  | _ :: _ :: _ :: _ :: _ :: _ => rfl

/-- A market type is not the segment before a symbol. -/
lemma symbolRoute_marketType {s : String} {m : MarketType} (h : MarketType.ofString s = some m) :
    symbolRoute s = none := by
  unfold MarketType.ofString at h
  split at h
  · next hs => subst hs; rfl
  · split at h
    · next hs => subst hs; rfl
    · split at h
      · next hs => subst hs; rfl
      · simp at h

/-- The markets path is matched if the exchange is one segment. -/
lemma matchRoute_markets {exchange marketType : String} {m : MarketType}
    (hm : MarketType.ofString marketType = some m) :
    matchRoute (Url.segments exchange ++ [marketType, "markets"]) =
      if IsSegment exchange then some ⟨.markets, exchange, marketType, ""⟩ else none := by
  by_cases hslash : '/' ∈ exchange.toList
  · rw [if_neg fun hseg => hseg.2 hslash]
    match hsegments : Url.segments exchange with
    | [] => exact absurd (Url.segments_length_pos exchange) (by simp [hsegments])
    | [_] => exact absurd hslash (Url.notMem_of_length_segments (by simp [hsegments]))
    | [_, _] => simp [matchRoute, symbolRoute_marketType hm]
    | _ :: _ :: _ :: rest => exact matchRoute_of_length (by simp)
  · rw [Url.segments_of_notMem hslash]
    simp [matchRoute, IsSegment, hslash, (ofString_notMem hm).1]

/-- A path with a symbol is matched if the exchange and the symbol are one segment each. -/
lemma matchRoute_symbol {exchange marketType literal symbol : String} {m : MarketType}
    {route : Route} (hm : MarketType.ofString marketType = some m)
    (hroute : symbolRoute literal = some route) :
    matchRoute (Url.segments exchange ++ ([marketType, literal] ++ Url.segments symbol)) =
      if IsSegment exchange ∧ IsSegment symbol then some ⟨route, exchange, marketType, symbol⟩
      else none := by
  have hexchange := Url.segments_length_pos exchange
  have hsymbol := Url.segments_length_pos symbol
  by_cases hslash : '/' ∈ exchange.toList ∨ '/' ∈ symbol.toList
  · rw [if_neg fun hseg => hslash.elim hseg.1.2 hseg.2.2]
    apply matchRoute_of_length
    have hlong : (Url.segments exchange).length ≠ 1 ∨ (Url.segments symbol).length ≠ 1 :=
      hslash.imp (fun h hone => Url.notMem_of_length_segments hone h)
        (fun h hone => Url.notMem_of_length_segments hone h)
    simp only [List.length_append, List.length_cons, List.length_nil]
    omega
  · rw [not_or] at hslash
    rw [Url.segments_of_notMem hslash.1, Url.segments_of_notMem hslash.2]
    simp [matchRoute, IsSegment, hslash, hroute, (ofString_notMem hm).1]

end Service

/-- The path of the request has one segment for each of its parameters. -/
def Request.IsRouted (r : Request) : Prop :=
  IsSegment r.exchange ∧ (r.route = .markets ∨ IsSegment r.symbol)

instance (r : Request) : Decidable r.IsRouted := inferInstanceAs (Decidable (_ ∧ _))

/-- The path of a request with a symbol. -/
lemma endpoint_symbol {r : Request} (h : r.route ≠ .markets) :
    ∃ literal : String, '/' ∉ literal.toList ∧ Service.symbolRoute literal = some r.route ∧
      endpoint r =
        r.exchange ++ "/" ++ (r.marketType ++ "/" ++ (literal ++ "/" ++ r.symbol)) := by
  cases hroute : r.route with
  | markets => exact absurd hroute h
  | symbolInfo => exact ⟨"markets", by decide, rfl, by simp only [endpoint, hroute]⟩
  | _ =>
    refine ⟨r.route.name, ?_, ?_, ?_⟩
    · rw [hroute]
      decide
    · rw [hroute]
      rfl
    · simp only [endpoint, hroute]

/-- What the service makes of a request's path. -/
lemma matchRoute_endpoint {r : Request} {m : MarketType}
    (hm : MarketType.ofString r.marketType = some m) :
    Service.matchRoute (Url.segments (endpoint r)) =
      if r.IsRouted then
        some ⟨r.route, r.exchange, r.marketType, if r.route = .markets then "" else r.symbol⟩
      else none := by
  have hmarket := Url.segments_of_notMem (Service.ofString_notMem hm).2
  by_cases hroute : r.route = .markets
  · have hpath : Url.segments (endpoint r) =
        Url.segments r.exchange ++ [r.marketType, "markets"] := by
      have hlast : Url.segments "markets" = ["markets"] :=
        Url.segments_of_notMem (by decide)
      simp only [endpoint, hroute, Url.segments_append, hmarket, hlast]
      rfl
    rw [hpath, Service.matchRoute_markets hm]
    simp [Request.IsRouted, hroute]
  · obtain ⟨literal, hslash, hliteral, hendpoint⟩ := endpoint_symbol hroute
    have hpath : Url.segments (endpoint r) =
        Url.segments r.exchange ++
          ([r.marketType, literal] ++ Url.segments r.symbol) := by
      rw [hendpoint]
      simp only [Url.segments_append, hmarket, Url.segments_of_notMem hslash]
      rfl
    rw [hpath, Service.matchRoute_symbol hm hliteral]
    simp [Request.IsRouted, hroute]

/-! ## Replies -/

section

variable {J : Type}

/-- The same body, or errors of the same class and status. -/
def SameReply : Except RemoteBackend.Raised (Body J) → Except RouterError (Body J) → Prop
  | .ok body, .ok body' => body = body'
  | .error (.router e), .error e' => e.Alike e'
  | _, _ => False

/-- What `fetch` makes of one response. -/
def replyOf : Service.Response J → Except RemoteBackend.Raised (Body J)
  | .ok body => .ok body
  | .page => .error .escaped
  | .error status body retryAfter => .error (.router
      (errorForStatus status (detailOf status body) (retryAfter.map fun (s : ℤ) => (s : ℚ))))

/-- Asking again for an answer that stays the same gives that answer. -/
lemma fetchLoop_of_const (response : Service.Response J) (left attempt : ℕ) :
    RemoteBackend.fetchLoop (fun _ => response) left attempt = replyOf response := by
  induction left generalizing attempt with
  | zero =>
    unfold RemoteBackend.fetchLoop replyOf
    cases response <;> simp
  | succ left ih =>
    unfold RemoteBackend.fetchLoop replyOf
    cases response with
    | ok body => rfl
    | page => rfl
    | error status body retryAfter =>
      simp only [ih]
      split <;> rfl

/-- A fault of the adapter reaches the caller alike over HTTP and in this process. -/
lemma sameReply_of_fault (x : Except Fault (Body J)) :
    SameReply (replyOf (Service.responseOf (x.mapError .fault))) (x.mapError errorForFault) := by
  cases x with
  | ok body => rfl
  | error e => cases e <;> exact ⟨rfl, rfl⟩

/-! ## The handlers and the local dispatch -/

/-- The interval a route falls back to. -/
def intervalDefault : Route → Option String
  | .candles => some "1h"
  | .openInterest => some "1h"
  | .longShortRatio => some "5m"
  | _ => none

variable (adapter : Adapter J) (marketType : MarketType) (exchange symbol : String)
  (params : Params)

/-- On a route with an interval the service checks the one it uses. -/
lemma handler_of_interval {route : Route} {label fallback : String} {given : Option String}
    (hroute : LocalBackend.intervalRoute params route = some (label, given))
    (hfallback : intervalDefault route = some fallback) :
    Service.handler adapter marketType symbol params exchange route =
      validateInterval adapter marketType route.name label (given.getD fallback) >>= fun _ =>
        LocalBackend.series adapter marketType symbol params route := by
  cases route <;> simp only [LocalBackend.intervalRoute, reduceCtorEq] at hroute
  all_goals
    obtain ⟨rfl, rfl⟩ := Prod.mk.inj (Option.some.inj hroute)
    obtain rfl := Option.some.inj hfallback
    simp only [Service.handler, Service.getCandles, Service.getOpenInterest,
      Service.getLongShortRatio, LocalBackend.series, map_eq_pure_bind]
    rfl

/-- The local backend checks one that it is given. -/
lemma answer_of_interval {route : Route} {label : String} {given : Option String}
    (hroute : LocalBackend.intervalRoute params route = some (label, given)) :
    LocalBackend.answer adapter exchange marketType symbol params route =
      LocalBackend.checkInterval adapter marketType params route >>= fun _ =>
        LocalBackend.series adapter marketType symbol params route := by
  cases route <;> first | rfl | simp [LocalBackend.intervalRoute] at hroute

/-- The other routes are dispatched to the same reads. -/
lemma handler_eq_answer_of_none {route : Route}
    (hroute : LocalBackend.intervalRoute params route = none) :
    Service.handler adapter marketType
        (if route = .markets then "" else symbol) params exchange route =
      LocalBackend.answer adapter exchange marketType symbol params route := by
  cases route <;> first | rfl | simp [LocalBackend.intervalRoute] at hroute

lemma intervalDefault_of_intervalRoute {route : Route} {label : String} {given : Option String}
    (hroute : LocalBackend.intervalRoute params route = some (label, given)) :
    ∃ fallback, intervalDefault route = some fallback := by
  cases route <;> first | exact ⟨_, rfl⟩ | simp [LocalBackend.intervalRoute] at hroute

/-- An interval is refused with a `ValueError`. -/
lemma validateInterval_cases (route label value : String) :
    validateInterval adapter marketType route label value = .ok () ∨
      ∃ m, validateInterval adapter marketType route label value = .error (.valueError m) := by
  unfold validateInterval
  simp only
  split
  · exact Or.inr ⟨_, rfl⟩
  · exact Or.inl rfl

/-- The adapter raises a `ValueError` of its own on the default interval of the route. -/
def Adapter.RefusesDefault : Route → Prop
  | .candles => ∃ m, adapter.getCandles marketType symbol "1h" params.start
      (params.limit.getD 100) = .error (.valueError m)
  | .openInterest => ∃ m, (adapter.getOpenInterest marketType symbol "1h" params.start
      (params.limit.getD 30) >>= joinOpenInterestBasis adapter marketType symbol "1h"
        params.start (params.limit.getD 30)) = .error (.valueError m)
  | .longShortRatio => ∃ m, adapter.getLongShortRatio marketType symbol "5m" params.start
      (params.limit.getD 30) = .error (.valueError m)
  | _ => False

lemma map_eq_error {α β : Type} {f : α → β} {x : Except Fault α} {e : Fault} :
    f <$> x = .error e ↔ x = .error e := by
  cases x <;> simp [Functor.map, Except.map]

/-- The read of a route with its interval left out. -/
lemma series_refused_iff {route : Route} {label : String}
    (hroute : LocalBackend.intervalRoute params route = some (label, none)) :
    (∃ m, LocalBackend.series adapter marketType symbol params route = .error (.valueError m)) ↔
      adapter.RefusesDefault marketType symbol params route := by
  cases route <;> simp only [LocalBackend.intervalRoute, reduceCtorEq] at hroute
  all_goals
    have hgiven := (Prod.mk.inj (Option.some.inj hroute)).2
    simp only [LocalBackend.series, Adapter.RefusesDefault, hgiven, Option.getD_none]
  · simp only [map_eq_error]
  · simp only [← map_eq_pure_bind, ← map_bind, map_eq_error]
  · simp only [map_eq_error]

/-- The default of an interval that is left out passes the service's check, or the adapter
refuses it as the service would. -/
def DefaultServed (route : Route) : Prop :=
  ∀ label fallback, LocalBackend.intervalRoute params route = some (label, none) →
    intervalDefault route = some fallback →
      validateInterval adapter marketType route.name label fallback = .ok () ∨
        adapter.RefusesDefault marketType symbol params route

/-- Only a `ValueError` comes out as a bad request. -/
lemma sameReply_badRequest_iff {e : RouterError} (hcls : e.cls = .badRequest)
    (hstatus : e.status = some 400) (x : Except Fault (Body J)) :
    SameReply (.error (.router e)) (x.mapError errorForFault) ↔
      ∃ m, x = .error (.valueError m) := by
  cases x with
  | ok body => simp [SameReply, Except.mapError]
  | error fault =>
    cases fault <;>
      simp [SameReply, Except.mapError, errorForFault, RouterError.Alike, hcls, hstatus]

/-- The handler and the local dispatch of a served market come out alike if and only if the
default interval does not tell them apart. -/
lemma sameReply_of_handler_iff (route : Route) :
    SameReply
        (replyOf (Service.responseOf
          ((Service.handler adapter marketType (if route = .markets then "" else symbol) params
            exchange route).mapError .fault)))
        ((LocalBackend.answer adapter exchange marketType symbol params route).mapError
          errorForFault) ↔
      DefaultServed adapter marketType symbol params route := by
  cases hroute : LocalBackend.intervalRoute params route with
  | none =>
    rw [handler_eq_answer_of_none adapter marketType exchange symbol params hroute]
    simp [sameReply_of_fault, DefaultServed, hroute]
  | some entry =>
    obtain ⟨label, given⟩ := entry
    obtain ⟨fallback, hfallback⟩ := intervalDefault_of_intervalRoute params hroute
    have hsymbol : (if route = .markets then "" else symbol) = symbol := by
      rw [if_neg]
      rintro rfl
      simp [LocalBackend.intervalRoute] at hroute
    rw [hsymbol, handler_of_interval adapter marketType exchange symbol params hroute hfallback,
      answer_of_interval adapter marketType exchange symbol params hroute,
      LocalBackend.checkInterval, hroute]
    -- an interval that is given is checked on both sides, the default by the service only
    cases given with
    | some value => simp [sameReply_of_fault, DefaultServed, hroute]
    | none =>
      have hserved : DefaultServed adapter marketType symbol params route ↔
          validateInterval adapter marketType route.name label fallback = .ok () ∨
            adapter.RefusesDefault marketType symbol params route := by
        simp [DefaultServed, hroute, hfallback]
      rw [hserved, Option.getD_none]
      rcases validateInterval_cases adapter marketType route.name label fallback with
        hok | ⟨m, herr⟩
      · simp only [hok, true_or, iff_true]
        exact sameReply_of_fault _
      · rw [herr, ← series_refused_iff adapter marketType symbol params hroute]
        simp only [reduceCtorEq, false_or]
        exact sameReply_badRequest_iff rfl rfl _

end

/-! ## The two fetches -/

section

variable {J : Type} {registry : Registry J} {r : Request} {adapter : Adapter J}
  {m : MarketType}

variable (registry) in

/-- A market type that there is not. -/
lemma LocalBackend.fetch_of_invalid (hm : MarketType.ofString r.marketType = none) :
    ∃ detail, LocalBackend.fetch registry r = .error ⟨.routerError, detail, some 422, none⟩ := by
  simp [LocalBackend.fetch, LocalBackend.marketTypeOf, hm, Except.mapError, Bind.bind, Except.bind]

/-- A market type that the exchange lacks. -/
lemma LocalBackend.fetch_of_uncarried (hm : MarketType.ofString r.marketType = some m)
    (hreg : registry r.exchange = some adapter) (hnot : m ∉ adapter.supportedMarketTypes) :
    ∃ detail, LocalBackend.fetch registry r = .error ⟨.badRequest, detail, some 400, none⟩ := by
  simp [LocalBackend.fetch, LocalBackend.marketTypeOf, LocalBackend.dispatch,
    LocalBackend.adapterFor, hm, hreg, hnot, Except.mapError, Bind.bind, Except.bind]

/-- A market type that the exchange has. -/
lemma LocalBackend.fetch_of_carried (hm : MarketType.ofString r.marketType = some m)
    (hreg : registry r.exchange = some adapter) (hcarried : m ∈ adapter.supportedMarketTypes) :
    LocalBackend.fetch registry r =
      (LocalBackend.answer adapter r.exchange m r.symbol r.params r.route).mapError
        errorForFault := by
  simp only [LocalBackend.fetch, LocalBackend.marketTypeOf, LocalBackend.dispatch,
    LocalBackend.adapterFor, hm, hreg, hcarried, Except.mapError, Bind.bind, Except.bind,
    not_true_eq_false, if_false]
  cases LocalBackend.answer adapter r.exchange m r.symbol r.params r.route <;> rfl

/-- The statuses a registered exchange is answered with in this process. -/
lemma LocalBackend.status_of_fetch (hm : MarketType.ofString r.marketType = some m)
    (hreg : registry r.exchange = some adapter) {e : RouterError}
    (he : LocalBackend.fetch registry r = .error e) :
    e.status ∈ [some 400, some 500, some 501, some 502, some 503] := by
  by_cases hcarried : m ∈ adapter.supportedMarketTypes
  · rw [LocalBackend.fetch_of_carried hm hreg hcarried] at he
    cases hanswer : LocalBackend.answer adapter r.exchange m r.symbol r.params r.route with
    | ok body => simp [hanswer, Except.mapError] at he
    | error fault =>
      obtain rfl : errorForFault fault = e := by simpa [hanswer, Except.mapError] using he
      cases fault <;> simp [errorForFault]
  · obtain ⟨detail, heq⟩ := LocalBackend.fetch_of_uncarried hm hreg hcarried
    obtain rfl := Except.error.inj (heq.symm.trans he)
    simp

/-- An answer of another status is not the one of this process. -/
lemma not_sameReply_of_status (hm : MarketType.ofString r.marketType = some m)
    (hreg : registry r.exchange = some adapter) {e : RouterError}
    (he : e.status ∉ [some 400, some 500, some 501, some 502, some 503]) :
    ¬ SameReply (.error (.router e)) (LocalBackend.fetch registry r) := by
  intro hsame
  cases hlocal : LocalBackend.fetch registry r with
  | ok body =>
    rw [hlocal] at hsame
    exact hsame
  | error e' =>
    rw [hlocal] at hsame
    apply he
    rw [hsame.2]
    exact LocalBackend.status_of_fetch hm hreg hlocal

/-- `validate_request` answers 404 or 400. -/
lemma Service.http_of_handle {path : Service.Match} {params : Params} {status : ℕ}
    {detail : String}
    (h : Service.handle registry path m params = .error (.http status detail)) :
    status = 404 ∨ status = 400 := by
  unfold Service.handle at h
  cases hvalid : Service.validateRequest registry path.exchange m with
  | ok adapter =>
    rw [hvalid] at h
    cases hbody : Service.handler adapter m path.symbol params path.exchange path.route <;>
      simp [hbody, Except.mapError, Bind.bind, Except.bind] at h
  | error raised =>
    rw [hvalid] at h
    obtain rfl : raised = .http status detail := by simpa [Bind.bind, Except.bind] using h
    unfold Service.validateRequest at hvalid
    split at hvalid
    · simp only [Except.error.injEq, Service.Raised.http.injEq] at hvalid
      exact Or.inl hvalid.1.symm
    · split at hvalid
      · simp only [Except.error.injEq, Service.Raised.http.injEq] at hvalid
        exact Or.inr hvalid.1.symm
      · simp at hvalid

/-- What a handler raises is not a refused constraint. -/
lemma Service.status_of_handle {path : Service.Match} {params : Params} {e : RouterError}
    (he : replyOf (Service.responseOf (Service.handle registry path m params)) =
      .error (.router e)) : e.status ≠ some 422 := by
  cases hhandle : Service.handle registry path m params with
  | ok body => simp [hhandle, Service.responseOf, replyOf] at he
  | error raised =>
    rw [hhandle] at he
    cases raised with
    | http status detail =>
      obtain rfl := RemoteBackend.Raised.router.inj (Except.error.inj he)
      rw [errorForStatus_status]
      rcases Service.http_of_handle hhandle with rfl | rfl <;> simp
    | fault fault =>
      cases fault <;>
        (obtain rfl := RemoteBackend.Raised.router.inj (Except.error.inj he)
         rw [errorForStatus_status]
         simp)

end

/-! ## What arrives -/

/-- The request arrives as it was made. -/
def Http.Arrives (http : Http) (r : Request) : Prop :=
  http.accepts (endpoint r) r.params = true ∧
    http.arrival (endpoint r) r.params = (Url.segments (endpoint r), some r.params)

instance (http : Http) (r : Request) : Decidable (http.Arrives r) :=
  inferInstanceAs (Decidable (_ ∧ _))

/-- It does if nothing that is pasted into its URL means anything there. -/
lemma Http.arrives_of_plain {http : Http} {r : Request}
    (haccepts : http.accepts (endpoint r) r.params = true) (hplain : Url.IsPlain (endpoint r))
    (hescape : '%' ∉ (endpoint r).toList) : http.Arrives r := by
  refine ⟨haccepts, ?_⟩
  rw [Http.arrival, Url.path_of_plain hplain, Url.normalized_of_plain hplain,
    http.decode_of_notMem _ hescape, Url.query_of_plain hplain]

/-- What arrives reaches a data route, and a constraint of it fails. -/
def Http.Refused (http : Http) (r : Request) : Prop :=
  http.accepts (endpoint r) r.params = true ∧
    ∃ path, Service.matchRoute (http.arrival (endpoint r) r.params).1 = some path ∧
      Service.accepts path (http.arrival (endpoint r) r.params).2 = false

/-- The URL asks for something else that the service has: a data route or another page. -/
def Http.Misread {J : Type} (http : Http) (pages : Service.Pages J) (r : Request) : Prop :=
  ¬ http.Arrives r ∧ http.accepts (endpoint r) r.params = true ∧
    ((∃ path, Service.matchRoute (http.arrival (endpoint r) r.params).1 = some path ∧
        Service.accepts path (http.arrival (endpoint r) r.params).2 = true) ∨
      ∃ response, Service.pageAt pages (http.arrival (endpoint r) r.params).1 = some response)

/-- The path of a data route is longer than that of any page. -/
lemma length_endpoint (r : Request) : 3 ≤ (Url.segments (endpoint r)).length := by
  have hexchange := Url.segments_length_pos r.exchange
  have hmarket := Url.segments_length_pos r.marketType
  by_cases hroute : r.route = .markets
  · have hlast := Url.segments_length_pos "markets"
    simp only [endpoint, hroute, Url.segments_append, List.length_append]
    omega
  · obtain ⟨literal, -, -, hendpoint⟩ := endpoint_symbol hroute
    have hliteral := Url.segments_length_pos literal
    simp only [hendpoint, Url.segments_append, List.length_append]
    omega

/-- A request that arrives as written is none of the other pages. -/
lemma Http.Arrives.pageAt {J : Type} {http : Http} {r : Request} (h : http.Arrives r)
    (pages : Service.Pages J) :
    Service.pageAt pages (http.arrival (endpoint r) r.params).1 = none := by
  have hlong := length_endpoint r
  rw [h.2]
  exact if_neg (Nat.not_le.mpr hlong)

section

variable {J : Type} {http : Http} {registry : Registry J} {r : Request} {adapter : Adapter J}
  {m : MarketType} {unprocessable : Service.Match → Option Params → String}
  {pages : Service.Pages J} {maxRetries : ℕ}

/-- `InvalidURL` reaches the caller. -/
lemma RemoteBackend.fetch_of_not_accepts (h : http.accepts (endpoint r) r.params = false) :
    RemoteBackend.fetch http registry unprocessable pages maxRetries r = .error .escaped := by
  simp only [RemoteBackend.fetch, h, Bool.false_eq_true, if_false]

/-- An accepted request is answered by the service. -/
lemma RemoteBackend.fetch_eq (h : http.accepts (endpoint r) r.params = true) :
    RemoteBackend.fetch http registry unprocessable pages maxRetries r =
      replyOf (Service.respond registry unprocessable pages
        (http.arrival (endpoint r) r.params).1 (http.arrival (endpoint r) r.params).2) := by
  simp only [RemoteBackend.fetch, h, if_true]
  exact fetchLoop_of_const _ maxRetries 0

/-- The service serves a request that arrives as it was made, with its path and numbers in
order. -/
lemma RemoteBackend.fetch_of_routed (hm : MarketType.ofString r.marketType = some m)
    (harrives : http.Arrives r) (hrouted : r.IsRouted)
    (hnumbers : Service.numbersAccepted r.params r.route = true) :
    RemoteBackend.fetch http registry unprocessable pages maxRetries r =
      replyOf (Service.responseOf (Service.handle registry
        ⟨r.route, r.exchange, r.marketType, if r.route = .markets then "" else r.symbol⟩ m
        r.params)) := by
  rw [RemoteBackend.fetch_eq harrives.1, harrives.2]
  simp only [Service.respond, matchRoute_endpoint hm, if_pos hrouted, hm, hnumbers, if_true]

variable (registry unprocessable maxRetries) in
/-- A path that reaches no route is answered 404 or 307. -/
lemma RemoteBackend.fetch_of_unmatched (haccepts : http.accepts (endpoint r) r.params = true)
    (hpath : Service.matchRoute (http.arrival (endpoint r) r.params).1 = none)
    (hpage : Service.pageAt pages (http.arrival (endpoint r) r.params).1 = none) :
    ∃ e, RemoteBackend.fetch http registry unprocessable pages maxRetries r =
      .error (.router e) ∧ (e.status = some 404 ∨ e.status = some 307) := by
  rw [RemoteBackend.fetch_eq haccepts]
  simp only [Service.respond, hpath, hpage]
  split
  · exact ⟨_, rfl, Or.inr (errorForStatus_status _ _ _)⟩
  · exact ⟨_, rfl, Or.inl (errorForStatus_status _ _ _)⟩

variable (registry unprocessable pages maxRetries) in
/-- A constraint that fails is answered 422. -/
lemma RemoteBackend.fetch_of_refused (h : http.Refused r) :
    ∃ detail, RemoteBackend.fetch http registry unprocessable pages maxRetries r =
      .error (.router ⟨.routerError, detail, some 422, none⟩) := by
  obtain ⟨haccepts, path, hpath, hrefused⟩ := h
  rw [RemoteBackend.fetch_eq haccepts]
  simp only [Service.respond, hpath]
  cases hmarket : MarketType.ofString path.marketType with
  | none => exact ⟨_, rfl⟩
  | some market =>
    cases hparams : (http.arrival (endpoint r) r.params).2 with
    | none => exact ⟨_, rfl⟩
    | some params =>
      have hnumbers : Service.numbersAccepted params path.route = false := by
        simpa [Service.accepts, hmarket, hparams] using hrefused
      simp only [hnumbers]
      exact ⟨_, rfl⟩

/-- What a data route serves is never a refused constraint. -/
lemma RemoteBackend.status_of_served (haccepts : http.accepts (endpoint r) r.params = true)
    {path : Service.Match}
    (hpath : Service.matchRoute (http.arrival (endpoint r) r.params).1 = some path)
    (hserved : Service.accepts path (http.arrival (endpoint r) r.params).2 = true)
    {e : RouterError}
    (he : RemoteBackend.fetch http registry unprocessable pages maxRetries r =
      .error (.router e)) : e.status ≠ some 422 := by
  obtain ⟨hmarket, hnumbers⟩ := (Bool.and_eq_true _ _).mp hserved
  obtain ⟨market, hmarket⟩ := Option.isSome_iff_exists.mp hmarket
  obtain ⟨params, hparams, hnumbers⟩ := (Option.any_eq_true _ _).mp hnumbers
  rw [RemoteBackend.fetch_eq haccepts] at he
  simp only [Service.respond, hpath, hmarket, hparams, hnumbers, if_true] at he
  exact Service.status_of_handle he

/-! ## When the two modes read alike -/

/-- A market type outside the enum is refused with 422 in this process, and over HTTP if what
arrives reaches a route whose constraints it then fails. -/
def FetchesAlike (http : Http) (adapter : Adapter J) (r : Request) : Prop :=
  match MarketType.ofString r.marketType with
  | none => http.Refused r
  | some m => http.Arrives r ∧ r.IsRouted ∧ Service.numbersAccepted r.params r.route = true ∧
      (m ∈ adapter.supportedMarketTypes → DefaultServed adapter m r.symbol r.params r.route)

/-- A market type outside the enum that is refused over HTTP. -/
lemma sameReply_of_refused (hm : MarketType.ofString r.marketType = none) (h : http.Refused r) :
    SameReply (RemoteBackend.fetch http registry unprocessable pages maxRetries r)
      (LocalBackend.fetch registry r) := by
  obtain ⟨detail, hlocal⟩ := LocalBackend.fetch_of_invalid registry hm
  obtain ⟨detail', hremote⟩ := RemoteBackend.fetch_of_refused registry unprocessable pages
    maxRetries h
  rw [hlocal, hremote]
  exact ⟨rfl, rfl⟩

/-- A URL that is not accepted, or that asks for nothing the service has, comes out as nothing that
this process knows. -/
lemma not_sameReply_of_unserved {reply : Except RouterError (Body J)}
    (hunserved : http.accepts (endpoint r) r.params = true →
      Service.matchRoute (http.arrival (endpoint r) r.params).1 = none ∧
        Service.pageAt pages (http.arrival (endpoint r) r.params).1 = none)
    (hreply : ∀ e, reply = .error e → e.status ≠ some 404 ∧ e.status ≠ some 307) :
    ¬ SameReply (RemoteBackend.fetch http registry unprocessable pages maxRetries r) reply := by
  intro hsame
  cases haccepts : http.accepts (endpoint r) r.params with
  | false =>
    rw [RemoteBackend.fetch_of_not_accepts haccepts] at hsame
    exact hsame
  | true =>
    obtain ⟨hpath, hpage⟩ := hunserved haccepts
    obtain ⟨e, hremote, hstatus⟩ := RemoteBackend.fetch_of_unmatched registry unprocessable
      maxRetries haccepts hpath hpage
    rw [hremote] at hsame
    cases hend : reply with
    | ok body =>
      rw [hend] at hsame
      exact hsame
    | error e' =>
      rw [hend] at hsame
      rw [hsame.2] at hstatus
      exact hstatus.elim (hreply e' hend).1 (hreply e' hend).2

/-- A market type outside the enum, alike: it was refused, or a page has answered. -/
lemma misread_of_invalid (hm : MarketType.ofString r.marketType = none)
    (hsame : SameReply (RemoteBackend.fetch http registry unprocessable pages maxRetries r)
      (LocalBackend.fetch registry r)) : http.Refused r ∨ http.Misread pages r := by
  obtain ⟨detail, hlocal⟩ := LocalBackend.fetch_of_invalid registry hm
  by_contra hnot
  rw [not_or] at hnot
  refine not_sameReply_of_unserved (fun haccepts => ?_) ?_ hsame
  · cases hpath : Service.matchRoute (http.arrival (endpoint r) r.params).1 with
    | none =>
      refine ⟨rfl, Option.eq_none_iff_forall_ne_some.mpr fun response hpage => hnot.2 ?_⟩
      refine ⟨fun harrives => ?_, haccepts, Or.inr ⟨response, hpage⟩⟩
      exact Option.some_ne_none response (hpage.symm.trans (harrives.pageAt pages))
    | some path =>
      exfalso
      cases hserved : Service.accepts path (http.arrival (endpoint r) r.params).2 with
      | false => exact hnot.1 ⟨haccepts, path, hpath, hserved⟩
      | true =>
        -- a handler answers, and never with the status of a refused constraint
        rw [hlocal] at hsame
        cases hreply : RemoteBackend.fetch http registry unprocessable pages maxRetries r with
        | ok body =>
          rw [hreply] at hsame
          exact hsame
        | error raised =>
          cases raised with
          | escaped =>
            rw [hreply] at hsame
            exact hsame
          | router e =>
            rw [hreply] at hsame
            exact RemoteBackend.status_of_served haccepts hpath hserved hreply hsame.2
  · intro e he
    rw [hlocal] at he
    obtain rfl := Except.error.inj he
    simp

/-- A request of a market type of the enum that arrives as it was made. -/
lemma sameReply_iff_of_arrives (hm : MarketType.ofString r.marketType = some m)
    (hreg : registry r.exchange = some adapter) (harrives : http.Arrives r) :
    SameReply (RemoteBackend.fetch http registry unprocessable pages maxRetries r)
        (LocalBackend.fetch registry r) ↔
      r.IsRouted ∧ Service.numbersAccepted r.params r.route = true ∧
        (m ∈ adapter.supportedMarketTypes → DefaultServed adapter m r.symbol r.params r.route) := by
  have hpath := matchRoute_endpoint hm
  by_cases hrouted : r.IsRouted
  · by_cases hnumbers : Service.numbersAccepted r.params r.route = true
    · rw [RemoteBackend.fetch_of_routed hm harrives hrouted hnumbers]
      simp only [hrouted, hnumbers, true_and]
      by_cases hcarried : m ∈ adapter.supportedMarketTypes
      · rw [LocalBackend.fetch_of_carried hm hreg hcarried]
        have hhandle : Service.handle registry
            ⟨r.route, r.exchange, r.marketType, if r.route = .markets then "" else r.symbol⟩ m
              r.params =
            (Service.handler adapter m (if r.route = .markets then "" else r.symbol) r.params
              r.exchange r.route).mapError .fault := by
          simp [Service.handle, Service.validateRequest, hreg, hcarried, Bind.bind, Except.bind]
        rw [hhandle, sameReply_of_handler_iff]
        simp [hcarried]
      -- `validate_request` and `_adapter` refuse it alike
      · obtain ⟨detail, hlocal⟩ := LocalBackend.fetch_of_uncarried hm hreg hcarried
        rw [hlocal]
        simp only [hcarried, false_implies, iff_true]
        simp only [Service.handle, Service.validateRequest, hreg, hcarried, Bind.bind, Except.bind,
          not_false_eq_true, if_true]
        exact ⟨rfl, rfl⟩
    · have hrefused : http.Refused r := by
        refine ⟨harrives.1, ?_⟩
        rw [harrives.2]
        exact ⟨_, hpath.trans (if_pos hrouted), by simp [Service.accepts, hm, hnumbers]⟩
      obtain ⟨detail, hremote⟩ := RemoteBackend.fetch_of_refused registry unprocessable pages
        maxRetries hrefused
      -- no adapter answers with the status of a refused constraint
      rw [hremote]
      refine iff_of_false ?_ fun h => hnumbers h.2.1
      apply not_sameReply_of_status hm hreg
      simp
  · -- nor with that of a path without a route
    refine iff_of_false ?_ fun h => hrouted h.1
    apply not_sameReply_of_unserved
    · intro _
      refine ⟨?_, harrives.pageAt pages⟩
      rw [harrives.2]
      exact hpath.trans (if_neg hrouted)
    · intro e he
      have hstatus := LocalBackend.status_of_fetch hm hreg he
      constructor <;> intro heq <;> simp [heq] at hstatus

/-- One that does not arrive as it was made, alike: something else was asked for. -/
lemma misread_of_not_arrives (hm : MarketType.ofString r.marketType = some m)
    (hreg : registry r.exchange = some adapter) (hnot : ¬ http.Arrives r)
    (hsame : SameReply (RemoteBackend.fetch http registry unprocessable pages maxRetries r)
      (LocalBackend.fetch registry r)) : http.Misread pages r := by
  by_contra hmisread
  refine not_sameReply_of_unserved (fun haccepts => ?_) (fun e he => ?_) hsame
  · refine ⟨Option.eq_none_iff_forall_ne_some.mpr fun path hpath => ?_,
      Option.eq_none_iff_forall_ne_some.mpr fun response hpage =>
        hmisread ⟨hnot, haccepts, Or.inr ⟨response, hpage⟩⟩⟩
    cases hserved : Service.accepts path (http.arrival (endpoint r) r.params).2 with
    | true => exact hmisread ⟨hnot, haccepts, Or.inl ⟨path, hpath, hserved⟩⟩
    | false =>
      obtain ⟨detail, hremote⟩ := RemoteBackend.fetch_of_refused registry unprocessable pages
        maxRetries ⟨haccepts, path, hpath, hserved⟩
      rw [hremote] at hsame
      exact not_sameReply_of_status hm hreg (by simp) hsame
  · have hstatus := LocalBackend.status_of_fetch hm hreg he
    constructor <;> intro heq <;> simp [heq] at hstatus

end

/-- An adapter that carries spot and has trades, on REST and as a stream. -/
def fakeExchange : Adapter ℕ where
  name := "fake"
  supportedMarketTypes := [.spot]
  getCapabilities := fun market route =>
    if market = .spot ∧ route = "trades" then some ⟨true, []⟩ else none
  getExchangeInfo := fun _ => .ok []
  getSymbolInfo := fun _ _ => .error (.valueError "not listed")
  getTicker := fun _ _ => .error (.valueError "not listed")
  getBookTicker := fun _ _ => .error (.valueError "not listed")
  getMarkPrice := fun _ _ => .error (.notImplemented "Mark Price not supported on fake")
  getOrderbook := fun _ _ _ => .error (.valueError "not listed")
  getTrades := fun _ symbol limit =>
    if symbol = "BTCUSDT" then .ok (List.range limit.toNat) else .error (.valueError "not listed")
  getAggTrades := fun _ _ _ limit => .ok (List.range limit.toNat)
  getCandles := fun _ _ _ _ _ => .ok []
  getOpenInterest := fun _ _ _ _ _ => .error (.notImplemented "Open Interest not supported on fake")
  getFundingRate := fun _ _ _ _ => .error (.notImplemented "Funding Rate not supported on fake")
  getLiquidations := fun _ _ _ _ => .error (.notImplemented "Liquidations not supported on fake")
  getLongShortRatio := fun _ _ _ _ _ => .error (.notImplemented "L/S Ratio not supported on fake")
  getMarginTiers := fun _ _ => .error (.notImplemented "Margin tiers not supported on fake")
  stream := fun channel =>
    if channel = "trades" then
      some fun _ symbol =>
        if symbol = "BTCUSDT" then ⟨[1, 2], .pending⟩
        else ⟨[], .raised (.fault (.valueError "not listed"))⟩
    else none

/-- A registry with the one exchange. -/
def fakeRegistry : Registry ℕ := fun name => if name = "fake" then some fakeExchange else none

/-- `httpx` and the server, where a URL has no escape and its query names no parameter. -/
def plainHttp : Http where
  accepts := fun url _ => url.toList.all fun c => 32 ≤ c.toNat && c.toNat ≠ 127
  decode := id
  read := fun _ params => some params
  decode_of_notMem := fun _ _ => rfl

/-- A question mark in a symbol ends the path: the service is asked for another symbol, which it
has. -/
theorem question_mark_differs :
    plainHttp.Misread (J := ℕ) (fun _ => none) ⟨.trades, "fake", "spot", "BTCUSDT?x", {}⟩ ∧
      ¬ SameReply
        (RemoteBackend.fetch plainHttp fakeRegistry (fun _ _ => "") (fun _ => none) 3
          ⟨.trades, "fake", "spot", "BTCUSDT?x", {}⟩)
        (LocalBackend.fetch fakeRegistry ⟨.trades, "fake", "spot", "BTCUSDT?x", {}⟩) := by
  refine ⟨⟨by decide, by decide, Or.inl ⟨_, rfl, by decide⟩⟩, ?_⟩
  rw [RemoteBackend.fetch_eq (by decide)]
  exact fun hsame => hsame

end ExchangeRouter
