import ExchangeRouter.FetchTheorems

/-!
# Streams through the two backends

What the service opens depends on the endpoint that the URL reaches, and what this process opens on
what it is asked for. They open alike where the capability map says of the channel what the adapter
does. A market type that the service refuses before the upgrade is `NotFound` over the service,
whatever the cause was.
-/

namespace ExchangeRouter

section

variable {J : Type}

/-! ## Openings -/

/-- The stream has items, or is open. -/
def Stream.Starts (x : Stream J) : Prop := x.items ≠ [] ∨ x.opening = .pending

/-- Both start, with the same items, or both raise a `RouterError` of the same class and
status before any item. -/
def SameOpening (x y : Stream J) : Prop :=
  x.Starts ∧ y.Starts ∧ x.items = y.items ∨
    ∃ e e', x = ⟨[], .refused e⟩ ∧ y = ⟨[], .refused e'⟩ ∧ e.Alike e'

/-- The adapter's stream has items, or is open. -/
def StreamRun.Starts (run : StreamRun J) : Prop := run.items ≠ [] ∨ run.ending = .pending

/-- The adapter's stream raises `NotImplementedError` before any item. -/
def StreamRun.IsUnsupported (run : StreamRun J) : Prop :=
  run.items = [] ∧ ∃ message, run.ending = .raised (.fault (.notImplemented message))

/-- The service streams the channel, by its list of channels and the capability map. -/
def Adapter.Streams (adapter : Adapter J) (m : MarketType) (channel : String) : Prop :=
  channel ∈ Service.knownWsChannels ∧ (routeBlock adapter.getCapabilities m channel).ws = true

/-- The endpoint that the URL of a stream reaches: the exchange, its adapter and the market. -/
def Ws.reached (ws : Ws) (registry : Registry J) (exchange marketType : String) :
    Option (String × Adapter J × MarketType) :=
  Service.admitted registry (ws.arrival exchange marketType)

/-- The adapter `a'` at `m'`, which the service asks, and `a` at `m`, which this process asks. A
channel that the service streams has to start on both with the same items; of another one, or
without a symbol, `a` must have no stream. -/
def OpensTogether (a' : Adapter J) (m' : MarketType) (a : Adapter J) (m : MarketType)
    (channel symbol : String) : Prop :=
  (symbol ≠ "" ∧ a'.Streams m' channel → ∃ method' method, a'.stream channel = some method' ∧
      a.stream channel = some method ∧ (method' m' symbol).Starts ∧ (method m symbol).Starts ∧
      (method' m' symbol).items = (method m symbol).items) ∧
    (¬ (symbol ≠ "" ∧ a'.Streams m' channel) →
      ∀ method, a.stream channel = some method → (method m symbol).IsUnsupported)

/-- When a stream opens alike. An exchange that is not registered must not reach an endpoint
either; a market type outside the enum, or one that the exchange does not carry, never opens
alike. -/
def OpensAlike (ws : Ws) (registry : Registry J) (exchange marketType channel symbol : String) :
    Prop :=
  ws.accepts (wsPath exchange marketType) = true ∧
    match MarketType.ofString marketType, registry exchange with
    | none, _ => False
    | some _, none => ws.reached registry exchange marketType = none
    | some m, some adapter => m ∈ adapter.supportedMarketTypes ∧ ∃ name adapter' m',
        ws.reached registry exchange marketType = some (name, adapter', m') ∧
          OpensTogether adapter' m' adapter m channel symbol

/-! ## What a URL reaches -/

/-- A registered exchange reaches itself, if it is one segment and its URL arrives as it was
written: a market that it carries has its endpoint there. -/
lemma Ws.reached_of_plain {ws : Ws} {registry : Registry J} {exchange marketType : String}
    {adapter : Adapter J} {m : MarketType}
    (hdecode : ws.decode (wsPath exchange marketType) = some (wsPath exchange marketType))
    (hplain : Url.IsPlain (wsPath exchange marketType)) (hexchange : IsSegment exchange)
    (hm : MarketType.ofString marketType = some m) (hreg : registry exchange = some adapter) :
    ws.reached registry exchange marketType =
      if m ∈ adapter.supportedMarketTypes then some (exchange, adapter, m) else none := by
  have hpath : ws.arrival exchange marketType = ["ws", exchange, marketType] := by
    have hws : Url.segments "ws" = ["ws"] := Url.segments_of_notMem (by decide)
    rw [Ws.arrival, Url.path_of_plain hplain, hdecode, Option.map_some, Option.getD_some, wsPath]
    simp only [Url.segments_append, hws, Url.segments_of_notMem hexchange.2,
      Url.segments_of_notMem (Service.ofString_notMem hm).2]
    rfl
  rw [Ws.reached, hpath, Service.admitted]
  simp only [hm, hreg, hexchange.1, false_or]
  split <;> simp_all

/-! ## What the service makes of a request -/

variable {ws : Ws} {registry : Registry J} {exchange marketType channel symbol : String}
  {m : MarketType}

/-- The endpoint closes with 1003 what it does not stream. -/
lemma websocketSession_of_not_streams {adapter : Adapter J}
    (h : ¬ (symbol ≠ "" ∧ adapter.Streams m channel)) :
    ∃ reason, Service.websocketSession adapter exchange m channel symbol =
      .opened [] (some (1003, reason)) := by
  unfold Service.websocketSession
  by_cases hempty : channel = "" ∨ symbol = ""
  · exact ⟨"", if_pos hempty⟩
  · rw [if_neg hempty]
    by_cases hknown : channel ∉ Service.knownWsChannels
    · exact ⟨"", if_pos hknown⟩
    · rw [if_neg hknown]
      rw [not_or] at hempty
      rw [not_not] at hknown
      have hws : (routeBlock adapter.getCapabilities m channel).ws = false :=
        Bool.eq_false_iff.mpr fun hws => h ⟨hempty.2, hknown, hws⟩
      rw [if_pos hws]
      exact ⟨_, rfl⟩

/-- It opens the adapter's stream of what it streams. -/
lemma websocketSession_of_streams {adapter : Adapter J} (hsymbol : symbol ≠ "")
    (h : adapter.Streams m channel) :
    Service.websocketSession adapter exchange m channel symbol =
      Service.upstreamHandler adapter m channel symbol := by
  have hchannel : channel ≠ "" := by
    rintro rfl
    exact absurd h.1 (by decide)
  simp [Service.websocketSession, hsymbol, hchannel, h.1, h.2]

section

variable (url : String)

variable (registry channel symbol) in
/-- `InvalidURI` reaches the caller. -/
lemma RemoteBackend.stream_of_not_accepts (h : ws.accepts (wsPath exchange marketType) = false) :
    ∃ message, RemoteBackend.stream ws registry url exchange marketType channel symbol =
      ⟨[], .dropped none message⟩ := by
  simp only [RemoteBackend.stream, h, Bool.false_eq_true, if_false]
  exact ⟨_, rfl⟩

variable (haccepts : ws.accepts (wsPath exchange marketType) = true)
include haccepts

variable (channel symbol) in
/-- A handshake that is refused reaches the caller as `NotFound`. -/
lemma RemoteBackend.stream_of_refused (h : ws.reached registry exchange marketType = none) :
    ∃ detail, RemoteBackend.stream ws registry url exchange marketType channel symbol =
      ⟨[], .refused ⟨.notFound, detail, some 404, none⟩⟩ := by
  rw [Ws.reached] at h
  simp only [RemoteBackend.stream, haccepts, if_true, Service.websocketEndpoint, h]
  exact ⟨_, rfl⟩

variable {name : String} {adapter' : Adapter J} {m' : MarketType}
  (hreached : ws.reached registry exchange marketType = some (name, adapter', m'))
include hreached

/-- A close with 1003 reaches the caller as `NotSupported`. -/
lemma RemoteBackend.stream_of_closed (h : ¬ (symbol ≠ "" ∧ adapter'.Streams m' channel)) :
    ∃ detail, RemoteBackend.stream ws registry url exchange marketType channel symbol =
      ⟨[], .refused ⟨.notSupported, detail, some 501, none⟩⟩ := by
  obtain ⟨reason, hsession⟩ : ∃ reason, Service.websocketSession adapter' name m' channel symbol =
      .opened [] (some (1003, reason)) := websocketSession_of_not_streams h
  rw [Ws.reached] at hreached
  simp only [RemoteBackend.stream, haccepts, if_true, Service.websocketEndpoint, hreached, hsession]
  exact ⟨_, rfl⟩

variable (hsymbol : symbol ≠ "") (hstreams : adapter'.Streams m' channel)
include hsymbol hstreams

/-- The service's stream of a channel that the adapter has. -/
lemma RemoteBackend.stream_of_method {method : MarketType → String → StreamRun J}
    (hmethod : adapter'.stream channel = some method) :
    RemoteBackend.stream ws registry url exchange marketType channel symbol =
      ⟨(method m' symbol).items, if (method m' symbol).ending = .pending then .pending
        else .dropped (some 1011) "Upstream disconnected"⟩ := by
  rw [Ws.reached] at hreached
  simp only [RemoteBackend.stream, haccepts, if_true, Service.websocketEndpoint, hreached,
    websocketSession_of_streams hsymbol hstreams, Service.upstreamHandler, hmethod]
  by_cases hpending : (method m' symbol).ending = .pending
  · simp only [hpending, if_true]
  · simp only [hpending, if_false]
    rfl

/-- One that it has no method for is dropped. -/
lemma RemoteBackend.stream_of_no_method (hmethod : adapter'.stream channel = none) :
    RemoteBackend.stream ws registry url exchange marketType channel symbol =
      ⟨[], .dropped (some 1011) "Upstream disconnected"⟩ := by
  rw [Ws.reached] at hreached
  simp only [RemoteBackend.stream, haccepts, if_true, Service.websocketEndpoint, hreached,
    websocketSession_of_streams hsymbol hstreams, Service.upstreamHandler, hmethod]
  rfl

end

/-! ## What this process makes of it -/

variable (channel symbol) in
/-- The local stream of a carried market. -/
lemma LocalBackend.stream_of_carried {adapter : Adapter J}
    (hm : MarketType.ofString marketType = some m) (hreg : registry exchange = some adapter)
    (hcarried : m ∈ adapter.supportedMarketTypes) :
    (adapter.stream channel = none →
        ∃ detail, LocalBackend.stream registry exchange marketType channel symbol =
          ⟨[], .refused ⟨.notSupported, detail, some 501, none⟩⟩) ∧
      ∀ method, adapter.stream channel = some method →
        LocalBackend.stream registry exchange marketType channel symbol =
          ⟨(method m symbol).items, LocalBackend.openingOf (method m symbol).ending⟩ := by
  unfold LocalBackend.stream
  simp only [LocalBackend.marketTypeOf, hm, LocalBackend.adapterFor, hreg, hcarried,
    not_true_eq_false, if_false]
  refine ⟨fun hnone => ?_, fun method hmethod => ?_⟩
  · rw [hnone]
    exact ⟨_, rfl⟩
  · rw [hmethod]

variable (channel symbol) in
/-- The unregistered exchange, in this process. -/
lemma LocalBackend.stream_of_unregistered (hm : MarketType.ofString marketType = some m)
    (hreg : registry exchange = none) :
    ∃ detail, LocalBackend.stream registry exchange marketType channel symbol =
      ⟨[], .refused ⟨.notFound, detail, some 404, none⟩⟩ := by
  simp [LocalBackend.stream, LocalBackend.marketTypeOf, LocalBackend.adapterFor, hm, hreg]

variable (channel symbol) in
/-- The market that a registered exchange does not carry. -/
lemma LocalBackend.stream_of_uncarried {adapter : Adapter J}
    (hm : MarketType.ofString marketType = some m) (hreg : registry exchange = some adapter)
    (hnot : m ∉ adapter.supportedMarketTypes) :
    ∃ detail, LocalBackend.stream registry exchange marketType channel symbol =
      ⟨[], .refused ⟨.badRequest, detail, some 400, none⟩⟩ := by
  simp [LocalBackend.stream, LocalBackend.marketTypeOf, LocalBackend.adapterFor, hm, hreg, hnot]

variable (registry exchange channel symbol) in
/-- The market type outside the enum. -/
lemma LocalBackend.stream_of_invalid (hm : MarketType.ofString marketType = none) :
    ∃ detail, LocalBackend.stream registry exchange marketType channel symbol =
      ⟨[], .refused ⟨.routerError, detail, some 422, none⟩⟩ := by
  simp [LocalBackend.stream, LocalBackend.marketTypeOf, hm]

/-! ## The two together -/

/-- What is refused has no items. -/
lemma Stream.not_starts_refused {e : RouterError} :
    ¬ (⟨[], .refused e⟩ : Stream J).Starts := by
  rintro (hitems | hpending)
  · exact hitems rfl
  · cases hpending

/-- Two refusals are alike by their errors. -/
lemma sameOpening_refused_iff {e e' : RouterError} :
    SameOpening (J := J) ⟨[], .refused e⟩ ⟨[], .refused e'⟩ ↔ e.Alike e' := by
  constructor
  · rintro (⟨hstarts, -, -⟩ | ⟨f, f', hf, hf', halike⟩)
    · exact absurd hstarts Stream.not_starts_refused
    · injection hf with _ hf
      injection hf' with _ hf'
      injection hf with hf
      injection hf' with hf'
      rw [hf, hf']
      exact halike
  · exact fun halike => Or.inr ⟨e, e', rfl, rfl, halike⟩

/-- A refusal is alike to nothing that starts or is dropped. -/
lemma not_sameOpening_refused {e : RouterError} {y : Stream J}
    (h : ∀ e', y ≠ ⟨[], .refused e'⟩) : ¬ SameOpening y ⟨[], .refused e⟩ := by
  rintro (⟨-, hstarts, -⟩ | ⟨f, f', hf, -, -⟩)
  · exact Stream.not_starts_refused hstarts
  · exact h f hf

/-- What is dropped before any item opens alike with nothing. -/
lemma not_sameOpening_dropped {code : Option ℕ} {message : String} {y : Stream J} :
    ¬ SameOpening ⟨[], .dropped code message⟩ y := by
  rintro (⟨hstarts, -, -⟩ | ⟨f, f', hf, -, -⟩)
  · rcases hstarts with hitems | hpending
    · exact absurd rfl hitems
    · cases hpending
  · cases hf

variable (url : String)

/-- Over the service a stream starts, is dropped, or is refused with 404 or 501. -/
lemma RemoteBackend.stream_cases (ws : Ws) (registry : Registry J)
    (exchange marketType channel symbol : String) :
    (∃ items, RemoteBackend.stream ws registry url exchange marketType channel symbol =
        ⟨items, .pending⟩) ∨
      (∃ items code message, RemoteBackend.stream ws registry url exchange marketType channel
        symbol = ⟨items, .dropped code message⟩) ∨
      (∃ detail, RemoteBackend.stream ws registry url exchange marketType channel symbol =
        ⟨[], .refused ⟨.notFound, detail, some 404, none⟩⟩) ∨
      ∃ detail, RemoteBackend.stream ws registry url exchange marketType channel symbol =
        ⟨[], .refused ⟨.notSupported, detail, some 501, none⟩⟩ := by
  cases haccepts : ws.accepts (wsPath exchange marketType) with
  | false =>
    obtain ⟨message, heq⟩ :=
      RemoteBackend.stream_of_not_accepts registry channel symbol url haccepts
    exact Or.inr (Or.inl ⟨_, _, _, heq⟩)
  | true =>
    cases hreached : ws.reached registry exchange marketType with
    | none =>
      exact Or.inr (Or.inr (Or.inl (RemoteBackend.stream_of_refused channel symbol url haccepts
        hreached)))
    | some entry =>
      obtain ⟨name, adapter', m'⟩ := entry
      by_cases hstreams : symbol ≠ "" ∧ adapter'.Streams m' channel
      · cases hmethod : adapter'.stream channel with
        | none =>
          exact Or.inr (Or.inl ⟨_, _, _, RemoteBackend.stream_of_no_method url haccepts hreached
            hstreams.1 hstreams.2 hmethod⟩)
        | some method =>
          have heq := RemoteBackend.stream_of_method url haccepts hreached hstreams.1 hstreams.2
            hmethod
          by_cases hpending : (method m' symbol).ending = .pending
          · rw [if_pos hpending] at heq
            exact Or.inl ⟨_, heq⟩
          · rw [if_neg hpending] at heq
            exact Or.inr (Or.inl ⟨_, _, _, heq⟩)
      · exact Or.inr (Or.inr (Or.inr (RemoteBackend.stream_of_closed url haccepts hreached
          hstreams)))

/-- What this process refuses with another status opens alike with nothing over the service. -/
lemma not_sameOpening_of_status {e : RouterError} (hstatus : e.status ≠ some 404)
    (hstatus' : e.status ≠ some 501) :
    ¬ SameOpening (RemoteBackend.stream ws registry url exchange marketType channel symbol)
      ⟨[], .refused e⟩ := by
  rcases RemoteBackend.stream_cases url ws registry exchange marketType channel symbol with
    ⟨items, heq⟩ | ⟨items, code, message, heq⟩ | ⟨detail, heq⟩ | ⟨detail, heq⟩ <;> rw [heq]
  · exact not_sameOpening_refused fun e' he' => by cases he'
  · exact not_sameOpening_refused fun e' he' => by cases he'
  · rw [sameOpening_refused_iff]
    exact fun h => hstatus h.2.symm
  · rw [sameOpening_refused_iff]
    exact fun h => hstatus' h.2.symm

/-- A stream of an adapter opens alike with `NotSupported` if it raises `NotImplementedError`. -/
lemma sameOpening_notSupported_iff {detail : String} {run : StreamRun J} :
    SameOpening ⟨[], .refused ⟨.notSupported, detail, some 501, none⟩⟩
        ⟨run.items, LocalBackend.openingOf run.ending⟩ ↔ run.IsUnsupported := by
  constructor
  · rintro (⟨hstarts, -, -⟩ | ⟨e, e', he, he', halike⟩)
    · exact absurd hstarts Stream.not_starts_refused
    · injection he with _ he
      injection he with he
      injection he' with hitems hending
      refine ⟨hitems, ?_⟩
      rw [← he] at halike
      cases hrun : run.ending with
      | pending => simp [hrun, LocalBackend.openingOf] at hending
      | ended => simp [hrun, LocalBackend.openingOf] at hending
      | raised fault =>
        rw [hrun] at hending
        cases fault with
        | transport code message =>
          simp only [LocalBackend.openingOf] at hending
          split at hending
          · injection hending with hending
            rw [← hending] at halike
            exact absurd halike.2 (by simp [errorForFault])
          · cases hending
        | fault f =>
          injection hending with hending
          rw [← hending] at halike
          -- of the faults only this one has the status
          cases f with
          | notImplemented message => exact ⟨message, rfl⟩
          | _ => exact absurd halike.2 (by simp [errorForFault])
  · rintro ⟨hitems, message, hending⟩
    rw [hitems, hending]
    exact Or.inr ⟨_, _, rfl, rfl, rfl, rfl⟩

/-- A stream that is still open or dropped opens alike with an adapter's if both start. -/
lemma sameOpening_started_iff {items : List J} {pending : Bool} {run : StreamRun J} :
    SameOpening
        ⟨items, if pending then .pending else .dropped (some 1011) "Upstream disconnected"⟩
        ⟨run.items, LocalBackend.openingOf run.ending⟩ ↔
      (items ≠ [] ∨ pending = true) ∧ run.Starts ∧ items = run.items := by
  have hopen : LocalBackend.openingOf run.ending = .pending ↔ run.ending = .pending := by
    cases hrun : run.ending with
    | raised fault =>
      cases fault <;> simp only [LocalBackend.openingOf]
      · simp
      · split <;> simp
    | _ => simp [LocalBackend.openingOf]
  constructor
  · rintro (⟨hstarts, hstarts', heq⟩ | ⟨e, e', he, -, -⟩)
    · refine ⟨hstarts.imp_right fun hpending => ?_, hstarts'.imp_right hopen.mp, heq⟩
      cases pending with
      | true => rfl
      | false => cases hpending
    · injection he with _ he
      cases pending <;> cases he
  · rintro ⟨hstarts, hstarts', heq⟩
    refine Or.inl ⟨hstarts.imp_right fun hpending => ?_, hstarts'.imp_right hopen.mpr, heq⟩
    simp [hpending]

/-- No exception of an adapter becomes a `NotFound`. -/
lemma LocalBackend.status_of_openingOf {ending : StreamEnd} {e : RouterError}
    (h : LocalBackend.openingOf ending = .refused e) : e.status ≠ some 404 := by
  cases ending with
  | pending => cases h
  | ended => cases h
  | raised fault =>
    cases fault with
    | fault f =>
      obtain rfl := Opening.refused.inj h
      cases f <;> simp [errorForFault]
    | transport code message =>
      simp only [LocalBackend.openingOf] at h
      split at h
      · obtain rfl := Opening.refused.inj h
        simp [errorForFault]
      · cases h

/-- A market that the exchange carries is never `NotFound` in this process. -/
lemma not_sameOpening_notFound {adapter : Adapter J} {detail : String}
    (hm : MarketType.ofString marketType = some m) (hreg : registry exchange = some adapter)
    (hcarried : m ∈ adapter.supportedMarketTypes) :
    ¬ SameOpening ⟨[], .refused ⟨.notFound, detail, some 404, none⟩⟩
      (LocalBackend.stream registry exchange marketType channel symbol) := by
  have hlocal := LocalBackend.stream_of_carried channel symbol hm hreg hcarried
  cases hmethod : adapter.stream channel with
  | none =>
    obtain ⟨detail', heq⟩ := hlocal.1 hmethod
    rw [heq, sameOpening_refused_iff]
    simp [RouterError.Alike]
  | some method =>
    rw [hlocal.2 method hmethod]
    rintro (⟨hstarts, -, -⟩ | ⟨e, e', he, he', halike⟩)
    · exact Stream.not_starts_refused hstarts
    · injection he with _ he
      injection he with he
      injection he' with _ hending
      refine LocalBackend.status_of_openingOf hending ?_
      rw [← halike.2, ← he]

/-- A market that the exchange carries. -/
lemma sameOpening_carried_iff {adapter : Adapter J}
    (hm : MarketType.ofString marketType = some m) (hreg : registry exchange = some adapter)
    (hcarried : m ∈ adapter.supportedMarketTypes)
    (haccepts : ws.accepts (wsPath exchange marketType) = true) {name : String}
    {adapter' : Adapter J} {m' : MarketType}
    (hreached : ws.reached registry exchange marketType = some (name, adapter', m')) :
    SameOpening (RemoteBackend.stream ws registry url exchange marketType channel symbol)
        (LocalBackend.stream registry exchange marketType channel symbol) ↔
      OpensTogether adapter' m' adapter m channel symbol := by
  have hlocal := LocalBackend.stream_of_carried channel symbol hm hreg hcarried
  unfold OpensTogether
  by_cases hstreams : symbol ≠ "" ∧ adapter'.Streams m' channel
  · simp only [hstreams, not_true_eq_false, false_implies, and_true, true_implies, ne_eq,
      not_false_eq_true]
    cases hmethod' : adapter'.stream channel with
    | none =>
      rw [RemoteBackend.stream_of_no_method url haccepts hreached hstreams.1 hstreams.2 hmethod']
      simp [not_sameOpening_dropped]
    | some method' =>
      rw [RemoteBackend.stream_of_method url haccepts hreached hstreams.1 hstreams.2 hmethod']
      cases hmethod : adapter.stream channel with
      | none =>
        obtain ⟨detail, hlocal⟩ := hlocal.1 hmethod
        rw [hlocal]
        simp only [reduceCtorEq, false_and, and_false, exists_false, iff_false]
        exact not_sameOpening_refused fun e' he' => by
          injection he' with _ he'
          split at he' <;> cases he'
      | some method =>
        rw [hlocal.2 method hmethod]
        have hiff := @sameOpening_started_iff J (method' m' symbol).items
          (decide ((method' m' symbol).ending = .pending)) (method m symbol)
        simp only [decide_eq_true_eq] at hiff
        rw [hiff]
        simp [StreamRun.Starts]
  · simp only [hstreams, false_implies, true_and, not_false_eq_true, true_implies]
    obtain ⟨detail, hremote⟩ := RemoteBackend.stream_of_closed url haccepts hreached hstreams
    rw [hremote]
    cases hmethod : adapter.stream channel with
    | none =>
      obtain ⟨detail', hlocal⟩ := hlocal.1 hmethod
      rw [hlocal, sameOpening_refused_iff]
      simp [RouterError.Alike]
    | some method =>
      rw [hlocal.2 method hmethod, sameOpening_notSupported_iff]
      simp

end

/-- A stream opens alike in both modes if and only if `OpensAlike` holds of it. -/
theorem streams_open_alike_iff {J : Type} (ws : Ws) (registry : Registry J)
    (url exchange marketType channel symbol : String) :
    SameOpening (RemoteBackend.stream ws registry url exchange marketType channel symbol)
        (LocalBackend.stream registry exchange marketType channel symbol) ↔
      OpensAlike ws registry exchange marketType channel symbol := by
  unfold OpensAlike
  cases haccepts : ws.accepts (wsPath exchange marketType) with
  | false =>
    obtain ⟨message, hremote⟩ := RemoteBackend.stream_of_not_accepts registry channel symbol url
      haccepts
    rw [hremote]
    simp [not_sameOpening_dropped]
  | true =>
    cases hm : MarketType.ofString marketType with
    | none =>
      obtain ⟨detail, hlocal⟩ := LocalBackend.stream_of_invalid registry exchange channel symbol hm
      rw [hlocal]
      exact iff_of_false (not_sameOpening_of_status url (by simp) (by simp)) fun h => h.2
    | some m =>
      cases hreg : registry exchange with
      | none =>
        obtain ⟨detail, hlocal⟩ := LocalBackend.stream_of_unregistered channel symbol hm hreg
        rw [hlocal]
        simp only [true_and]
        -- the only 404 of the service is the handshake that it refuses
        cases hreached : ws.reached registry exchange marketType with
        | none =>
          obtain ⟨detail', hremote⟩ := RemoteBackend.stream_of_refused channel symbol url haccepts
            hreached
          rw [hremote, sameOpening_refused_iff]
          exact iff_of_true ⟨rfl, rfl⟩ rfl
        | some entry =>
          obtain ⟨name, adapter', m'⟩ := entry
          refine iff_of_false ?_ (by simp)
          by_cases hstreams : symbol ≠ "" ∧ adapter'.Streams m' channel
          · cases hmethod : adapter'.stream channel with
            | none =>
              rw [RemoteBackend.stream_of_no_method url haccepts hreached hstreams.1 hstreams.2
                hmethod]
              exact not_sameOpening_dropped
            | some method =>
              rw [RemoteBackend.stream_of_method url haccepts hreached hstreams.1 hstreams.2
                hmethod]
              exact not_sameOpening_refused fun e' he' => by
                injection he' with _ he'
                split at he' <;> cases he'
          · obtain ⟨detail', hremote⟩ := RemoteBackend.stream_of_closed url haccepts hreached
              hstreams
            rw [hremote, sameOpening_refused_iff]
            simp [RouterError.Alike]
      | some adapter =>
        by_cases hcarried : m ∈ adapter.supportedMarketTypes
        · simp only [hcarried, true_and]
          cases hreached : ws.reached registry exchange marketType with
          | none =>
            obtain ⟨detail, hremote⟩ := RemoteBackend.stream_of_refused channel symbol url haccepts
              hreached
            rw [hremote]
            exact iff_of_false (not_sameOpening_notFound hm hreg hcarried) (by simp)
          | some entry =>
            obtain ⟨name, adapter', m'⟩ := entry
            rw [sameOpening_carried_iff url hm hreg hcarried haccepts hreached]
            simp
        · obtain ⟨detail, hlocal⟩ := LocalBackend.stream_of_uncarried channel symbol hm hreg
            hcarried
          rw [hlocal]
          refine iff_of_false (not_sameOpening_of_status url (by simp) (by simp)) fun h => ?_
          exact hcarried h.2.1

/-- `websockets` and the server, where a URL has no escape. -/
def plainWs : Ws where
  accepts := fun url => url.toList.all fun c => 32 < c.toNat && c.toNat < 127
  decode := some

/-- The trades of a market that the adapter carries and declares open alike. -/
example : SameOpening
    (RemoteBackend.stream plainWs fakeRegistry "http://router" "fake" "spot" "trades" "BTCUSDT")
    (LocalBackend.stream fakeRegistry "fake" "spot" "trades" "BTCUSDT") :=
  Or.inl ⟨Or.inr rfl, Or.inr rfl, rfl⟩

/-- An unknown symbol is a close with 1011 over the service, which is no `RouterError`, and a bad
request in this process. -/
theorem unknown_symbol_differs :
    RemoteBackend.stream plainWs fakeRegistry "http://router" "fake" "spot" "trades" "NOPE" =
        ⟨[], .dropped (some 1011) "Upstream disconnected"⟩ ∧
      LocalBackend.stream fakeRegistry "fake" "spot" "trades" "NOPE" =
        ⟨[], .refused ⟨.badRequest, "not listed", some 400, none⟩⟩ ∧
      ¬ SameOpening
        (RemoteBackend.stream plainWs fakeRegistry "http://router" "fake" "spot" "trades" "NOPE")
        (LocalBackend.stream fakeRegistry "fake" "spot" "trades" "NOPE") := by
  have hplain : Url.IsPlain (wsPath "fake" "spot") := by decide
  have hreg : fakeRegistry "fake" = some fakeExchange := rfl
  have hreached : plainWs.reached fakeRegistry "fake" "spot" =
      some ("fake", fakeExchange, .spot) :=
    (Ws.reached_of_plain rfl hplain (by decide) rfl hreg).trans (if_pos (by decide))
  have hstreams : fakeExchange.Streams .spot "trades" := ⟨by decide, rfl⟩
  have hremote : RemoteBackend.stream plainWs fakeRegistry "http://router" "fake" "spot" "trades"
      "NOPE" = ⟨[], .dropped (some 1011) "Upstream disconnected"⟩ :=
    RemoteBackend.stream_of_method "http://router" (by decide) hreached (by decide) hstreams rfl
  refine ⟨hremote, rfl, ?_⟩
  rw [hremote]
  exact not_sameOpening_dropped

/-- A question mark in a market type ends the path: the service opens the market before it. -/
theorem question_mark_opens :
    RemoteBackend.stream plainWs fakeRegistry "http://router" "fake" "spot?x" "trades" "BTCUSDT" =
        ⟨[1, 2], .pending⟩ ∧
      ¬ SameOpening
        (RemoteBackend.stream plainWs fakeRegistry "http://router" "fake" "spot?x" "trades"
          "BTCUSDT")
        (LocalBackend.stream fakeRegistry "fake" "spot?x" "trades" "BTCUSDT") := by
  have hremote : RemoteBackend.stream plainWs fakeRegistry "http://router" "fake" "spot?x" "trades"
      "BTCUSDT" = ⟨[1, 2], .pending⟩ := by decide
  refine ⟨hremote, ?_⟩
  have hm : MarketType.ofString "spot?x" = none := rfl
  obtain ⟨detail, hlocal⟩ :=
    LocalBackend.stream_of_invalid fakeRegistry "fake" "trades" "BTCUSDT" hm
  rw [hlocal]
  exact not_sameOpening_of_status "http://router" (by simp) (by simp)

end ExchangeRouter
