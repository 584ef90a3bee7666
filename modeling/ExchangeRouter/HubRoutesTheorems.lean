import ExchangeRouter.HubRoutes
import ExchangeRouter.Lib.DropQueue

/-!
# Which frames a hub survives

A callback that indexes, calls or returns a part of a frame without having looked at its type
raises on some frames, or hands the loop a topic that `_queues` cannot look up. `Feed.Admits`
says for each hub which frames are none of these, and `hub_never_dropped_iff` that in every run
of a hub no frame ends the receive loop exactly when all of them are admitted.
-/

namespace ExchangeRouter
namespace HubRoutes

open MakeRequest (Json)
open Transition

/-! ## The frames of each hub -/

/-- `None` or a topic with a hash, and nothing raised. -/
def Routed : Except RouteError (Option Json) → Prop
  | .error _ => False
  | .ok none => True
  | .ok (some topic) => hashable topic = true

/-- The value can be written out. -/
def Formats (repr : Json → Option String) : Json → Prop
  | .str _ => True
  | value => (repr value).isSome = true

/-- What the callback needs of a dictionary. -/
def Feed.AdmitsFields (repr : Json → Option String) : Feed → List (String × Json) → Prop
  | .binance, msg => hashable (get msg "stream") = true
  | .bybit, msg => hashable (get msg "topic") = true
  | .kucoin, msg => get msg "type" = .str "message" → hashable (get msg "topic") = true
  | .okx, msg => ∀ arg, get msg "arg" = .obj arg → hasKey msg "data" = true →
      (hasKey arg "channel" = true → Formats repr (get arg "channel")) ∧
        Formats repr (orElse (orElse (get arg "instId") (get arg "instType")) (.str ""))
  | .hyperliquid, msg =>
      (get msg "channel" = .str "trades" → ∀ first rest, get msg "data" = .arr (first :: rest) →
        ∃ trade, first = .obj trade ∧
          ((get trade "coin").truthy = true → Formats repr (get trade "coin"))) ∧
      (get msg "channel" = .str "candle" → ∀ candle, get msg "data" = .obj candle →
        Formats repr (get candle "s") ∧ Formats repr (get candle "i")) ∧
      (Hyperliquid.unrouted (get msg "channel") = false → get msg "channel" ≠ .str "trades" →
        get msg "channel" ≠ .str "candle" → ∀ data, get msg "data" = .obj data →
        (get data "coin").truthy = true →
        Formats repr (get msg "channel") ∧ Formats repr (get data "coin"))
  | .krakenSpot, msg => ∀ first rest, get msg "data" = .arr (.obj first :: rest) →
      (get msg "channel").truthy = true → (get first "symbol").truthy = true →
      Formats repr (get msg "channel") ∧ Formats repr (get first "symbol")
  | .krakenFutures, msg => (get msg "feed").truthy = true →
      (get msg "product_id").truthy = true →
      (∃ feed, get msg "feed" = .str feed) ∧ Formats repr (get msg "product_id")

/-- The hub survives the frame. Nothing but a dictionary is routed. -/
def Feed.Admits (repr : Json → Option String) (feed : Feed) (msg : Json) : Prop :=
  ∀ fields, msg = .obj fields → feed.AdmitsFields repr fields

variable {repr : Json → Option String}

/-! ## The callbacks -/

lemma routed_none : Routed (.ok none) := trivial

/-- A value is a topic when it can be a key. -/
lemma routed_optional_iff (value : Json) :
    Routed (.ok (optional value)) ↔ hashable value = true := by
  cases value <;> simp [Routed, optional, hashable]

lemma isStr_iff (s : String) (value : Json) : value.isStr s = true ↔ value = .str s := by
  cases value <;> simp [Json.isStr]

/-- Writing out a value raises or gives a text. -/
lemma format_cases (repr : Json → Option String) (value : Json) :
    (∃ text, format repr value = .ok text ∧ Formats repr value) ∨
      ∃ e, format repr value = .error e ∧ ¬ Formats repr value := by
  cases value with
  | str s => exact .inl ⟨s, rfl, trivial⟩
  | _ =>
    simp only [format, Formats]
    split
    · next hrepr => exact .inl ⟨_, rfl, by simp [hrepr]⟩
    · next hrepr => exact .inr ⟨_, rfl, by simp [hrepr]⟩

/-- A topic made of two values is one where both can be written out. -/
lemma routed_pair_iff (a b : Json) (topic : String → String → String) :
    Routed (do
      let a ← format repr a
      let b ← format repr b
      return some (.str (topic a b))) ↔ Formats repr a ∧ Formats repr b := by
  rcases format_cases repr a with ⟨s, hs, ha⟩ | ⟨e, he, ha⟩
  · rcases format_cases repr b with ⟨t, ht, hb⟩ | ⟨e, he, hb⟩
    · refine iff_of_true ?_ ⟨ha, hb⟩
      rw [hs, ht]
      rfl
    · refine iff_of_false ?_ fun h => hb h.2
      rw [hs, he]
      exact id
  · refine iff_of_false ?_ fun h => ha h.1
    rw [he]
    exact id

/-- A joined topic is there when both its parts can be formatted. -/
lemma routed_joined_iff (a b : Json) :
    Routed (joined repr a b) ↔ Formats repr a ∧ Formats repr b :=
  routed_pair_iff a b fun a b => a ++ ":" ++ b

/-- When OKX's argument has a topic. -/
lemma Okx.routed_topicKeyForArg_iff (arg : List (String × Json)) :
    Routed (Okx.topicKeyForArg repr arg) ↔
      (hasKey arg "channel" = true → Formats repr (get arg "channel")) ∧
        Formats repr (orElse (orElse (get arg "instId") (get arg "instType")) (.str "")) := by
  unfold Okx.topicKeyForArg
  rw [routed_joined_iff]
  by_cases h : hasKey arg "channel" = true
  · simp [h]
  · simp [h, Formats]

/-- When a coin of Hyperliquid has a topic. -/
lemma Hyperliquid.routed_coinTopic_iff (channel : Json) (data : List (String × Json)) :
    Routed (Hyperliquid.coinTopic repr channel data) ↔
      ((get data "coin").truthy = true →
        Formats repr channel ∧ Formats repr (get data "coin")) := by
  unfold Hyperliquid.coinTopic
  by_cases h : (get data "coin").truthy = true
  · simp [h, routed_joined_iff]
  · simp [h, routed_none]

lemma Hyperliquid.routed_candle_iff (candle : List (String × Json)) :
    Routed (Hyperliquid.routeData repr (.str "candle") (.obj candle)) ↔
      Formats repr (get candle "s") ∧ Formats repr (get candle "i") :=
  routed_pair_iff _ _ fun s i => "candle:" ++ s ++ ":" ++ i

/-- A trade list whose first trade is no dictionary is the one shape that raises. -/
lemma Hyperliquid.routed_trades_iff (data : Json) :
    Routed (Hyperliquid.routeData repr (.str "trades") data) ↔
      ∀ first rest, data = .arr (first :: rest) → ∃ trade, first = .obj trade ∧
        ((get trade "coin").truthy = true → Formats repr (get trade "coin")) := by
  cases data with
  | arr xs =>
    rcases xs with _ | ⟨first, rest⟩
    · exact iff_of_true trivial (by simp)
    · cases first with
      | obj trade =>
        have hroute : Hyperliquid.routeData repr (.str "trades") (.arr (.obj trade :: rest)) =
            Hyperliquid.coinTopic repr (.str "trades") trade := rfl
        rw [hroute, Hyperliquid.routed_coinTopic_iff]
        simp [Formats]
      | _ => exact iff_of_false id (by simp)
  | _ => exact iff_of_true trivial (by simp)

/-- When a channel that names its coin has a topic. -/
lemma Hyperliquid.routed_coin_iff {channel : Json} (htrades : channel ≠ .str "trades")
    (hcandle : channel ≠ .str "candle") (data : Json) :
    Routed (Hyperliquid.routeData repr channel data) ↔
      ∀ fields, data = .obj fields → (get fields "coin").truthy = true →
        Formats repr channel ∧ Formats repr (get fields "coin") := by
  unfold Hyperliquid.routeData
  rw [if_neg (mt (isStr_iff _ _).1 htrades), if_neg (mt (isStr_iff _ _).1 hcandle)]
  cases data with
  | obj fields => simp [Hyperliquid.routed_coinTopic_iff]
  | _ => exact iff_of_true trivial (by simp)

/-- The channel under its new name is routed as under its own. -/
lemma Hyperliquid.routed_route_iff (msg : List (String × Json)) :
    Routed (Hyperliquid.route repr (.obj msg)) ↔ Feed.AdmitsFields repr .hyperliquid msg := by
  unfold Hyperliquid.route Feed.AdmitsFields
  by_cases hunrouted : Hyperliquid.unrouted (get msg "channel") = true
  · -- a channel that is not routed is neither of the two that have a shape of their own
    have htrades : get msg "channel" ≠ .str "trades" := by
      intro h
      rw [h] at hunrouted
      exact absurd hunrouted (by decide)
    have hcandle : get msg "channel" ≠ .str "candle" := by
      intro h
      rw [h] at hunrouted
      exact absurd hunrouted (by decide)
    simp [hunrouted, htrades, hcandle, routed_none]
  · simp only [hunrouted, if_false, Bool.false_eq_true]
    by_cases hspot : get msg "channel" = .str "activeSpotAssetCtx"
    · have hname : (get msg "channel").isStr "activeSpotAssetCtx" = true := (isStr_iff _ _).2 hspot
      rw [if_pos hname, Hyperliquid.routed_coin_iff (by simp) (by simp)]
      simp [hspot, Formats]
    · rw [if_neg (mt (isStr_iff _ _).1 hspot)]
      by_cases htrades : get msg "channel" = .str "trades"
      · rw [htrades, Hyperliquid.routed_trades_iff]
        simp
      · by_cases hcandle : get msg "channel" = .str "candle"
        · rw [hcandle]
          cases hdata : get msg "data" with
          | obj candle => simp [Hyperliquid.routed_candle_iff]
          | _ => exact iff_of_true trivial (by simp)
        · rw [Hyperliquid.routed_coin_iff htrades hcandle]
          simp [htrades, hcandle]

/-- When a message of Kraken's Spot feed is routed. -/
lemma Kraken.routed_routeSpot_iff (msg : List (String × Json)) :
    Routed (Kraken.routeSpot repr (.obj msg)) ↔ Feed.AdmitsFields repr .krakenSpot msg := by
  unfold Kraken.routeSpot Feed.AdmitsFields
  dsimp only
  cases get msg "data" with
  | arr xs =>
    rcases xs with _ | ⟨first, rest⟩
    · exact iff_of_true trivial (by simp)
    · cases first with
      | obj first =>
        simp only [Json.arr.injEq, List.cons.injEq, Json.obj.injEq, and_imp]
        by_cases htruthy : ((get msg "channel").truthy && (get first "symbol").truthy) = true
        · obtain ⟨hch, hsym⟩ := Bool.and_eq_true_iff.1 htruthy
          simp [hch, hsym, routed_joined_iff]
        · -- without a channel and a symbol there is no topic to make
          simp only [htruthy, if_false, Bool.false_eq_true]
          refine iff_of_true routed_none ?_
          rintro first' rest' rfl rfl hch hsym
          exact absurd (Bool.and_eq_true_iff.2 ⟨hch, hsym⟩) htruthy
      | _ => exact iff_of_true trivial (by simp)
  | _ => exact iff_of_true trivial (by simp)

/-- When a message of Kraken's Futures feed is routed. -/
lemma Kraken.routed_routeFutures_iff (msg : List (String × Json)) :
    Routed (Kraken.routeFutures repr (.obj msg)) ↔
      Feed.AdmitsFields repr .krakenFutures msg := by
  unfold Kraken.routeFutures Feed.AdmitsFields
  by_cases htruthy : ((get msg "feed").truthy && (get msg "product_id").truthy) = true
  · obtain ⟨hfeed, hpid⟩ := Bool.and_eq_true_iff.1 htruthy
    simp only [hfeed, hpid, Bool.and_self, if_true, true_implies]
    -- `feed.endswith` of anything but a text raises
    cases get msg "feed" with
    | str feed => simp [routed_joined_iff, Formats]
    | _ => exact iff_of_false id (by simp)
  · simp only [htruthy, if_false, Bool.false_eq_true]
    refine iff_of_true routed_none fun hfeed hpid => ?_
    exact absurd (Bool.and_eq_true_iff.2 ⟨hfeed, hpid⟩) htruthy

/-- A callback keeps to its type exactly on the frames that it admits. -/
lemma Feed.routed_route_iff (repr : Json → Option String) (feed : Feed) (msg : Json) :
    Routed (feed.route repr msg) ↔ feed.Admits repr msg := by
  unfold Feed.Admits
  cases msg with
  | obj fields =>
    simp only [Json.obj.injEq, forall_eq']
    cases feed with
    | binance => exact routed_optional_iff _
    | bybit => exact routed_optional_iff _
    | kucoin =>
      by_cases htype : get fields "type" = .str "message"
      · simp [Feed.route, Kucoin.route, Feed.AdmitsFields, htype, Json.isStr, routed_optional_iff]
      · have hname := mt (isStr_iff _ _).1 htype
        simp [Feed.route, Kucoin.route, Feed.AdmitsFields, htype, hname, routed_none]
    | okx =>
      show Routed (Okx.route repr (.obj fields)) ↔ _
      unfold Okx.route Feed.AdmitsFields
      dsimp only
      cases get fields "arg" with
      | obj arg =>
        by_cases hdata : hasKey fields "data" = true
        · simp [hdata, Okx.routed_topicKeyForArg_iff]
        · simp [hdata, routed_none]
      | _ => exact iff_of_true trivial (by simp)
    | hyperliquid => exact Hyperliquid.routed_route_iff fields
    | krakenSpot => exact Kraken.routed_routeSpot_iff fields
    | krakenFutures => exact Kraken.routed_routeFutures_iff fields
  | _ =>
    refine iff_of_true ?_ (by simp)
    cases feed <;> exact routed_none

/-! ## One frame -/

variable {P : StreamHub.Payloads String} {feed : Feed} {s s' : Hub}

/-- A frame that the hub survives, where the event is one. -/
def Event.Admits (repr : Json → Option String) (feed : Feed) : Event → Prop
  | .base _ => True
  | .frame _ none => True
  | .frame _ (some msg) => feed.Admits repr msg
  | .get _ => True

/-- An admitted frame changes nothing but the queues. -/
lemma receive_of_admits {msg : Json} (h : feed.Admits repr msg) :
    ∃ s', s.receive (feed.route repr) (some msg) = .ok s' ∧ s'.base = s.base ∧
      s'.dropped = s.dropped := by
  have hrouted := (feed.routed_route_iff repr msg).2 h
  unfold Hub.receive
  split
  · next heq => simp at heq
  · exact ⟨s, rfl, rfl, rfl⟩
  · next msg' _ heq =>
    obtain rfl : msg = msg' := Option.some.inj heq
    cases hroute : feed.route repr msg with
    | error e =>
      rw [hroute] at hrouted
      exact hrouted.elim
    | ok topic =>
      cases topic with
      | none => exact ⟨s, rfl, rfl, rfl⟩
      | some topic =>
        rw [hroute] at hrouted
        have htopic : hashable topic = true := hrouted
        exact ⟨s.deliver topic msg, if_pos htopic, rfl, rfl⟩

/-- Any other raises, in the callback or at the table. -/
lemma receive_of_not_admits {msg : Json} (h : ¬ feed.Admits repr msg) :
    ∃ e, s.receive (feed.route repr) (some msg) = .error e := by
  have hrouted := mt (feed.routed_route_iff repr msg).1 h
  unfold Hub.receive
  split
  · next heq => simp at heq
  · next heq =>
    -- a JSON null is no dictionary
    obtain rfl : msg = .null := Option.some.inj heq
    exact absurd (fun fields hfields => by cases hfields) h
  · next msg' _ heq =>
    obtain rfl : msg = msg' := Option.some.inj heq
    cases hroute : feed.route repr msg with
    | error e => exact ⟨e, rfl⟩
    | ok topic =>
      rw [hroute] at hrouted
      cases topic with
      | none => exact absurd trivial hrouted
      | some topic =>
        have htopic : ¬ hashable topic = true := hrouted
        exact ⟨.unhashable topic, if_neg htopic⟩

/-- A step ends a receive loop over a frame exactly when the frame is not admitted. -/
lemma step_dropped {e : Event} (hstep : step P (feed.route repr) s e = some s') :
    (e.Admits repr feed ∧ s'.dropped = s.dropped) ∨
      ¬ e.Admits repr feed ∧ ∃ err, s'.dropped = s.dropped ++ [err] := by
  cases e with
  | base e =>
    obtain ⟨base, -, rfl⟩ := Option.map_eq_some_iff.1 hstep
    exact .inl ⟨trivial, rfl⟩
  | get q =>
    simp only [step] at hstep
    split at hstep
    · cases hstep
    · cases hstep
      exact .inl ⟨trivial, rfl⟩
  | frame k raw =>
    simp only [step] at hstep
    split at hstep
    · next ws hws =>
      cases raw with
      | none =>
        cases hstep
        exact .inl ⟨trivial, rfl⟩
      | some msg =>
        by_cases h : feed.Admits repr msg
        · obtain ⟨t, ht, -, hdropped⟩ := receive_of_admits (s := s) h
          rw [ht] at hstep
          cases hstep
          exact .inl ⟨h, hdropped⟩
        · obtain ⟨err, herr⟩ := receive_of_not_admits (s := s) h
          rw [herr] at hstep
          cases hstep
          exact .inr ⟨h, err, rfl⟩
    · cases hstep

/-! ## Runs -/

/-- What a frame has once raised stays in the log. -/
lemma run_dropped_iff {es : List Event} (hrun : run (step P (feed.route repr)) s es = some s') :
    s'.dropped = [] ↔ s.dropped = [] ∧ ∀ e ∈ es, e.Admits repr feed := by
  induction es generalizing s with
  | nil =>
    cases hrun
    simp
  | cons e es ih =>
    obtain ⟨t, hstep, hrest⟩ := run_cons.1 hrun
    rw [ih hrest]
    rcases step_dropped hstep with ⟨hadmits, hdropped⟩ | ⟨hnot, err, hdropped⟩
    · simp [hadmits, hdropped]
    · simp [hnot, hdropped]

lemma forall_admits_iff (es : List Event) :
    (∀ e ∈ es, e.Admits repr feed) ↔
      ∀ k msg, Event.frame k (some msg) ∈ es → feed.Admits repr msg := by
  constructor
  · exact fun h k msg hmem => h _ hmem
  · intro h e hmem
    cases e with
    | frame k raw =>
      cases raw with
      | none => trivial
      | some msg => exact h k msg hmem
    | _ => trivial

/-- No queue grows past `queue_size`, whatever is read and whatever comes in. -/
lemma put_length_le (items : List Json) (msg : Json) (h : items.length ≤ queueSize) :
    (put items msg).length ≤ queueSize :=
  DropQueue.length_put_le (by decide) h

lemma deliver_length_le (h : ∀ q, (s.queued q).length ≤ queueSize) (topic msg : Json) (q : ℕ) :
    ((s.deliver topic msg).queued q).length ≤ queueSize := by
  unfold Hub.deliver
  dsimp only
  generalize s.queued = queued at h
  induction s.queuesOf topic generalizing queued with
  | nil => exact h q
  | cons q' qs ih =>
    refine ih _ fun r => ?_
    dsimp only
    by_cases hr : r = q'
    · rw [hr, Function.update_self]
      exact put_length_le _ _ (h q')
    · rw [Function.update_of_ne hr]
      exact h r

/-- No step fills a queue past its size. -/
lemma step_queued_length_le {route : Json → Except RouteError (Option Json)} {e : Event}
    (h : ∀ q, (s.queued q).length ≤ queueSize) (hstep : step P route s e = some s') (q : ℕ) :
    (s'.queued q).length ≤ queueSize := by
  cases e with
  | base e =>
    obtain ⟨base, -, rfl⟩ := Option.map_eq_some_iff.1 hstep
    exact h q
  | get q' =>
    simp only [step] at hstep
    split at hstep
    · cases hstep
    · next items hitems =>
      cases hstep
      dsimp only
      by_cases hq : q = q'
      · have hfull := h q'
        rw [hitems, List.length_cons] at hfull
        rw [hq, Function.update_self]
        omega
      · rw [Function.update_of_ne hq]
        exact h q
  | frame k raw =>
    simp only [step] at hstep
    split at hstep
    · split at hstep
      · next t ht =>
        cases hstep
        unfold Hub.receive at ht
        repeat' split at ht
        all_goals cases ht
        all_goals first | exact h q | exact deliver_length_le h _ _ q
      · cases hstep
        exact h q
    · cases hstep

/-- No queue ever holds more than it may. -/
theorem queued_length_le (P : StreamHub.Payloads String)
    (route : Json → Except RouteError (Option Json)) {es : List Event}
    (hrun : run (step P route) {} es = some s') (q : ℕ) :
    (s'.queued q).length ≤ queueSize := by
  have hinit : ∀ q, (({} : Hub).queued q).length ≤ queueSize := fun _ => Nat.zero_le queueSize
  exact invariant_of_run (fun _ _ _ h hstep => step_queued_length_le h hstep) hinit hrun q

/-! ## When no frame drops the connection -/

/-- A callback returns `None` or a topic with a hash exactly on the frames that its hub admits,
and in a run of the hub none of the frames ends the receive loop exactly when all are such. -/
theorem hub_never_dropped_iff (repr : Json → Option String) (feed : Feed) :
    (∀ msg, Routed (feed.route repr msg) ↔ feed.Admits repr msg) ∧
      ∀ (P : StreamHub.Payloads String) (es : List Event) (s : Hub),
        run (step P (feed.route repr)) {} es = some s →
          (s.dropped = [] ↔
            ∀ k msg, Event.frame k (some msg) ∈ es → feed.Admits repr msg) := by
  refine ⟨feed.routed_route_iff repr, fun P es s hrun => ?_⟩
  rw [run_dropped_iff hrun, forall_admits_iff]
  exact and_iff_right rfl

/-- Trades of which the first is a number. -/
def numberForTrade : Json := .obj [("channel", .str "trades"), ("data", .arr [.num 1])]

/-- A Hyperliquid hub with one subscriber, and the trades once it is connected. -/
def tradesArrive : List Event :=
  [.base (.subscribe "l2Book:BTC"), .base (.connect 0), .base (.resubscribed 0),
    .frame 0 (some numberForTrade)]

lemma tradesArrive_run (repr : Json → Option String) : ∃ s,
    run (step (.perTopic String) (Feed.hyperliquid.route repr)) {} tradesArrive = some s :=
  ⟨_, rfl⟩

/-- Nothing is dropped just when every frame is admitted. -/
theorem hub_never_dropped_iff_trades : ∃ s,
    run (step (.perTopic String) (Feed.hyperliquid.route fun _ => some "1")) {} tradesArrive =
      some s ∧
    (s.dropped = [] ↔ ∀ k msg, Event.frame k (some msg) ∈ tradesArrive →
      Feed.hyperliquid.Admits (fun _ => some "1") msg) := by
  obtain ⟨s, hrun⟩ := tradesArrive_run fun _ => some "1"
  exact ⟨s, hrun, (hub_never_dropped_iff (fun _ => some "1") .hyperliquid).2 _ _ s hrun⟩

/-- `data[0].get("coin")` of the number raises, and the subscriber of a book loses its
connection. -/
theorem hub_dropped_by_trades :
    ¬ Routed (Feed.hyperliquid.route (fun _ => some "1") numberForTrade) ∧
    ∃ s, run (step (.perTopic String) (Feed.hyperliquid.route fun _ => some "1")) {}
      tradesArrive = some s ∧ s.dropped ≠ [] :=
  ⟨id, _, rfl, List.cons_ne_nil _ _⟩

end HubRoutes
end ExchangeRouter
