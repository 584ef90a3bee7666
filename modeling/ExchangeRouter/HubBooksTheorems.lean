import ExchangeRouter.BybitBookTheorems
import ExchangeRouter.HubPipesTheorems
import ExchangeRouter.KrakenBookTheorems

/-!
# The books that come through a hub

The book streams read the queues of a hub that they share with other consumers and topics. By the
refinement of `HubPipesTheorems` what they yield there is what they yield behind a queue of their
own, so a Bybit stream shows the venue's book in every run, and a Kraken stream in every run that
drops nothing before it but what a snapshot makes up for.
-/

namespace ExchangeRouter
namespace HubQueues

open DropQueue (Pipe)
open HubRoutes (RouteError Event get)
open MakeRequest (Json)
open Transition

section

variable {α : Type*} {offered : List (Json × ℕ)} {xs ys : List (α × ℕ)}

/-- Every output of a queue's consumer is one of the pipe's, at the same message. -/
lemma placed_of_mem (h : List.Forall₂ (Placed offered) xs ys) {o : α} {l : ℕ}
    (ho : (o, l) ∈ ys) : ∃ i, (o, i) ∈ xs ∧ (offered[i]?).map Prod.snd = some l := by
  induction h with
  | nil => exact absurd ho List.not_mem_nil
  | @cons x y xs ys hxy _ ih =>
    rcases List.mem_cons.mp ho with rfl | hrest
    · obtain ⟨x, i⟩ := x
      obtain ⟨rfl, hplace⟩ := hxy
      exact ⟨i, List.mem_cons_self, hplace⟩
    · obtain ⟨i, hi, hplace⟩ := ih hrest
      exact ⟨i, List.mem_cons_of_mem _ hi, hplace⟩

end

variable (P : StreamHub.Payloads String) (route : Json → Except RouteError (Option Json))
  {es : List Event} {s : History} {q : ℕ} {topic : String}

/-! ## Bybit -/

/-- In every run of the hub: whatever the queue dropped, each frame that a Bybit stream has yielded
behind it shows the venue's book as of the message it was made of. -/
theorem bybit_books_over_hub (hrun : run (HubQueues.step P route) {} es = some s)
    (hq : (s.hub.base.calls.map StreamHub.Call.topic)[q]? = some topic)
    (read : Json → Bybit.BookMsg) (hfeed : Bybit.Sequenced (s.feed read topic q))
    (inst : Bybit.Instrument) (depth : ℕ) (start : Book) :
    (∀ o l, (o, l) ∈ Bybit.streamOrderbook inst depth (s.taken read q) →
      ∃ i b, ((s.offered topic q)[i]?).map Prod.snd = some l ∧
        trueBook start ((Bybit.reader.updates (s.feed read topic q)).take (i + 1)) = some b ∧
        o.Shows id depth b) ∧
    ∀ t l, (t, l) ∈ Bybit.streamBookTicker inst (s.taken read q) →
      ∃ i b, ((s.offered topic q)[i]?).map Prod.snd = some l ∧
        trueBook start ((Bybit.reader.updates (s.feed read topic q)).take (i + 1)) = some b ∧
        t.Shows b := by
  have hchained := hfeed.chained start
  refine ⟨fun o l ho => ?_, fun t l ht => ?_⟩
  · obtain ⟨delivered, hsub, houts⟩ := yielded_placed (ordered_of_run hrun) hq
    obtain ⟨i, hi, hplace⟩ := placed_of_mem houts ho
    obtain ⟨b, hb, hshows⟩ := yields_show (fun o b => o.Shows id depth b)
      (Bybit.orderbookFrame_shows inst depth) hchained hsub o i hi
    exact ⟨i, b, hplace, hb, hshows⟩
  · obtain ⟨delivered, hsub, houts⟩ := yielded_placed (ordered_of_run hrun) hq
    obtain ⟨i, hi, hplace⟩ := placed_of_mem houts ht
    obtain ⟨b, hb, hshows⟩ := yields_show (fun t b => t.Shows b)
      (Bybit.bookTickerFrame_shows inst) hchained hsub t i hi
    exact ⟨i, b, hplace, hb, hshows⟩

/-- `float()` of the texts of whole numbers. -/
def readFloat (text : String) : Option ℚ :=
  if text.toList.all Char.isDigit then
    some (text.toList.foldl (fun (n : ℚ) digit => 10 * n + ((digit.toNat - 48 : ℕ) : ℚ)) 0)
  else none

/-- A level of a well-formed message. -/
def rawLevel : Json → RawLevel
  | .arr [.str price, .str qty] => (readFloat price, readFloat qty)
  | _ => (none, none)

/-- One side of a well-formed message. -/
def rawLevels : Json → List RawLevel
  | .arr levels => levels.map rawLevel
  | _ => []

/-- A well-formed message of an `orderbook` topic. -/
def bybitMsg : Json → Bybit.BookMsg
  | .obj msg =>
    let data := match get msg "data" with
      | .obj data => data
      | _ => []
    { type := match get msg "type" with
        | .str type => type
        | _ => ""
      u := match get data "u" with
        | .num u => some u.num
        | _ => none
      s := none
      b := rawLevels (get data "b")
      a := rawLevels (get data "a")
      ts := match get msg "ts" with
        | .num ts => some ts.num
        | _ => none }
  | _ => ⟨"", none, none, [], [], none⟩

/-- A message with one bid. -/
def bybitFrame (type : String) (u : ℚ) (price qty : String) : Json :=
  .obj [("topic", .str "orderbook.50.BTCUSDT"), ("type", .str type), ("ts", .num 1700000000000),
    ("data", .obj [("u", .num u), ("b", .arr [.arr [.str price, .str qty]]), ("a", .arr [])])]

/-- A snapshot and a delta for one subscriber, while a topic that nobody reads comes between. -/
def bybitEvents : List Event :=
  [.base (.subscribe "orderbook.50.BTCUSDT"), .base (.connect 0), .base (.resubscribed 0),
    .frame 0 (some (bybitFrame "snapshot" 7 "100" "1")),
    .frame 0 (some (.obj [("topic", .str "tickers.BTCUSDT")])), .get 0,
    .frame 0 (some (bybitFrame "delta" 8 "99" "2")), .get 0]

theorem bybit_books_over_hub_sample :
    let inst : Bybit.Instrument := ⟨"BTCUSDT", .linear, "USDT", none, id⟩
    ∃ s, run (HubQueues.step (.batched String) HubRoutes.Bybit.route) {} bybitEvents = some s ∧
      (Bybit.streamOrderbook inst 20 (s.taken bybitMsg 0)).map (fun o => (o.1.bids, o.2)) =
        [([(100, 1)], 0), ([(100, 1), (99, 2)], 2)] ∧
      ∀ o l, (o, l) ∈ Bybit.streamOrderbook inst 20 (s.taken bybitMsg 0) →
        ∃ i b, ((s.offered "orderbook.50.BTCUSDT" 0)[i]?).map Prod.snd = some l ∧
          trueBook Book.empty ((Bybit.reader.updates
            (s.feed bybitMsg "orderbook.50.BTCUSDT" 0)).take (i + 1)) = some b ∧
          o.Shows id 20 b := by
  intro inst
  have hrun : ∃ s, run (HubQueues.step (.batched String) HubRoutes.Bybit.route) {} bybitEvents =
      some s ∧ (s.hub.base.calls.map StreamHub.Call.topic)[0]? = some "orderbook.50.BTCUSDT" ∧
      s.feed bybitMsg "orderbook.50.BTCUSDT" 0 =
        [bybitMsg (bybitFrame "snapshot" 7 "100" "1"), bybitMsg (bybitFrame "delta" 8 "99" "2")] ∧
      s.taken bybitMsg 0 = [(bybitMsg (bybitFrame "snapshot" 7 "100" "1"), 0),
        (bybitMsg (bybitFrame "delta" 8 "99" "2"), 2)] := ⟨_, rfl, rfl, rfl, rfl⟩
  obtain ⟨s, hrun, hq, hfeed, htaken⟩ := hrun
  have hsequenced : Bybit.Sequenced (s.feed bybitMsg "orderbook.50.BTCUSDT" 0) := by
    rw [hfeed]
    exact ⟨by decide +kernel, by decide +kernel, by decide +kernel⟩
  refine ⟨s, hrun, ?_, ?_⟩
  · rw [htaken]
    decide +kernel
  · exact (bybit_books_over_hub _ _ hrun hq bybitMsg hsequenced inst 20 Book.empty).1

/-! ## Kraken -/

/-- A stream that folds each message right yields only exact frames behind a queue that loses
nothing it cannot go on without. -/
lemma exact_over_hub {μ : Type*} {r : Kraken.Reading μ} {depth : ℕ} {read : Json → μ}
    {body : Kraken.BookState → μ → List (OrderBook × ℕ) × Option Kraken.BookState}
    (hfolds : Kraken.FoldsMessage r depth body)
    (hmeets : Meets (HubQueues.step P route)
      (Spares read body {} route (Kraken.Resync r) topic q) {} es)
    (hrun : run (HubQueues.step P route) {} es = some s)
    (hq : (s.hub.base.calls.map StreamHub.Call.topic)[q]? = some topic) :
    ∀ o l, (o, l) ∈ s.yielded read body {} q →
      ∃ i, ((s.offered topic q)[i]?).map Prod.snd = some l ∧
        Kraken.Exact r depth (s.feed read topic q) i o := by
  obtain ⟨events, p, hp, hsurvives, hmirrors⟩ :=
    simulated_of_meets hmeets hrun hq (s.feed read topic q) (List.prefix_refl _)
  intro o l ho
  obtain ⟨i, hi, hplace⟩ := placed_of_mem hmirrors.out ho
  exact ⟨i, hplace, hfolds.run_exact hsurvives hp (o, i) hi⟩

/-- In every run of the hub that drops no message of a bootstrapped stream's queue, unless a
snapshot is the oldest message then: each frame that a Kraken stream, spot or futures, has yielded
behind it shows the fold of a snapshot and of everything that was routed to the topic after it. -/
theorem kraken_books_over_hub (hrun : run (HubQueues.step P route) {} es = some s)
    (hq : (s.hub.base.calls.map StreamHub.Call.topic)[q]? = some topic)
    (inst : Kraken.Instrument) (depth : ℕ) :
    (∀ read : Json → Kraken.SpotMsg,
      Meets (HubQueues.step P route) (Spares read (Kraken.onSpotMessage inst depth) {} route
        (Kraken.Resync Kraken.spotReading) topic q) {} es →
      ∀ o l, (o, l) ∈ s.yielded read (Kraken.onSpotMessage inst depth) {} q →
        ∃ i, ((s.offered topic q)[i]?).map Prod.snd = some l ∧
          Kraken.Exact Kraken.spotReading depth (s.feed read topic q) i o) ∧
    ∀ read : Json → Kraken.FuturesMsg,
      Meets (HubQueues.step P route) (Spares read (Kraken.onFuturesMessage inst depth) {} route
        (Kraken.Resync Kraken.futuresReading) topic q) {} es →
      ∀ o l, (o, l) ∈ s.yielded read (Kraken.onFuturesMessage inst depth) {} q →
        ∃ i, ((s.offered topic q)[i]?).map Prod.snd = some l ∧
          Kraken.Exact Kraken.futuresReading depth (s.feed read topic q) i o := by
  refine ⟨fun read hmeets => ?_, fun read hmeets => ?_⟩
  · exact exact_over_hub P route (Kraken.spot_folds inst depth) hmeets hrun hq
  · exact exact_over_hub P route (Kraken.futures_folds inst depth) hmeets hrun hq

/-- `float(b["price"])` and `float(b["qty"])` of a well-formed level. -/
def krakenLevel : Json → RawLevel
  | .obj level =>
    match get level "price", get level "qty" with
    | .num price, .num qty => (some price, some qty)
    | _, _ => (none, none)
  | _ => (none, none)

/-- The same of Kraken's Spot feed, whose levels are objects. -/
def krakenLevels : Json → List RawLevel
  | .arr levels => levels.map krakenLevel
  | _ => []

/-- A well-formed message of the spot book channel. -/
def krakenSpotMsg : Json → Kraken.SpotMsg
  | .obj msg =>
    { channel := match get msg "channel" with
        | .str channel => some channel
        | _ => none
      type := match get msg "type" with
        | .str type => some type
        | _ => none
      data := match get msg "data" with
        | .arr items => items.map fun item =>
          match item with
          | .obj item =>
            { bids := krakenLevels (get item "bids")
              asks := krakenLevels (get item "asks")
              timestamp := match get item "timestamp" with
                | .num ts => some ts.num
                | _ => none }
          | _ => ⟨[(none, none)], [], none⟩
        | _ => [] }
  | _ => ⟨none, none, []⟩

/-- A spot message with one bid. -/
def krakenFrame (type : String) (price qty : ℚ) : Json :=
  .obj [("channel", .str "book"), ("type", .str type), ("data", .arr [.obj [
    ("symbol", .str "BTC/USD"), ("bids", .arr [.obj [("price", .num price), ("qty", .num qty)]]),
    ("asks", .arr []), ("timestamp", .num 1700000000000)]])]

/-- A subscription, a connection, and two frames that the consumer takes. -/
def krakenEvents : List Event :=
  [.base (.subscribe "book:BTC/USD"), .base (.connect 0), .base (.resubscribed 0),
    .frame 0 (some (krakenFrame "snapshot" 100 1)),
    .frame 0 (some (krakenFrame "update" 99 2)), .get 0, .get 0]

theorem kraken_books_over_hub_sample :
    let inst : Kraken.Instrument := ⟨"BTC-USD", .spot, "USD"⟩
    let route := HubRoutes.Kraken.routeSpot fun _ => none
    ∃ s, run (HubQueues.step (.perTopic String) route) {} krakenEvents = some s ∧
      (s.yielded krakenSpotMsg (Kraken.onSpotMessage inst 10) {} 0).map (fun o => o.1.1.bids) =
        [[(100, 1)], [(100, 1), (99, 2)]] ∧
      ∀ o l, (o, l) ∈ s.yielded krakenSpotMsg (Kraken.onSpotMessage inst 10) {} 0 →
        ∃ i, ((s.offered "book:BTC/USD" 0)[i]?).map Prod.snd = some l ∧
          Kraken.Exact Kraken.spotReading 10 (s.feed krakenSpotMsg "book:BTC/USD" 0) i o := by
  intro inst route
  have hrun : ∃ s, run (HubQueues.step (.perTopic String) route) {} krakenEvents = some s ∧
      (s.hub.base.calls.map StreamHub.Call.topic)[0]? = some "book:BTC/USD" ∧
      s.taken krakenSpotMsg 0 = [(krakenSpotMsg (krakenFrame "snapshot" 100 1), 0),
        (krakenSpotMsg (krakenFrame "update" 99 2), 1)] := ⟨_, rfl, rfl, rfl⟩
  obtain ⟨s, hrun, hq, htaken⟩ := hrun
  have hmeets : Meets (HubQueues.step (.perTopic String) route)
      (Spares krakenSpotMsg (Kraken.onSpotMessage inst 10) {} route
        (Kraken.Resync Kraken.spotReading) "book:BTC/USD" 0) {} krakenEvents := by
    -- two messages find room
    refine ⟨trivial, trivial, trivial, fun _ _ _ => .inl (by decide), ?_⟩
    refine ⟨fun _ _ _ => .inl (by decide), trivial, trivial, trivial⟩
  refine ⟨s, hrun, ?_, ?_⟩
  · rw [History.yielded, htaken]
    decide +kernel
  · exact (kraken_books_over_hub _ _ hrun hq inst 10).1 krakenSpotMsg hmeets

end HubQueues
end ExchangeRouter
