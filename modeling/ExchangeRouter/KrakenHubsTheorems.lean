import ExchangeRouter.KrakenHubs
import ExchangeRouter.StreamHubTheorems
import ExchangeRouter.Lib.Dict

/-!
# What Kraken's hubs send

A hub asks its callbacks for topics of its own table only (`frames_of_step`). So every payload
it sends has its shape as long as the payload table holds, for each of its topics, a payload of
its shape: `Shaped`. Only the opening of a stream writes the table, and it breaks `Shaped` when
a hub of another shape has a queue for the same topic.
-/

namespace ExchangeRouter
namespace Kraken

open StreamHub (Frame Payloads Wired Held frames_of_step queues_of_step remaining_of_step)
open Transition

/-! ## Shapes -/

lemma toList_hubKey (v2 : Bool) (payload : Payload) :
    (hubKey v2 payload).toList.head? = some (if v2 then 's' else 'f') := by
  cases v2 <;> simp [hubKey]

/-- The key of a hub says which socket it is for. -/
lemma v2_of_hubKey {stream stream' : Stream} (h : stream.hubKey = stream'.hubKey) :
    stream.v2 = stream'.v2 := by
  have hhead := toList_hubKey stream.v2 stream.payload
  have hhead' := toList_hubKey stream'.v2 stream'.payload
  have hkey : hubKey stream.v2 stream.payload = hubKey stream'.v2 stream'.payload := h
  rw [hkey, hhead', Option.some.injEq] at hhead
  cases hv : stream.v2 <;> cases hv' : stream'.v2 <;> simp [hv, hv'] at hhead ⊢

/-- `_unsub` changes nothing that `_hub_key` reads. -/
lemma hubKey_unsubPayload (stream : Stream) :
    hubKey stream.v2 (unsubPayload stream.v2 stream.payload) = stream.hubKey := by
  cases stream <;> rfl

/-- The table holds the payload of a stream with this hub's key for the topic. -/
def PayloadFits (table : PayloadTable) (key : String) (v2 : Bool) (t : String) : Prop :=
  ∃ stream : Stream, table.lookup t = some stream.payload ∧ stream.v2 = v2 ∧ stream.hubKey = key

/-- What a hub sends for topics that the table holds its own payloads for has its key. -/
lemma hubKey_render {table : PayloadTable} {key : String} {v2 : Bool} {frame : Frame String}
    (h : ∀ t ∈ frame.topics, PayloadFits table key v2 t) :
    ∀ p ∈ render v2 table frame, hubKey v2 p = key := by
  intro p hp
  cases frame with
  | subscribe topics =>
    obtain ⟨t, ht, hlookup⟩ := List.mem_filterMap.mp hp
    obtain ⟨stream, hstream, rfl, hkey⟩ := h t ht
    rw [hstream, Option.some.injEq] at hlookup
    rw [← hlookup]
    exact hkey
  | unsubscribe topics =>
    obtain ⟨t, ht, hlookup⟩ := List.mem_filterMap.mp hp
    obtain ⟨stream, hstream, rfl, hkey⟩ := h t ht
    rw [hstream, Option.map_some, Option.some.injEq] at hlookup
    rw [← hlookup, hubKey_unsubPayload]
    exact hkey

/-- A hub whose topics the table holds its own payloads for. -/
structure Hub.Shaped (table : PayloadTable) (key : String) (h : Hub) : Prop where
  wired : Wired h.hub
  held : Held h.hub
  keyed : ∃ stream : Stream, stream.v2 = h.v2 ∧ stream.hubKey = key
  topics : ∀ t ∈ h.hub.queues, PayloadFits table key h.v2 t
  pending : ∀ t ∈ h.hub.remaining, PayloadFits h.taken key h.v2 t

/-- The invariant: every hub is shaped, and what was sent has the key of its hub. -/
structure State.Shaped (s : State) : Prop where
  hubs : ∀ key h, s.hubs.lookup key = some h → h.Shaped s.topicPayloads key
  sent : ∀ entry ∈ s.sent, ∃ h, s.hubs.lookup entry.1 = some h ∧ hubKey h.v2 entry.2 = entry.1

lemma State.Shaped.init : ({} : State).Shaped := ⟨by simp, by simp⟩

/-- The topics a hub asks for are its own, in the table that it asks. -/
lemma Hub.Shaped.asks {table : PayloadTable} {key : String} {h : Hub} (hh : h.Shaped table key)
    {e : StreamHub.Event String}
    (hdrop : ∀ topic q, e = .unsubscribe topic q → topic ∈ h.hub.queues)
    {t : String} (ht : h.hub.asks t e) : PayloadFits (tableFor table h.taken e) key h.v2 t := by
  cases e with
  | subscribe topic => exact absurd ht id
  | resubscribed k => exact hh.pending t ht
  | unsubscribe topic q =>
    have htopic : t = topic := ht
    rw [htopic]
    exact hh.topics topic (hdrop topic q rfl)
  | _ => exact hh.topics t ht

/-- A step of a hub whose shape the table has keeps its shape. -/
lemma Hub.Shaped.step {table : PayloadTable} {key : String} {h : Hub} (hh : h.Shaped table key)
    {e : StreamHub.Event String} {hub' : StreamHub.State String}
    (hnew : ∀ topic, e = .subscribe topic → PayloadFits table key h.v2 topic)
    (hstep : StreamHub.step (Payloads.perTopic String) h.hub e = some hub') :
    ({ h with hub := hub', taken := takenAfter table h.taken e } : Hub).Shaped table key where
  wired := hh.wired.step hstep
  held := hh.held.step hstep
  keyed := hh.keyed
  topics := by
    intro t ht
    rcases queues_of_step hstep ht with hold | hsub
    · exact hh.topics t hold
    · exact hnew t hsub
  pending := by
    intro t ht
    rcases remaining_of_step hh.wired hstep ht with ⟨k, rfl, hqueue⟩ | ⟨hne, hold⟩
    · exact hh.topics t hqueue
    · have htaken : takenAfter table h.taken e = h.taken := by
        cases e with
        | connect k => exact absurd rfl (hne k)
        | _ => rfl
      dsimp only
      rw [htaken]
      exact hh.pending t hold

/-- One hub goes on. -/
lemma State.Shaped.advance {s s' : State} (hs : s.Shaped) {key : String} {h : Hub}
    (hh : h.Shaped s.topicPayloads key) (hsame : ∀ old, s.hubs.lookup key = some old → old.v2 = h.v2)
    {e : StreamHub.Event String}
    (hnew : ∀ topic, e = .subscribe topic → PayloadFits s.topicPayloads key h.v2 topic)
    (hdrop : ∀ topic q, e = .unsubscribe topic q → topic ∈ h.hub.queues)
    (hstep : s.advance key h e = some s') : s'.Shaped := by
  obtain ⟨hub', hhub, rfl⟩ := Option.map_eq_some_iff.mp hstep
  constructor
  · intro k g hg
    dsimp only at hg
    rw [Dict.lookup_insert] at hg
    split at hg
    · next hk =>
      rw [← Option.some.inj hg, hk]
      exact hh.step hnew hhub
    · exact hs.hubs k g hg
  · intro entry hentry
    dsimp only
    rw [Dict.lookup_insert]
    rcases List.mem_append.mp hentry with hold | hsent
    · obtain ⟨g, hg, hkey⟩ := hs.sent entry hold
      split
      · next hk =>
        rw [hk] at hg
        exact ⟨_, rfl, by rw [← hsame g hg]; exact hkey⟩
      · exact ⟨g, hg, hkey⟩
    · obtain ⟨frame, hframe, hmem⟩ := List.mem_flatMap.mp hsent
      obtain ⟨p, hp, rfl⟩ := List.mem_map.mp hmem
      rw [if_pos rfl]
      refine ⟨_, rfl, ?_⟩
      have hasked := frames_of_step hh.held hhub frame hframe
      exact hubKey_render (fun t ht => hh.asks hdrop (hasked t ht)) p hp

/-- A stream that clashes with no hub writes the table for hubs of its own key only. -/
lemma State.Shaped.write {s : State} (hs : s.Shaped) {stream : Stream}
    (hclash : s.clashes stream = false) :
    ({ s with topicPayloads := s.topicPayloads.insert stream.topicKey stream.payload } :
      State).Shaped where
  hubs := by
    intro key h hlookup
    have hh := hs.hubs key h hlookup
    refine ⟨hh.wired, hh.held, hh.keyed, fun t ht => ?_, hh.pending⟩
    by_cases htopic : t = stream.topicKey
    · -- the hub has the topic, so its key is the stream's
      have hkey : key = stream.hubKey := by
        by_contra hne
        have hmem : key ∈ s.hubs.keys := by
          rw [← AList.mem_keys, ← AList.lookup_isSome]
          exact hlookup ▸ rfl
        have hno := List.any_eq_false.mp hclash key hmem
        have hlookup' : AList.lookup key s.hubs = some h := hlookup
        rw [hlookup'] at hno
        exact hno (by simpa [hne, htopic] using htopic ▸ ht)
      obtain ⟨other, hv2, hother⟩ := hh.keyed
      refine ⟨stream, by rw [Dict.lookup_insert, if_pos htopic], ?_, hkey.symm⟩
      rw [← hv2]
      exact v2_of_hubKey (hkey.symm.trans hother.symm)
    · obtain ⟨other, hother, hrest⟩ := hh.topics t ht
      exact ⟨other, by rw [Dict.lookup_insert, if_neg htopic]; exact hother, hrest⟩
  sent := hs.sent

/-- A hub as it is made. -/
lemma Hub.Shaped.fresh (table : PayloadTable) (stream : Stream) :
    ({ v2 := stream.v2 } : Hub).Shaped table stream.hubKey :=
  ⟨StreamHub.wired_init, StreamHub.held_init, ⟨stream, rfl, rfl⟩, by simp, by simp [StreamHub.State.remaining]⟩

lemma State.Shaped.openStream {s s' : State} (hs : s.Shaped) {stream : Stream}
    (hclash : s.clashes stream = false) (hstep : s.openStream stream = some s') : s'.Shaped := by
  have hwritten := hs.write hclash
  have hv2 : ∀ old, s.hubs.lookup stream.hubKey = some old → old.v2 = stream.v2 := by
    intro old hold
    obtain ⟨other, hother, hkey⟩ := (hs.hubs _ old hold).keyed
    rw [← hother]
    exact v2_of_hubKey hkey
  have hholds : PayloadFits (s.topicPayloads.insert stream.topicKey stream.payload) stream.hubKey
      stream.v2 stream.topicKey :=
    ⟨stream, by rw [Dict.lookup_insert, if_pos rfl], rfl, rfl⟩
  unfold State.openStream at hstep
  dsimp only at hstep
  cases hlookup : s.hubs.lookup stream.hubKey with
  | none =>
    rw [hlookup] at hstep
    apply hwritten.advance (Hub.Shaped.fresh _ stream) hv2 ?_ (by simp) hstep
    intro topic htopic
    rw [← StreamHub.Event.subscribe.inj htopic]
    exact hholds
  | some h =>
    rw [hlookup] at hstep
    have hsame := hv2 h hlookup
    apply hwritten.advance (hwritten.hubs _ h hlookup) ?_ ?_ (by simp) hstep
    · intro old hold
      rw [hv2 old hold, ← hsame]
    · intro topic htopic
      rw [← StreamHub.Event.subscribe.inj htopic]
      dsimp only [Option.getD_some]
      rw [hsame]
      exact hholds

/-! ## Runs -/

/-- A stream is not opened while a hub of another shape has a queue for its topic. -/
def NoClash (s : State) : Event → Bool
  | .openStream stream => !s.clashes stream
  | _ => true

theorem State.Shaped.step {s s' : State} (hs : s.Shaped) {e : Event}
    (hclash : NoClash s e = true) (hstep : step s e = some s') : s'.Shaped := by
  cases e with
  | openStream stream =>
    have hfree : s.clashes stream = false := by simpa [NoClash] using hclash
    exact hs.openStream hfree hstep
  | closeStream key q =>
    simp only [Kraken.step] at hstep
    split at hstep
    · exact absurd hstep (by simp)
    · next h hlookup =>
      split at hstep
      · exact absurd hstep (by simp)
      · next call hcall =>
        split at hstep
        · next hmem =>
          refine hs.advance (hs.hubs key h hlookup) ?_ (by simp) ?_ hstep
          · intro old hold
            rw [hlookup, Option.some.injEq] at hold
            rw [hold]
          · intro topic q' heq
            rw [← (StreamHub.Event.unsubscribe.inj heq).1]
            exact StreamHub.mem_queues_of_mem_getD hmem
        · exact absurd hstep (by simp)
  | hub key e =>
    simp only [Kraken.step] at hstep
    split at hstep
    · exact absurd hstep (by simp)
    · next h hlookup =>
      split at hstep
      · next hinternal =>
        refine hs.advance (hs.hubs key h hlookup) ?_ ?_ ?_ hstep
        · intro old hold
          rw [hlookup, Option.some.injEq] at hold
          rw [hold]
        · intro topic heq
          rw [heq] at hinternal
          exact absurd hinternal (by simp [internal])
        · intro topic q heq
          rw [heq] at hinternal
          exact absurd hinternal (by simp [internal])
      · exact absurd hstep (by simp)

/-- In a run in which no stream is opened while a hub of another shape has a queue for its
topic, every payload sent has the key of the hub that sent it. -/
theorem sent_shape_of_noClash (es : List Event) (s : State) (hrun : run step {} es = some s)
    (hmeets : Meets step (fun s e => NoClash s e = true) {} es) :
    ∀ entry ∈ s.sent, ∃ h, s.hubs.lookup entry.1 = some h ∧ hubKey h.v2 entry.2 = entry.1 :=
  (invariant_of_meets (fun _ _ _ hs hclash hstep => hs.step hclash hstep)
    State.Shaped.init hmeets hrun).sent

/-- A ticker stream and a book ticker stream of two symbols, and a reconnect of the first hub. -/
def separateSymbols : List Event :=
  [.openStream (.ticker "BTC/USD"), .openStream (.bookTicker "ETH/USD"),
    .hub "spot:ticker:::" (.connect 0), .hub "spot:ticker:bbo::" (.connect 0),
    .hub "spot:ticker:::" (.resubscribed 0), .hub "spot:ticker:::" (.drop 0),
    .hub "spot:ticker:::" (.disconnected 0), .hub "spot:ticker:::" (.retry 0),
    .hub "spot:ticker:::" (.connect 0)]

theorem sent_shape_of_noClash_separate :
    ∃ s, run step {} separateSymbols = some s ∧ s.sent.length = 3 ∧
      ∀ entry ∈ s.sent, ∃ h, s.hubs.lookup entry.1 = some h ∧ hubKey h.v2 entry.2 = entry.1 :=
  ⟨_, rfl, by decide, sent_shape_of_noClash separateSymbols _ rfl (by decide)⟩

/-- Ticker and book ticker of one symbol have one topic, so the ticker hub subscribes with the
book ticker's `event_trigger`. -/
theorem ticker_hub_sends_bbo :
    ∃ s, run step {} [.openStream (.ticker "BTC/USD"), .openStream (.bookTicker "BTC/USD"),
        .hub "spot:ticker:::" (.connect 0)] = some s ∧
      s.sent = [("spot:ticker:::", (Stream.bookTicker "BTC/USD").payload)] ∧
      ¬ ∀ entry ∈ s.sent, ∃ h, s.hubs.lookup entry.1 = some h ∧ hubKey h.v2 entry.2 = entry.1 := by
  refine ⟨_, rfl, by decide, fun hall => ?_⟩
  obtain ⟨h, hlookup, hkey⟩ := hall ("spot:ticker:::", (Stream.bookTicker "BTC/USD").payload)
    (by decide)
  have hv2 : h.v2 = true := by
    rw [← Option.some.inj hlookup]
    rfl
  rw [hv2] at hkey
  exact absurd hkey (by decide)

end Kraken
end ExchangeRouter
