import ExchangeRouter.HubQueues
import ExchangeRouter.HubRoutesTheorems
import ExchangeRouter.Lib.DropQueue
import ExchangeRouter.StreamHubTable

/-!
# The queues of a hub drop only the oldest

`offer` drops the oldest item of a full queue and keeps every other, so what was taken from a
queue and what it holds are, in that order, among the messages routed to its topic since it was
registered. `Ordered` says so of every queue and holds in every run.
-/

namespace ExchangeRouter
namespace HubQueues

open HubRoutes (Hub RouteError Event queueSize queued_length_le)
open MakeRequest (Json)
open StreamHub (Registered)
open scoped List
open Transition

/-! ## One message -/

section

variable {α : Type*}

lemma putNowait_room {maxsize : ℕ} {items : List α} (h : items.length < maxsize) (item : α) :
    putNowait maxsize items item = .ok (items ++ [item]) := by
  unfold putNowait
  rw [if_neg (by omega)]

lemma putNowait_full {maxsize : ℕ} {items : List α} (hmax : 0 < maxsize)
    (h : maxsize ≤ items.length) (item : α) :
    putNowait maxsize items item = .error .full := by
  unfold putNowait
  rw [if_pos ⟨hmax, h⟩]

/-- After the `get_nowait` there is room, so neither exception loses the message. -/
lemma offer_eq_put {maxsize : ℕ} (hmax : 0 < maxsize) {items : List α}
    (hle : items.length ≤ maxsize) (msg : α) :
    offer maxsize items msg = DropQueue.put maxsize items msg := by
  unfold offer DropQueue.put
  by_cases hroom : items.length < maxsize
  · rw [putNowait_room hroom, if_pos hroom]
  · rw [putNowait_full hmax (Nat.le_of_not_lt hroom), if_neg hroom]
    cases items with
    | nil => exact absurd hmax hroom
    | cons oldest rest =>
      rw [List.length_cons] at hle
      simp only [getNowait, putNowait_room (show rest.length < maxsize by omega), List.tail_cons]

/-- A loop that writes each of some queues once, from that queue alone. -/
lemma foldl_update_apply (f : List α → List α) {queues : List ℕ} (hnodup : queues.Nodup)
    (items : ℕ → List α) (r : ℕ) :
    queues.foldl (fun items q => Function.update items q (f (items q))) items r =
      if r ∈ queues then f (items r) else items r := by
  induction queues generalizing items with
  | nil => simp
  | cons q queues ih =>
    obtain ⟨hq, hrest⟩ := List.nodup_cons.mp hnodup
    rw [List.foldl_cons, ih hrest]
    by_cases hr : r = q
    · subst hr
      rw [if_neg hq, if_pos List.mem_cons_self, Function.update_self]
    · have hmem : r ∈ q :: queues ↔ r ∈ queues := by simp [hr]
      simp only [hmem, Function.update_of_ne hr]

/-- Each queue of the topic is offered the message as if it were the only one, and no other
queue is touched. -/
lemma offerAll_apply (maxsize : ℕ) {queues : List ℕ} (hnodup : queues.Nodup)
    (items : ℕ → List α) (msg : α) (r : ℕ) :
    offerAll maxsize queues items msg r =
      if r ∈ queues then offer maxsize (items r) msg else items r :=
  foldl_update_apply (fun items => offer maxsize items msg) hnodup items r

end

/-! ## One step of the hub -/

variable {P : StreamHub.Payloads String} {route : Json → Except RouteError (Option Json)}

/-- A frame is routed to a text, or changes no queue. A topic that is no text has none. -/
lemma receive_cases (route : Json → Except RouteError (Option Json)) (s : Hub)
    (raw : Option Json) :
    (∃ topic msg, routed route raw = some (topic, msg) ∧
      s.receive route raw = .ok (s.deliver (.str topic) msg)) ∨
    routed route raw = none ∧
      (s.receive route raw = .ok s ∨ ∃ e, s.receive route raw = .error e) := by
  by_cases hnothing : raw = none ∨ raw = some .null
  · rcases hnothing with rfl | rfl
    · exact .inr ⟨rfl, .inl rfl⟩
    · exact .inr ⟨rfl, .inl rfl⟩
  · obtain ⟨hnone, hnull⟩ := not_or.mp hnothing
    obtain ⟨msg, rfl⟩ := Option.ne_none_iff_exists'.mp hnone
    simp only [Option.some.injEq] at hnull
    cases hroute : route msg with
    | error e => exact .inr ⟨by simp [routed, hroute], .inr ⟨e, by simp [Hub.receive, hroute]⟩⟩
    | ok topic =>
      cases topic with
      | none => exact .inr ⟨by simp [routed, hroute], .inl (by simp [Hub.receive, hroute])⟩
      | some topic =>
        have hreceive : s.receive route (some msg) =
            if HubRoutes.hashable topic then .ok (s.deliver topic msg)
            else .error (.unhashable topic) := by
          simp [Hub.receive, hroute]
        rw [hreceive]
        cases topic with
        | str topic => exact .inl ⟨topic, msg, by simp [routed, hroute], rfl⟩
        | arr xs => exact .inr ⟨by simp [routed, hroute], .inr ⟨_, rfl⟩⟩
        | obj fields => exact .inr ⟨by simp [routed, hroute], .inr ⟨_, rfl⟩⟩
        | _ => exact .inr ⟨by simp [routed, hroute], .inl rfl⟩

/-- A frame leaves the table alone, and fills the queues of its topic when it is routed. -/
lemma step_frame {s s' : Hub} {k : ℕ} {raw : Option Json}
    (hstep : HubRoutes.step P route s (.frame k raw) = some s') :
    s'.base.calls = s.base.calls ∧ s'.base.queues = s.base.queues ∧
      (routed route raw = none ∧ s'.queued = s.queued ∨
        ∃ topic msg, routed route raw = some (topic, msg) ∧
          s'.queued = (s.deliver (.str topic) msg).queued) := by
  simp only [HubRoutes.step] at hstep
  split at hstep
  · next ws hws =>
    rcases receive_cases route s raw with ⟨topic, msg, hrouted, hreceive⟩ | ⟨hnone, hreceive⟩
    · rw [hreceive] at hstep
      cases hstep
      exact ⟨rfl, rfl, .inr ⟨topic, msg, hrouted, rfl⟩⟩
    · rcases hreceive with hreceive | ⟨e, hreceive⟩
      · rw [hreceive] at hstep
        cases hstep
        exact ⟨rfl, rfl, .inl ⟨hnone, rfl⟩⟩
      · rw [hreceive] at hstep
        cases hstep
        exact ⟨rfl, rfl, .inl ⟨hnone, rfl⟩⟩
  · cases hstep

/-- A frame leaves the hub's own fields alone, or is one that the connection is lost on. -/
lemma base_of_frame {s s' : Hub} {k : ℕ} {raw : Option Json}
    (hstep : HubRoutes.step P route s (.frame k raw) = some s') :
    s'.base = s.base ∨ StreamHub.step P s.base (.disconnected k) = some s'.base := by
  simp only [HubRoutes.step] at hstep
  split at hstep
  · next ws hws =>
    rcases receive_cases route s raw with ⟨topic, msg, -, hreceive⟩ | ⟨-, hreceive | ⟨e, hreceive⟩⟩
    · rw [hreceive] at hstep
      cases hstep
      exact .inl rfl
    · rw [hreceive] at hstep
      cases hstep
      exact .inl rfl
    · rw [hreceive] at hstep
      cases hstep
      exact .inr (by simp [StreamHub.step, hws])
  · cases hstep

/-! ## What a queue was offered -/

/-- A new queue has been offered nothing. -/
lemma offered_self {s : History} {q : ℕ} (h : s.since q = s.log.length) (topic : String) :
    s.offered topic q = [] := by
  unfold History.offered
  rw [h, List.drop_of_length_le (by rw [List.length_zipIdx])]
  rfl

/-- A queue that was just made has been offered nothing, the others what they had been. -/
lemma offered_made {s s' : History} {n : ℕ} (hlog : s'.log = s.log)
    (hsince : s'.since = Function.update s.since n s.log.length) (topic : String) (q : ℕ) :
    s'.offered topic q = if q = n then [] else s.offered topic q := by
  by_cases hq : q = n
  · rw [if_pos hq]
    refine offered_self ?_ topic
    rw [hsince, hlog, hq, Function.update_self]
  · rw [if_neg hq]
    unfold History.offered
    rw [hlog, hsince, Function.update_of_ne hq]

/-- One message more has been routed. -/
lemma offered_append {s s' : History} {topic' : String} {msg : Json} {q : ℕ}
    (hlog : s'.log = s.log ++ [(topic', msg)]) (hsince : s'.since q = s.since q)
    (hle : s.since q ≤ s.log.length) (topic : String) :
    s'.offered topic q =
      s.offered topic q ++ if topic' = topic then [(msg, s.log.length)] else [] := by
  unfold History.offered
  rw [hlog, hsince, List.zipIdx_append,
    List.drop_append_of_le_length (by rwa [List.length_zipIdx]), List.filter_append,
    List.map_append]
  by_cases ht : topic' = topic
  · simp [ht]
  · simp [ht]

/-- The places of the messages grow, so no message comes twice. -/
lemma offered_nodup (s : History) (topic : String) (q : ℕ) :
    ((s.offered topic q).map Prod.snd).Nodup := by
  have hsublist : ((s.offered topic q).map Prod.snd).Sublist (s.log.zipIdx.map Prod.snd) := by
    unfold History.offered
    rw [List.map_map]
    exact (List.filter_sublist.trans (List.drop_sublist _ _)).map Prod.snd
  refine hsublist.nodup ?_
  rw [List.zipIdx_map_snd]
  exact List.nodup_range'

/-! ## What every step keeps -/

/-- The history is that of the hub, and what was taken from a queue and what it holds are, in
that order, among the messages it was offered, up to the last one while it is in the table. -/
structure Ordered (s : History) : Prop where
  registered : Registered s.hub.base
  items_eq : ∀ q, (s.items q).map Prod.fst = s.hub.queued q
  length_le : ∀ q, (s.items q).length ≤ queueSize
  since_le : ∀ q, s.since q ≤ s.log.length
  fresh : ∀ q, s.hub.base.calls.length ≤ q → s.items q = [] ∧ s.delivered q = []
  sublist : ∀ q topic, (s.hub.base.calls.map StreamHub.Call.topic)[q]? = some topic →
    (s.delivered q ++ s.items q).Sublist (s.offered topic q)
  newest : ∀ topic, ∀ q ∈ s.hub.base.queuesOf topic,
    (s.offered topic q).getLast? = (s.delivered q ++ s.items q).getLast?

lemma ordered_init : Ordered {} := by
  refine ⟨StreamHub.registered_init, fun q => rfl, fun q => Nat.zero_le _, fun q => le_rfl,
    fun q _ => ⟨rfl, rfl⟩, fun q topic _ => List.nil_sublist _, fun topic q hq => ?_⟩
  rfl

/-- Nothing but the hub changes, of which queues may leave the table. -/
lemma Ordered.of_table {s : History} (h : Ordered s) {hub : Hub}
    (htopics : hub.base.calls.map StreamHub.Call.topic =
      s.hub.base.calls.map StreamHub.Call.topic)
    (hqueues : ∀ t, (hub.base.queuesOf t).Sublist (s.hub.base.queuesOf t))
    (hqueued : hub.queued = s.hub.queued) : Ordered { s with hub := hub } := by
  refine ⟨h.registered.of_table htopics hqueues, fun q => ?_, h.length_le, h.since_le,
    fun q hq => ?_, fun q topic hq => ?_, fun topic q hq => ?_⟩
  · rw [hqueued]
    exact h.items_eq q
  · refine h.fresh q ?_
    rwa [← List.length_map StreamHub.Call.topic, ← htopics, List.length_map]
  · rw [htopics] at hq
    exact h.sublist q topic hq
  · exact h.newest topic q ((hqueues topic).subset hq)

/-- The new queue begins where the log ends. -/
lemma Ordered.subscribe {s : History} (h : Ordered s) {hub : Hub} {topic : String}
    (hbase : hub.base = s.hub.base.subscribe topic) (hqueued : hub.queued = s.hub.queued) :
    Ordered { s with
      hub := hub
      since := Function.update s.since s.hub.base.calls.length s.log.length } := by
  have hcalls : hub.base.calls.map StreamHub.Call.topic =
      s.hub.base.calls.map StreamHub.Call.topic ++ [topic] := by
    rw [hbase, StreamHub.topics_subscribe]
  have hlength : hub.base.calls.length = s.hub.base.calls.length + 1 := by
    rw [← List.length_map StreamHub.Call.topic, hcalls, List.length_append, List.length_map,
      List.length_singleton]
  obtain ⟨hnoItems, hnoneTaken⟩ := h.fresh s.hub.base.calls.length le_rfl
  have hoffered : ∀ t q, ({ s with
      hub := hub
      since := Function.update s.since s.hub.base.calls.length s.log.length } :
        History).offered t q = if q = s.hub.base.calls.length then [] else s.offered t q := by
    intro t q
    refine offered_made ?_ ?_ t q
    · rfl
    · rfl
  refine ⟨?_, fun q => ?_, h.length_le, fun q => ?_, fun q hq => ?_, fun q t hq => ?_,
    fun t q hq => ?_⟩
  · dsimp only
    rw [hbase]
    exact h.registered.subscribe topic
  · rw [hqueued]
    exact h.items_eq q
  · dsimp only
    by_cases hq : q = s.hub.base.calls.length
    · rw [hq, Function.update_self]
    · rw [Function.update_of_ne hq]
      exact h.since_le q
  · dsimp only at hq
    exact h.fresh q (by omega)
  · by_cases hlast : q = s.hub.base.calls.length
    · rw [hoffered, if_pos hlast, hlast]
      dsimp only
      rw [hnoItems, hnoneTaken]
      exact List.nil_sublist _
    · rw [hoffered, if_neg hlast]
      -- an older queue is that of an older call
      refine h.sublist q t ?_
      dsimp only at hq
      rw [hcalls] at hq
      have hlt : q < s.hub.base.calls.length := by
        have := (List.getElem?_eq_some_iff.mp hq).1
        rw [List.length_append, List.length_map, List.length_singleton] at this
        omega
      rwa [List.getElem?_append_left (by rwa [List.length_map])] at hq
  · by_cases hlast : q = s.hub.base.calls.length
    · rw [hoffered, if_pos hlast, hlast]
      dsimp only
      rw [hnoItems, hnoneTaken]
      rfl
    · rw [hoffered, if_neg hlast]
      refine h.newest t q ?_
      dsimp only at hq
      rw [hbase, StreamHub.queuesOf_subscribe] at hq
      split at hq
      · next ht =>
        rw [ht]
        exact (List.mem_append.mp hq).resolve_right fun hmem =>
          hlast (List.mem_singleton.mp hmem)
      · exact hq

/-- A queue after a message was routed: put into, if it is one of the topic's. -/
lemma Ordered.items_routed {s : History} (h : Ordered s) (topic : String) (x : Json × ℕ)
    (q : ℕ) :
    offerAll queueSize (s.hub.base.queuesOf topic) s.items x q =
      if q ∈ s.hub.base.queuesOf topic then DropQueue.put queueSize (s.items q) x
      else s.items q := by
  rw [offerAll_apply queueSize (h.registered.nodup topic),
    offer_eq_put (by decide) (h.length_le q)]

/-- A routed message comes last in each queue of its topic, and a full one lost its oldest. -/
lemma Ordered.frame {s : History} (h : Ordered s) {hub : Hub} {topic : String} {msg : Json}
    (hcalls : hub.base.calls = s.hub.base.calls) (hqueues : hub.base.queues = s.hub.base.queues)
    (hqueued : hub.queued = (s.hub.deliver (.str topic) msg).queued) :
    Ordered { s with
      hub := hub
      log := s.log ++ [(topic, msg)]
      items := offerAll queueSize (s.hub.base.queuesOf topic) s.items (msg, s.log.length) } := by
  have hof : ∀ t, hub.base.queuesOf t = s.hub.base.queuesOf t := by
    intro t
    rw [StreamHub.State.queuesOf, hqueues]
    rfl
  have hoffered : ∀ t q, ({ s with
      hub := hub
      log := s.log ++ [(topic, msg)]
      items := offerAll queueSize (s.hub.base.queuesOf topic) s.items (msg, s.log.length) } :
        History).offered t q =
      s.offered t q ++ if topic = t then [(msg, s.log.length)] else [] := by
    intro t q
    refine offered_append ?_ ?_ (h.since_le q) t
    · rfl
    · rfl
  refine ⟨?_, fun q => ?_, fun q => ?_, fun q => ?_, fun q hq => ?_, fun q t hq => ?_,
    fun t q hq => ?_⟩
  · refine h.registered.of_table (by dsimp only; rw [hcalls]) fun t => ?_
    dsimp only
    rw [hof]
  · dsimp only
    rw [hqueued, h.items_routed]
    have hdeliver : (s.hub.deliver (.str topic) msg).queued q =
        if q ∈ s.hub.base.queuesOf topic then HubRoutes.put (s.hub.queued q) msg
        else s.hub.queued q :=
      foldl_update_apply (fun items => HubRoutes.put items msg) (h.registered.nodup topic)
        s.hub.queued q
    rw [hdeliver]
    split
    · rw [DropQueue.map_put, h.items_eq]
      rfl
    · exact h.items_eq q
  · dsimp only
    rw [h.items_routed]
    split
    · exact DropQueue.length_put_le (by decide) (h.length_le q)
    · exact h.length_le q
  · dsimp only
    rw [List.length_append]
    exact (h.since_le q).trans (Nat.le_add_right _ _)
  · dsimp only at hq ⊢
    rw [hcalls] at hq
    -- a queue that no call has made yet is in no topic
    have hnot : q ∉ s.hub.base.queuesOf topic := fun hmem =>
      absurd (h.registered.lt_length hmem) (Nat.not_lt_of_le hq)
    rw [h.items_routed, if_neg hnot]
    exact h.fresh q hq
  · rw [hoffered]
    dsimp only at hq ⊢
    rw [hcalls] at hq
    rw [h.items_routed]
    split
    · next hmem =>
      -- a queue of the topic was made for it
      have ht : topic = t := by
        have hmade := h.registered.made topic q hmem
        rw [hq] at hmade
        exact (Option.some.inj hmade).symm
      rw [if_pos ht]
      calc s.delivered q ++ DropQueue.put queueSize (s.items q) (msg, s.log.length)
          <+ s.delivered q ++ (s.items q ++ [(msg, s.log.length)]) :=
            DropQueue.put_sublist.append_left _
        _ = s.delivered q ++ s.items q ++ [(msg, s.log.length)] := (List.append_assoc ..).symm
        _ <+ s.offered t q ++ [(msg, s.log.length)] := (h.sublist q t hq).append_right _
    · exact (h.sublist q t hq).trans (List.sublist_append_left _ _)
  · rw [hoffered]
    dsimp only at hq ⊢
    rw [hof] at hq
    rw [h.items_routed]
    by_cases ht : topic = t
    · subst ht
      rw [if_pos rfl, if_pos hq, List.getLast?_concat, List.getLast?_append,
        DropQueue.getLast?_put]
      rfl
    · -- a queue of another topic is not one of this
      have hnot : q ∉ s.hub.base.queuesOf topic := by
        intro hmem
        have hmade := h.registered.made topic q hmem
        rw [h.registered.made t q hq] at hmade
        exact ht (Option.some.inj hmade).symm
      rw [if_neg ht, if_neg hnot, List.append_nil]
      exact h.newest t q hq

/-- What was taken from a queue and what it holds, after a message is taken. -/
lemma append_get {α : Type*} {delivered items : ℕ → List α} {q : ℕ} {x : α} {rest : List α}
    (hitems : items q = x :: rest) (r : ℕ) :
    Function.update delivered q (delivered q ++ [x]) r ++ Function.update items q rest r =
      delivered r ++ items r := by
  by_cases hr : r = q
  · rw [hr, Function.update_self, Function.update_self, hitems, List.append_assoc]
    rfl
  · rw [Function.update_of_ne hr, Function.update_of_ne hr]

/-- A taken message moves from the one list to the end of the other. -/
lemma Ordered.get {s : History} (h : Ordered s) {hub : Hub} {q : ℕ} {x : Json × ℕ}
    {rest : List (Json × ℕ)} (hitems : s.items q = x :: rest) (hbase : hub.base = s.hub.base)
    (hqueued : hub.queued = Function.update s.hub.queued q (rest.map Prod.fst)) :
    Ordered { s with
      hub := hub
      items := Function.update s.items q rest
      delivered := Function.update s.delivered q (s.delivered q ++ [x]) } := by
  refine ⟨?_, fun r => ?_, fun r => ?_, h.since_le, fun r hr => ?_, fun r t hr => ?_,
    fun t r hr => ?_⟩
  · dsimp only
    rw [hbase]
    exact h.registered
  · dsimp only
    rw [hqueued]
    by_cases hr : r = q
    · rw [hr, Function.update_self, Function.update_self]
    · rw [Function.update_of_ne hr, Function.update_of_ne hr]
      exact h.items_eq r
  · dsimp only
    by_cases hr : r = q
    · have hle := h.length_le q
      rw [hitems, List.length_cons] at hle
      rw [hr, Function.update_self]
      omega
    · rw [Function.update_of_ne hr]
      exact h.length_le r
  · dsimp only at hr ⊢
    rw [hbase] at hr
    obtain ⟨hnoItems, hnoneTaken⟩ := h.fresh r hr
    -- the queue that was read held something
    have hne : r ≠ q := by
      intro heq
      rw [heq, hitems] at hnoItems
      exact List.cons_ne_nil _ _ hnoItems
    rw [Function.update_of_ne hne, Function.update_of_ne hne]
    exact ⟨hnoItems, hnoneTaken⟩
  · dsimp only at hr ⊢
    rw [hbase] at hr
    rw [append_get hitems]
    exact h.sublist r t hr
  · dsimp only at hr ⊢
    rw [hbase] at hr
    rw [append_get hitems]
    exact h.newest t r hr

/-! ## Runs -/

/-- A step of the history is one of the hub, with its record. -/
lemma step_eq {s s' : History} {e : Event} (hstep : step P route s e = some s') :
    ∃ hub, HubRoutes.step P route s.hub e = some hub ∧ s' = s.record route hub e := by
  obtain ⟨hub, hhub, rfl⟩ := Option.map_eq_some_iff.mp hstep
  exact ⟨hub, hhub, rfl⟩

/-- The record is that of the hub after its step. -/
lemma hub_record (s : History) (hub : Hub) (e : Event) : (s.record route hub e).hub = hub := by
  unfold History.record
  repeat' split
  all_goals rfl

/-- Every step keeps the frames of a queue in order. -/
lemma Ordered.step {s s' : History} {e : Event} (h : Ordered s)
    (hstep : step P route s e = some s') : Ordered s' := by
  obtain ⟨hub, hhub, rfl⟩ := step_eq hstep
  cases e with
  | base e =>
    obtain ⟨base, hbase, rfl⟩ := Option.map_eq_some_iff.mp hhub
    rcases StreamHub.step_queues hbase with ⟨topic, rfl, rfl⟩ | ⟨hne, htopics, hqueues⟩
    · exact h.subscribe rfl rfl
    · have hrecord : s.record route { s.hub with base := base } (.base e) =
          { s with hub := { s.hub with base := base } } := by
        cases e with
        | subscribe topic => exact absurd rfl (hne topic)
        | _ => rfl
      rw [hrecord]
      exact h.of_table htopics hqueues rfl
  | frame k raw =>
    obtain ⟨hcalls, hqueues, ⟨hnone, hqueued⟩ | ⟨topic, msg, hsome, hqueued⟩⟩ := step_frame hhub
    · simp only [History.record, hnone]
      refine h.of_table (by rw [hcalls]) (fun t => ?_) hqueued
      rw [StreamHub.State.queuesOf, hqueues]
      exact List.Sublist.refl _
    · simp only [History.record, hsome]
      exact h.frame hcalls hqueues hqueued
  | get q =>
    simp only [HubRoutes.step] at hhub
    cases hitems : s.items q with
    | nil =>
      rw [← h.items_eq q, hitems] at hhub
      cases hhub
    | cons x rest =>
      have hqueued : s.hub.queued q = x.1 :: rest.map Prod.fst := by
        rw [← h.items_eq q, hitems, List.map_cons]
      simp only [hqueued, Option.some.injEq] at hhub
      simp only [History.record, hitems]
      subst hhub
      exact h.get hitems rfl rfl

/-- The frames of a queue are in order in every run. -/
theorem ordered_of_run {es : List Event} {s : History}
    (hrun : run (step P route) {} es = some s) : Ordered s :=
  invariant_of_run (fun _ _ _ h hstep => h.step hstep) ordered_init hrun

/-- The history is kept beside the hub and does not change what it does. -/
lemma run_hub {es : List Event} {s s' : History} (hrun : run (step P route) s es = some s') :
    run (HubRoutes.step P route) s.hub es = some s'.hub := by
  induction es generalizing s with
  | nil =>
    rw [run_nil, Option.some.injEq] at hrun
    rw [run_nil, hrun]
  | cons e es ih =>
    obtain ⟨t, hstep, hrest⟩ := run_cons.mp hrun
    obtain ⟨hub, hhub, rfl⟩ := step_eq hstep
    refine run_cons.mpr ⟨hub, hhub, ?_⟩
    rw [← hub_record s hub e]
    exact ih hrest

/-- A message leaves a queue to its consumer, or as the oldest of a full one. -/
lemma Ordered.lost {s s' : History} {e : Event} (h : Ordered s)
    (hstep : HubQueues.step P route s e = some s') {q : ℕ} {x : Json × ℕ} (hmem : x ∈ s.items q)
    (hitems : x ∉ s'.items q) (hdelivered : x ∉ s'.delivered q) :
    (s.items q).length = queueSize ∧ (s.items q).head? = some x := by
  obtain ⟨hub, hhub, rfl⟩ := step_eq hstep
  -- of the three kinds of event, a get moves the message and a frame may drop it
  cases e with
  | base e =>
    have hsame : (s.record route hub (.base e)).items = s.items := by
      cases e <;> rfl
    rw [hsame] at hitems
    exact absurd hmem hitems
  | frame k raw =>
    simp only [History.record] at hitems
    split at hitems
    · exact absurd hmem hitems
    · next topic msg hrouted =>
      dsimp only at hitems
      rw [h.items_routed] at hitems
      split at hitems
      · obtain ⟨hfull, hhead⟩ := DropQueue.eq_head_of_not_mem_put hmem hitems
        exact ⟨le_antisymm (h.length_le q) hfull, hhead⟩
      · exact absurd hmem hitems
  | get r =>
    simp only [History.record] at hitems hdelivered
    cases hr : s.items r with
    | nil =>
      simp only [hr] at hitems
      exact absurd hmem hitems
    | cons y rest =>
      simp only [hr] at hitems hdelivered
      by_cases hq : q = r
      · subst hq
        rw [Function.update_self] at hitems hdelivered
        rw [hr] at hmem
        rcases List.mem_cons.mp hmem with rfl | hrest
        · exact absurd (List.mem_append_right _ (List.mem_singleton_self _)) hdelivered
        · exact absurd hrest hitems
      · rw [Function.update_of_ne hq] at hitems
        exact absurd hmem hitems

/-- What was delivered stays so. -/
lemma delivered_grows {s s' : History} {e : Event} (hstep : step P route s e = some s')
    (q : ℕ) : s.delivered q <+: s'.delivered q := by
  obtain ⟨hub, hhub, rfl⟩ := step_eq hstep
  cases e with
  | base e =>
    have hsame : (s.record route hub (.base e)).delivered = s.delivered := by
      cases e <;> rfl
    rw [hsame]
  | frame k raw =>
    simp only [History.record]
    split
    · exact List.prefix_refl _
    · exact List.prefix_refl _
  | get r =>
    simp only [History.record]
    split
    · exact List.prefix_refl _
    · dsimp only
      by_cases hq : q = r
      · rw [hq, Function.update_self]
        exact List.prefix_append _ _
      · rw [Function.update_of_ne hq]

/-- In every run of a hub and its consumers: of each queue, what was delivered and what it holds
are, in order and each once, among the messages routed to its topic since it was registered, up to
the newest one while the queue is in the table; and in every further step a message is lost only
by a queue of 1024, as the oldest of them, while a routed message is offered to every queue of its
topic, whatever is in the others. -/
theorem queues_drop_oldest (P : StreamHub.Payloads String)
    (route : Json → Except RouteError (Option Json)) {es : List Event} {s : History}
    (hrun : run (step P route) {} es = some s) :
    run (HubRoutes.step P route) {} es = some s.hub ∧
    (∀ q topic, (s.hub.base.calls.map StreamHub.Call.topic)[q]? = some topic →
      (s.items q).map Prod.fst = s.hub.queued q ∧
      (s.delivered q ++ s.items q) <+ s.offered topic q ∧
      ((s.delivered q ++ s.items q).map Prod.snd).Nodup) ∧
    (∀ topic, ∀ q ∈ s.hub.base.queuesOf topic,
      (s.hub.base.calls.map StreamHub.Call.topic)[q]? = some topic ∧
      (s.offered topic q).getLast? = (s.delivered q ++ s.items q).getLast?) ∧
    ∀ e s', step P route s e = some s' →
      (∀ q, s.delivered q <+: s'.delivered q ∧
        ∀ x ∈ s.items q, x ∉ s'.items q → x ∉ s'.delivered q →
          (s.items q).length = 1024 ∧ (s.items q).head? = some x) ∧
      ∀ k raw topic msg, e = .frame k raw → routed route raw = some (topic, msg) →
        s'.log = s.log ++ [(topic, msg)] ∧
        ∀ q, s'.items q =
          if q ∈ s.hub.base.queuesOf topic then
            offer queueSize (s.items q) (msg, s.log.length)
          else s.items q := by
  have h : Ordered s := ordered_of_run hrun
  refine ⟨run_hub hrun, fun q topic hq => ⟨h.items_eq q, h.sublist q topic hq, ?_⟩,
    fun topic q hq => ⟨h.registered.made topic q hq, h.newest topic q hq⟩,
    fun e s' hstep => ⟨fun q => ⟨delivered_grows hstep q, fun x => h.lost hstep⟩, ?_⟩⟩
  · exact ((h.sublist q topic hq).map Prod.snd).nodup (offered_nodup s topic q)
  · rintro k raw topic msg rfl hrouted
    obtain ⟨hub, -, rfl⟩ := step_eq hstep
    simp only [History.record, hrouted, true_and]
    exact fun q => offerAll_apply queueSize (h.registered.nodup topic) _ _ q

/-! ## A queue that overflows -/

/-- A frame that is routed, on a connection that receives. -/
lemma step_of_routed {s : History} {k ws : ℕ} {raw : Option Json} {topic : String} {msg : Json}
    (hws : s.hub.base.runs[k]? = some (.receiving ws))
    (hrouted : routed route raw = some (topic, msg)) :
    ∃ s', step P route s (.frame k raw) = some s' ∧ s'.hub.base = s.hub.base ∧
      s'.delivered = s.delivered ∧ s'.log.length = s.log.length + 1 ∧
      s'.items = offerAll queueSize (s.hub.base.queuesOf topic) s.items (msg, s.log.length) := by
  rcases receive_cases route s.hub raw with ⟨topic', msg', hrouted', hreceive⟩ | ⟨hnone, -⟩
  · obtain ⟨rfl, rfl⟩ := Prod.mk.inj (Option.some.inj (hrouted'.symm.trans hrouted))
    have hhub : HubRoutes.step P route s.hub (.frame k raw) =
        some (s.hub.deliver (.str topic') msg') := by
      simp only [HubRoutes.step, hws, hreceive]
    have hstep : step P route s (.frame k raw) =
        some (s.record route (s.hub.deliver (.str topic') msg') (.frame k raw)) := by
      unfold step
      rw [hhub]
      rfl
    simp only [History.record, hrouted] at hstep
    exact ⟨_, hstep, rfl, rfl, List.length_append, rfl⟩
  · exact absurd (hnone.symm.trans hrouted) (by simp)

/-- The subscriber of a topic is connected, -/
def opened : List Event := [.base (.subscribe "trade"), .base (.connect 0), .base (.resubscribed 0)]

/-- A frame of one trade. -/
def trade : Json := .obj [("stream", .str "trade"), ("data", .num 1)]

/-- and gets as many trades, all of them equal. -/
def flood (n : ℕ) : List Event := opened ++ List.replicate n (.frame 0 (some trade))

/-- Up to the 1024 places of the queue all of them wait in it. -/
lemma run_flood {n : ℕ} (hn : n ≤ 1024) :
    ∃ s, run (step (.batched String) HubRoutes.Binance.route) {} (flood n) = some s ∧
      s.hub.base.runs[0]? = some (.receiving 0) ∧ s.hub.base.queuesOf "trade" = [0] ∧
      s.log.length = n ∧ s.delivered 0 = [] ∧
      s.items 0 = (List.range n).map fun i => (trade, i) := by
  induction n with
  | zero => exact ⟨_, rfl, rfl, rfl, rfl, rfl, rfl⟩
  | succ n ih =>
    obtain ⟨s, hrun, hws, hqueues, hlog, hdelivered, hitems⟩ := ih (by omega)
    obtain ⟨s', hstep, hbase, hdelivered', hlog', hitems'⟩ :=
      step_of_routed (P := .batched String) hws
        (show routed HubRoutes.Binance.route (some trade) = some ("trade", trade) from rfl)
    have hflood : flood (n + 1) = flood n ++ [.frame 0 (some trade)] := by
      unfold flood
      rw [List.replicate_succ', List.append_assoc]
    refine ⟨s', hflood ▸ run_concat hrun hstep, hbase ▸ hws, ?_, hlog ▸ hlog', ?_, ?_⟩
    · unfold StreamHub.State.queuesOf at hqueues ⊢
      rw [hbase]
      exact hqueues
    · rw [hdelivered', hdelivered]
    · have hroom : (s.items 0).length < queueSize := by
        rw [hitems, List.length_map, List.length_range]
        exact hn
      rw [hitems', (ordered_of_run hrun).items_routed, hqueues, if_pos (List.mem_singleton_self 0),
        DropQueue.put, if_pos hroom, hitems, hlog, List.range_succ, List.map_append,
        List.map_singleton]

lemma zero_notMem_tail_range (n : ℕ) : 0 ∉ (List.range n).tail := by
  cases n with
  | zero => exact List.not_mem_nil
  | succ n =>
    rw [List.range_succ_eq_map, List.tail_cons]
    simp

/-- The trade after the 1024th costs the queue its oldest, which its consumer never gets, and no
other. -/
theorem queues_drop_oldest_trades : ∃ s s',
    run (step (.batched String) HubRoutes.Binance.route) {} (flood 1024) = some s ∧
    step (.batched String) HubRoutes.Binance.route s (.frame 0 (some trade)) = some s' ∧
    s.delivered 0 <+: s'.delivered 0 ∧
    (s.items 0).length = 1024 ∧ (s.items 0).head? = some (trade, 0) ∧
    s'.delivered 0 = [] ∧ s'.items 0 = (s.items 0).tail ++ [(trade, 1024)] := by
  obtain ⟨s, hrun, hws, hqueues, hlog, hdelivered, hitems⟩ := run_flood (le_refl 1024)
  obtain ⟨s', hstep, -, hdelivered', -, hitems'⟩ :=
    step_of_routed (P := .batched String) hws
      (show routed HubRoutes.Binance.route (some trade) = some ("trade", trade) from rfl)
  have hfull : ¬ (s.items 0).length < queueSize := by
    rw [hitems, List.length_map, List.length_range]
    exact lt_irrefl 1024
  have hdropped : s'.items 0 = (s.items 0).tail ++ [(trade, 1024)] := by
    rw [hitems', (ordered_of_run hrun).items_routed, hqueues, if_pos (List.mem_singleton_self 0),
      DropQueue.put, if_neg hfull, hlog]
  have hnone : s'.delivered 0 = [] := by rw [hdelivered', hdelivered]
  obtain ⟨-, -, -, hnext⟩ := queues_drop_oldest _ _ hrun
  obtain ⟨hgrows, hlost⟩ := (hnext _ _ hstep).1 0
  have hmem : (trade, 0) ∈ s.items 0 := by
    rw [hitems]
    exact List.mem_map_of_mem (List.mem_range.mpr (by decide))
  have hgone : (trade, 0) ∉ s'.items 0 := by
    rw [hdropped, hitems, ← List.map_tail]
    intro hin
    rcases List.mem_append.mp hin with hin | hin
    · obtain ⟨i, hi, heq⟩ := List.mem_map.mp hin
      obtain rfl := (Prod.mk.inj heq).2
      exact zero_notMem_tail_range 1024 hi
    · exact absurd (List.mem_singleton.mp hin) (by simp)
  obtain ⟨hlength, hhead⟩ := hlost _ hmem hgone (by simp [hnone])
  exact ⟨s, s', hrun, hstep, hgrows, hlength, hhead, hnone, hdropped⟩

end HubQueues
end ExchangeRouter
