import ExchangeRouter.HubPipes
import ExchangeRouter.HubQueuesTheorems

/-!
# The hub refines the pipes of its queues

A run of the hub is, for each of its queues, a run of the pipe over the messages offered to that
queue (`pipe_of_run`): a routed message is a delivery, a `get` is a take, and all other steps are
steps of the pipe's environment. So what is proved of a consumer behind one bounded queue holds
behind the queues of a hub, whatever its other consumers, its reconnects and its other topics do.
-/

namespace ExchangeRouter
namespace HubQueues

open DropQueue (Pipe put Survives)
open HubRoutes (Hub RouteError Event queueSize)
open MakeRequest (Json)
open StreamHub (Registered)
open Transition

/-! ## Places -/

section

variable {α : Type*} {offered ext : List (Json × ℕ)} {x y : α × ℕ}

/-- More messages leave the places of those before. -/
lemma Placed.append (h : Placed offered x y) : Placed (offered ++ ext) x y := by
  refine ⟨h.fst, ?_⟩
  have hlt : x.2 < offered.length := by
    by_contra hge
    have hplace := h.place
    rw [List.getElem?_eq_none (Nat.le_of_not_lt hge)] at hplace
    cases hplace
  rw [List.getElem?_append_left hlt]
  exact h.place

lemma placed_forall_append {xs ys : List (α × ℕ)} (h : List.Forall₂ (Placed offered) xs ys) :
    List.Forall₂ (Placed (offered ++ ext)) xs ys :=
  h.imp fun _ _ => Placed.append

/-- Two queues that hold the same still do after the same message was put into both. -/
lemma forall₂_put {R : α × ℕ → α × ℕ → Prop} {xs ys : List (α × ℕ)} (h : List.Forall₂ R xs ys)
    (hxy : R x y) (cap : ℕ) : List.Forall₂ R (put cap xs x) (put cap ys y) := by
  unfold put
  rw [h.length_eq]
  have hlast : List.Forall₂ R [x] [y] := .cons hxy .nil
  split
  · exact List.rel_append h hlast
  · refine List.rel_append ?_ hlast
    cases h with
    | nil => exact .nil
    | cons _ hrest => exact hrest

/-- The outputs of one message stand at its place. -/
lemma placed_outputs {β : Type*} {i l : ℕ} (h : (offered[i]?).map Prod.snd = some l)
    (outs : List β) :
    List.Forall₂ (Placed offered) (outs.map fun o => (o, i)) (outs.map fun o => (o, l)) := by
  rw [List.forall₂_map_left_iff, List.forall₂_map_right_iff, List.forall₂_same]
  exact fun o _ => ⟨rfl, h⟩

end

/-! ## The simulation -/

section

variable {σ μ β : Type*} {read : Json → μ} {body : σ → μ → List β × Option σ} {c : σ}
  {s s' : History} {topic : String} {q : ℕ} {p : Pipe σ μ β}

/-- A queue that has just been registered. -/
lemma mirrors_init (hdelivered : s.delivered q = []) (hitems : s.items q = [])
    (hoffered : s.offered topic q = []) :
    Mirrors read body c s topic q { consumer := some c } := by
  have htaken : s.taken read q = [] := by
    rw [History.taken, hdelivered, List.map_nil]
  refine ⟨Nat.zero_le _, ?_, ?_, fun c' _ => ?_, fun c' _ _ => ?_⟩
  · rw [htaken]
    rfl
  · rw [History.yielded, htaken]
    exact .nil
  · rw [hitems]
    exact .nil
  · rw [hoffered]
    rfl

/-- Nothing reaches the queue, or its consumer has ended. -/
lemma Mirrors.grow (h : Mirrors read body c s topic q p) {ext : List (Json × ℕ)}
    (hoffered : s'.offered topic q = s.offered topic q ++ ext)
    (hdelivered : s'.delivered q = s.delivered q)
    (hitems : ∀ c', p.consumer = some c' → s'.items q = s.items q)
    (hsent : ∀ c', p.consumer = some c' → q ∈ s'.hub.base.queuesOf topic →
      q ∈ s.hub.base.queuesOf topic ∧ ext = []) :
    Mirrors read body c s' topic q p := by
  have htaken : s'.taken read q = s.taken read q := by
    rw [History.taken, hdelivered]
    rfl
  refine ⟨?_, ?_, ?_, fun c' hc' => ?_, fun c' hc' hq => ?_⟩
  · rw [hoffered, List.length_append]
    exact h.sent_le.trans (Nat.le_add_right _ _)
  · rw [htaken]
    exact h.consumer
  · rw [hoffered, History.yielded, htaken]
    exact placed_forall_append h.out
  · rw [hoffered, hitems c' hc']
    exact placed_forall_append (h.queue c' hc')
  · obtain ⟨hmem, rfl⟩ := hsent c' hc' hq
    rw [hoffered, List.append_nil]
    exact h.sent c' hc' hmem

/-- A message is routed to the queue of a consumer that has not ended: the pipe delivers it. -/
lemma Mirrors.deliver (h : Mirrors read body c s topic q p) {c' : σ} {msg : Json} {l : ℕ}
    (hconsumer : p.consumer = some c') (hmem : q ∈ s.hub.base.queuesOf topic)
    (hoffered : s'.offered topic q = s.offered topic q ++ [(msg, l)])
    (hdelivered : s'.delivered q = s.delivered q)
    (hitems : s'.items q = put queueSize (s.items q) (msg, l)) :
    Mirrors read body c s' topic q
      { p with sent := p.sent + 1, queue := put queueSize p.queue (read msg, p.sent) } := by
  have hsent : p.sent = (s.offered topic q).length := h.sent c' hconsumer hmem
  have htaken : s'.taken read q = s.taken read q := by
    rw [History.taken, hdelivered]
    rfl
  have hplace : Placed (s'.offered topic q) (read msg, p.sent) (read msg, l) := by
    refine ⟨rfl, ?_⟩
    rw [hoffered, hsent, List.getElem?_concat_length]
    rfl
  refine ⟨?_, ?_, ?_, fun c'' hc'' => ?_, fun c'' hc'' _ => ?_⟩
  · rw [hoffered, List.length_append, List.length_singleton, hsent]
  · rw [htaken]
    exact h.consumer
  · rw [hoffered, History.yielded, htaken]
    exact placed_forall_append h.out
  · have hmap : (s'.items q).map (fun x => (read x.1, x.2)) =
        put queueSize ((s.items q).map fun x => (read x.1, x.2)) (read msg, l) := by
      rw [hitems, DropQueue.map_put]
    rw [hmap]
    refine forall₂_put ?_ hplace queueSize
    rw [hoffered]
    exact placed_forall_append (h.queue c' hconsumer)
  · rw [hoffered, List.length_append, List.length_singleton, hsent]

/-- A message is taken from the queue of a consumer that has not ended: the pipe takes it. -/
lemma Mirrors.take (h : Mirrors read body c s topic q p) {c' : σ} {x : Json × ℕ}
    {rest : List (Json × ℕ)} (hconsumer : p.consumer = some c') (hcons : s.items q = x :: rest)
    (hoffered : s'.offered topic q = s.offered topic q)
    (hdelivered : s'.delivered q = s.delivered q ++ [x]) (hitems : s'.items q = rest)
    (hof : s'.hub.base.queuesOf topic = s.hub.base.queuesOf topic) (feed : List μ) :
    ∃ p', DropQueue.step queueSize body feed p .take = some p' ∧
      Mirrors read body c s' topic q p' := by
  have hqueue := h.queue c' hconsumer
  rw [hcons, List.map_cons] at hqueue
  obtain ⟨⟨m, i⟩, queue, ⟨rfl, hplace⟩, hrest, hp⟩ := List.forall₂_cons_right_iff.mp hqueue
  have hafter : Generator.after body c (s.taken read q) = some c' := by
    rw [← h.consumer, hconsumer]
  have htaken : s'.taken read q = s.taken read q ++ [(read x.1, x.2)] := by
    rw [History.taken, hdelivered, List.map_append]
    rfl
  refine ⟨_, DropQueue.step_take hp hconsumer, ?_, ?_, ?_, fun c'' hc'' => ?_,
    fun c'' hc'' hq => ?_⟩
  · rw [hoffered]
    exact h.sent_le
  · rw [htaken, Generator.after_append, hafter, Option.bind_some, Generator.after_singleton]
  · have hyielded : s'.yielded read body c q = s.yielded read body c q ++
        (body c' (read x.1)).1.map fun o => (o, x.2) := by
      rw [History.yielded, htaken, Generator.yields_append, hafter]
      congr 1
      exact Generator.yields_singleton c' (read x.1) x.2
    rw [hoffered, hyielded]
    exact List.rel_append h.out (placed_outputs hplace _)
  · rw [hoffered, hitems]
    exact hrest
  · rw [hof] at hq
    rw [hoffered]
    exact h.sent c' hconsumer hq

/-- The invariant: over every feed that begins with what the queue was offered, some run of the
pipe leads to where the hub is now, without a loss that the hub did not spare. -/
def Simulated (read : Json → μ) (body : σ → μ → List β × Option σ) (c : σ)
    (resync : σ → μ → Prop) (topic : String) (q : ℕ) (s : History) : Prop :=
  (s.hub.base.calls.map StreamHub.Call.topic)[q]? = some topic →
    ∀ feed, s.feed read topic q <+: feed → ∃ events p,
      run (DropQueue.step queueSize body feed) { consumer := some c } events = some p ∧
      Meets (DropQueue.step queueSize body feed) (Survives queueSize feed resync)
        { consumer := some c } events ∧
      Mirrors read body c s topic q p

variable {resync : σ → μ → Prop}

lemma simulated_init : Simulated read body c resync topic q {} := by
  intro hq
  exact absurd hq (by simp)

/-- A step that the pipe does not make. -/
lemma Simulated.keep (h : Simulated read body c resync topic q s) {ext : List (Json × ℕ)}
    (hq : (s'.hub.base.calls.map StreamHub.Call.topic)[q]? = some topic →
      (s.hub.base.calls.map StreamHub.Call.topic)[q]? = some topic)
    (hoffered : s'.offered topic q = s.offered topic q ++ ext)
    (hkeep : ∀ p : Pipe σ μ β, Mirrors read body c s topic q p →
      Mirrors read body c s' topic q p) :
    Simulated read body c resync topic q s' := by
  intro hq' feed hfeed
  have hprefix : s.feed read topic q <+: feed := by
    refine List.IsPrefix.trans ?_ hfeed
    rw [History.feed, History.feed, hoffered, List.map_append]
    exact List.prefix_append _ _
  obtain ⟨events, p, hrun, hmeets, hmirrors⟩ := h (hq hq') feed hprefix
  exact ⟨events, p, hrun, hmeets, hkeep p hmirrors⟩

/-- What is spared in the hub is survived by the pipe. -/
lemma Mirrors.survives (h : Mirrors read body c s topic q p)
    {route : Json → Except RouteError (Option Json)} {k : ℕ} {raw : Option Json} {msg : Json}
    (hspares : Spares read body c route resync topic q s (.frame k raw))
    (hrouted : routed route raw = some (topic, msg)) (hmem : q ∈ s.hub.base.queuesOf topic)
    {c' : σ} (hconsumer : p.consumer = some c') {feed : List μ}
    (hget : feed[p.sent]? = some (read msg)) :
    Survives queueSize feed resync p .deliver := by
  have hqueue := h.queue c' hconsumer
  rcases hspares msg hrouted hmem with hroom | hnext
  · left
    rwa [hqueue.length_eq, List.length_map]
  · right
    intro m c'' x hm hc'' hhead
    obtain rfl : c' = c'' := Option.some.inj (hconsumer.symm.trans hc'')
    obtain rfl : m = read msg := Option.some.inj (hm.symm.trans hget)
    have hafter : Generator.after body c (s.taken read q) = some c' := by
      rw [← h.consumer, hconsumer]
    -- the oldest message after the drop is the same on both sides
    cases hitems : s.items q with
    | nil =>
      rw [hitems] at hqueue hnext
      rw [List.forall₂_nil_right_iff.mp hqueue] at hhead
      obtain rfl := Option.some.inj hhead
      exact hnext c' _ hafter rfl
    | cons y rest =>
      rw [hitems, List.map_cons] at hqueue
      obtain ⟨y', queue, -, hrest, hp⟩ := List.forall₂_cons_right_iff.mp hqueue
      rw [hitems] at hnext
      rw [hp] at hhead
      cases rest with
      | nil =>
        rw [List.forall₂_nil_right_iff.mp hrest] at hhead
        obtain rfl := Option.some.inj hhead
        exact hnext c' _ hafter rfl
      | cons z rest =>
        rw [List.map_cons] at hrest
        obtain ⟨z', queue', ⟨hfst, -⟩, -, rfl⟩ := List.forall₂_cons_right_iff.mp hrest
        obtain rfl := Option.some.inj hhead
        rw [hfst]
        exact hnext c' z hafter rfl

/-- A message is routed to the queue. -/
lemma Simulated.deliver (h : Simulated read body c resync topic q s)
    {route : Json → Except RouteError (Option Json)} {k : ℕ} {raw : Option Json} {msg : Json}
    (hspares : Spares read body c route resync topic q s (.frame k raw))
    (hrouted : routed route raw = some (topic, msg)) (hmem : q ∈ s.hub.base.queuesOf topic)
    (hq : (s'.hub.base.calls.map StreamHub.Call.topic)[q]? = some topic →
      (s.hub.base.calls.map StreamHub.Call.topic)[q]? = some topic)
    (hoffered : s'.offered topic q = s.offered topic q ++ [(msg, s.log.length)])
    (hdelivered : s'.delivered q = s.delivered q)
    (hitems : s'.items q = put queueSize (s.items q) (msg, s.log.length)) :
    Simulated read body c resync topic q s' := by
  intro hq' feed hfeed
  have hsplit : s'.feed read topic q = s.feed read topic q ++ [read msg] := by
    rw [History.feed, hoffered, List.map_append]
    rfl
  have hprefix : s.feed read topic q <+: feed := by
    refine List.IsPrefix.trans ?_ hfeed
    rw [hsplit]
    exact List.prefix_append _ _
  obtain ⟨events, p, hrun, hmeets, hmirrors⟩ := h (hq hq') feed hprefix
  cases hconsumer : p.consumer with
  | none =>
    -- the consumer has ended, and what comes after is no longer its own
    refine ⟨events, p, hrun, hmeets, ?_⟩
    refine hmirrors.grow hoffered hdelivered (fun c' hc' => ?_) fun c' hc' => ?_
    · exact absurd (hconsumer.symm.trans hc') (by simp)
    · exact absurd (hconsumer.symm.trans hc') (by simp)
  | some c' =>
    have hget : feed[p.sent]? = some (read msg) := by
      obtain ⟨rest, rfl⟩ := hfeed
      rw [hsplit, hmirrors.sent c' hconsumer hmem, List.append_assoc]
      have hlen : (s.offered topic q).length = (s.feed read topic q).length := by
        rw [History.feed, List.length_map]
      rw [hlen, List.getElem?_append_right (le_refl _), Nat.sub_self]
      rfl
    refine ⟨events ++ [.deliver], _, run_concat hrun ?_, hmeets.concat hrun ?_,
      hmirrors.deliver hconsumer hmem hoffered hdelivered hitems⟩
    · rw [DropQueue.step, hget]
      rfl
    · exact hmirrors.survives hspares hrouted hmem hconsumer hget

/-- A message is taken from the queue. -/
lemma Simulated.take (h : Simulated read body c resync topic q s) {x : Json × ℕ}
    {rest : List (Json × ℕ)} (hcons : s.items q = x :: rest)
    (hbase : s'.hub.base = s.hub.base) (hoffered : s'.offered topic q = s.offered topic q)
    (hdelivered : s'.delivered q = s.delivered q ++ [x]) (hitems : s'.items q = rest) :
    Simulated read body c resync topic q s' := by
  intro hq feed hfeed
  rw [hbase] at hq
  have hsame : s'.feed read topic q = s.feed read topic q := by
    rw [History.feed, hoffered]
    rfl
  rw [hsame] at hfeed
  obtain ⟨events, p, hrun, hmeets, hmirrors⟩ := h hq feed hfeed
  cases hconsumer : p.consumer with
  | none =>
    -- an ended consumer makes nothing of what is taken
    have hafter : Generator.after body c (s.taken read q) = none := by
      rw [← hmirrors.consumer, hconsumer]
    have htaken : s'.taken read q = s.taken read q ++ [(read x.1, x.2)] := by
      rw [History.taken, hdelivered, List.map_append]
      rfl
    refine ⟨events, p, hrun, hmeets, ?_, ?_, ?_, fun c' hc' => ?_, fun c' hc' => ?_⟩
    · rw [hoffered]
      exact hmirrors.sent_le
    · rw [htaken, Generator.after_append, hafter, hconsumer]
      rfl
    · rw [hoffered, History.yielded, htaken, Generator.yields_append, hafter, List.append_nil]
      exact hmirrors.out
    · exact absurd (hconsumer.symm.trans hc') (by simp)
    · exact absurd (hconsumer.symm.trans hc') (by simp)
  | some c' =>
    obtain ⟨p', hstep, hmirrors'⟩ := hmirrors.take hconsumer hcons hoffered hdelivered hitems
      (by rw [hbase]) feed
    refine ⟨events ++ [.take], p', run_concat hrun hstep, hmeets.concat hrun ?_, hmirrors'⟩
    trivial

/-! ## Runs -/

variable {P : StreamHub.Payloads String} {route : Json → Except RouteError (Option Json)}

/-- One step of the hub. -/
lemma Simulated.step (hordered : Ordered s) (h : Simulated read body c resync topic q s)
    {e : Event} (hspares : Spares read body c route resync topic q s e)
    (hstep : HubQueues.step P route s e = some s') :
    Simulated read body c resync topic q s' := by
  obtain ⟨hub, hhub, rfl⟩ := step_eq hstep
  cases e with
  | base e =>
    obtain ⟨base, hbase, rfl⟩ := Option.map_eq_some_iff.mp hhub
    rcases StreamHub.step_queues hbase with ⟨topic', rfl, rfl⟩ | ⟨hne, htopics, hqueues⟩
    · -- a new queue, which may be this one
      have hoffered := @offered_made s
        (s.record route { s.hub with base := s.hub.base.subscribe topic' }
          (.base (.subscribe topic'))) _ rfl rfl topic q
      by_cases hnew : q = s.hub.base.calls.length
      · rw [if_pos hnew] at hoffered
        obtain ⟨hnoItems, hnoneTaken⟩ := hordered.fresh q hnew.ge
        intro _ feed _
        exact ⟨[], _, rfl, trivial, mirrors_init hnoneTaken hnoItems hoffered⟩
      · rw [if_neg hnew, ← List.append_nil (s.offered topic q)] at hoffered
        have hof : ∀ t, q ∈ (s.hub.base.subscribe topic').queuesOf t →
            q ∈ s.hub.base.queuesOf t := by
          intro t ht
          rw [StreamHub.queuesOf_subscribe] at ht
          split at ht
          · next heq =>
            rw [heq]
            exact (List.mem_append.mp ht).resolve_right fun hmem =>
              hnew (List.mem_singleton.mp hmem)
          · exact ht
        refine h.keep (fun hq => ?_) hoffered fun p hp => ?_
        · simp only [History.record, StreamHub.topics_subscribe] at hq
          have hlt : q < s.hub.base.calls.length := by
            have hlen := (List.getElem?_eq_some_iff.mp hq).1
            rw [List.length_append, List.length_map, List.length_singleton] at hlen
            omega
          rwa [List.getElem?_append_left (by rwa [List.length_map])] at hq
        · exact hp.grow hoffered rfl (fun _ _ => rfl) fun _ _ hmem => ⟨hof topic hmem, rfl⟩
    · have hrecord : s.record route { s.hub with base := base } (.base e) =
          { s with hub := { s.hub with base := base } } := by
        cases e with
        | subscribe topic => exact absurd rfl (hne topic)
        | _ => rfl
      rw [hrecord]
      refine h.keep (fun hq => ?_) (List.append_nil _).symm fun p hp => ?_
      · rwa [← htopics]
      · exact hp.grow (List.append_nil _).symm rfl (fun _ _ => rfl)
          fun _ _ hmem => ⟨(hqueues topic).subset hmem, rfl⟩
  | frame k raw =>
    obtain ⟨hcalls, hqueues, ⟨hnone, -⟩ | ⟨topic', msg, hsome, -⟩⟩ := step_frame hhub
    · simp only [History.record, hnone]
      refine h.keep (fun hq => ?_) (List.append_nil _).symm fun p hp => ?_
      · rwa [← hcalls]
      · refine hp.grow (List.append_nil _).symm rfl (fun _ _ => rfl) fun _ _ hmem => ⟨?_, rfl⟩
        rwa [StreamHub.State.queuesOf, hqueues] at hmem
    · have hoffered := @offered_append s (s.record route hub (.frame k raw)) topic' msg q
        (by simp only [History.record, hsome]) (by simp only [History.record, hsome]) (hordered.since_le q) topic
      have hitems : (s.record route hub (.frame k raw)).items q =
          if q ∈ s.hub.base.queuesOf topic' then
            put queueSize (s.items q) (msg, s.log.length) else s.items q := by
        simp only [History.record, hsome]
        exact hordered.items_routed topic' (msg, s.log.length) q
      have hdelivered : (s.record route hub (.frame k raw)).delivered q = s.delivered q := by
        simp only [History.record, hsome]
      have hq' : ((s.record route hub (.frame k raw)).hub.base.calls.map
          StreamHub.Call.topic)[q]? = some topic →
          (s.hub.base.calls.map StreamHub.Call.topic)[q]? = some topic := by
        simp only [History.record, hsome, hcalls]
        exact id
      have hof : q ∈ (s.record route hub (.frame k raw)).hub.base.queuesOf topic →
          q ∈ s.hub.base.queuesOf topic := by
        simp only [History.record, hsome, StreamHub.State.queuesOf, hqueues]
        exact id
      by_cases hmem : q ∈ s.hub.base.queuesOf topic'
      · rw [if_pos hmem] at hitems
        by_cases ht : topic' = topic
        · subst ht
          rw [if_pos rfl] at hoffered
          exact h.deliver hspares hsome hmem hq' hoffered hdelivered hitems
        · -- the queue is of another topic
          intro hq
          have hmade := hordered.registered.made topic' q hmem
          rw [hq' hq] at hmade
          exact absurd (Option.some.inj hmade).symm ht
      · rw [if_neg hmem] at hitems
        refine h.keep hq' hoffered fun p hp => ?_
        refine hp.grow hoffered hdelivered (fun _ _ => hitems) fun _ _ hin => ⟨hof hin, ?_⟩
        rw [if_neg]
        rintro rfl
        exact hmem (hof hin)
  | get r =>
    simp only [HubRoutes.step] at hhub
    cases hcons : s.items r with
    | nil =>
      rw [← hordered.items_eq r, hcons] at hhub
      cases hhub
    | cons x rest =>
      have hqueued : s.hub.queued r = x.1 :: rest.map Prod.fst := by
        rw [← hordered.items_eq r, hcons, List.map_cons]
      simp only [hqueued, Option.some.injEq] at hhub
      simp only [History.record, hcons]
      subst hhub
      by_cases hr : r = q
      · subst hr
        refine h.take hcons rfl rfl ?_ ?_
        · exact Function.update_self ..
        · exact Function.update_self ..
      · have hne : q ≠ r := fun heq => hr heq.symm
        refine h.keep id (List.append_nil _).symm fun p hp => ?_
        refine hp.grow (List.append_nil _).symm ?_ (fun _ _ => ?_) fun _ _ hmem => ⟨hmem, rfl⟩
        · exact Function.update_of_ne hne ..
        · exact Function.update_of_ne hne ..

/-- The run lemma, over the runs that spare a queue. -/
theorem simulated_of_meets {es : List Event}
    (hmeets : Meets (HubQueues.step P route) (Spares read body c route resync topic q) {} es)
    (hrun : run (HubQueues.step P route) {} es = some s) :
    Simulated read body c resync topic q s := by
  have hkeeps : ∀ t e t', Ordered t ∧ Simulated read body c resync topic q t →
      Spares read body c route resync topic q t e → HubQueues.step P route t e = some t' →
      Ordered t' ∧ Simulated read body c resync topic q t' :=
    fun t e t' ht hok hstep => ⟨ht.1.step hstep, Simulated.step ht.1 ht.2 hok hstep⟩
  exact (invariant_of_meets hkeeps ⟨ordered_init, simulated_init⟩ hmeets hrun).2

/-- Every queue of a hub, in every run: some run of the pipe over the messages that the queue was
offered leads to what its consumer has yielded and to what it holds. -/
theorem queue_refines_pipe (P : StreamHub.Payloads String)
    (route : Json → Except RouteError (Option Json)) {es : List Event} {s : History}
    (hrun : run (HubQueues.step P route) {} es = some s) {q : ℕ} {topic : String}
    (hq : (s.hub.base.calls.map StreamHub.Call.topic)[q]? = some topic)
    {σ μ β : Type*} (read : Json → μ) (body : σ → μ → List β × Option σ) (c : σ) :
    ∃ events p, run (DropQueue.step 1024 body (s.feed read topic q)) { consumer := some c }
        events = some p ∧ Mirrors read body c s topic q p := by
  -- a consumer that copes with every message is spared in every run
  have hmeets : Meets (HubQueues.step P route)
      (Spares read body c route (fun _ _ => True) topic q) {} es := by
    have hall : Meets (HubQueues.step P route) (fun _ _ => True) {} es := meets_true _ es
    refine hall.imp fun t e _ => ?_
    cases e with
    | frame k raw => exact fun _ _ _ => .inr fun _ _ _ _ => trivial
    | _ => trivial
  obtain ⟨events, p, hp, -, hmirrors⟩ :=
    simulated_of_meets hmeets hrun hq (s.feed read topic q) (List.prefix_refl _)
  exact ⟨events, p, hp, hmirrors⟩

/-- Two consumers of one topic, of which the second comes after the first message. -/
def lateConsumer : List Event :=
  [.base (.subscribe "trade"), .base (.connect 0), .base (.resubscribed 0),
    .frame 0 (some (.obj [("stream", .str "trade"), ("data", .num 1)])),
    .base (.subscribe "trade"),
    .frame 0 (some (.obj [("stream", .str "trade"), ("data", .num 2)])), .get 1]

/-- The late one has yielded the second message, which is the first of its feed. -/
theorem queue_refines_pipe_late : ∃ s,
    run (HubQueues.step (.batched String) HubRoutes.Binance.route) {} lateConsumer = some s ∧
    (s.offered "trade" 1).length = 1 ∧ ∃ events p,
      run (DropQueue.step 1024 (fun (n : ℕ) (_ : Json) => ([n], some (n + 1)))
        (s.feed id "trade" 1)) { consumer := some 7 } events = some p ∧
      Mirrors id (fun (n : ℕ) (_ : Json) => ([n], some (n + 1))) 7 s "trade" 1 p := by
  have hrun : ∃ s, run (HubQueues.step (.batched String) HubRoutes.Binance.route) {}
      lateConsumer = some s ∧ (s.offered "trade" 1).length = 1 ∧
      (s.hub.base.calls.map StreamHub.Call.topic)[1]? = some "trade" := ⟨_, rfl, rfl, rfl⟩
  obtain ⟨s, hrun, hlength, hq⟩ := hrun
  exact ⟨s, hrun, hlength, queue_refines_pipe _ _ hrun hq id _ 7⟩

/-- What is taken from a queue is, by its places in the queue's feed, a subsequence of it, and
the outputs on either are the same. -/
lemma yielded_placed {read : Json → μ} (hordered : Ordered s)
    (hq : (s.hub.base.calls.map StreamHub.Call.topic)[q]? = some topic) :
    ∃ delivered : List (μ × ℕ), delivered.Sublist (s.feed read topic q).zipIdx ∧
      List.Forall₂ (Placed (s.offered topic q)) (Generator.yields body c delivered)
        (s.yielded read body c q) := by
  have hsub : (s.delivered q).Sublist ((s.offered topic q).zipIdx.map Prod.fst) := by
    rw [List.zipIdx_map_fst]
    exact (List.sublist_append_left _ _).trans (hordered.sublist q topic hq)
  obtain ⟨zs, hzs, htaken⟩ := List.sublist_map_iff.mp hsub
  refine ⟨zs.map fun z => (read z.1.1, z.2), ?_, ?_⟩
  · have hfeed : (s.feed read topic q).zipIdx =
        (s.offered topic q).zipIdx.map fun z => (read z.1.1, z.2) := by
      rw [History.feed, List.zipIdx_map]
      rfl
    rw [hfeed]
    exact hzs.map _
  · have hplaced : List.Forall₂ (fun x y => x.1 = y.1 ∧
        ((s.offered topic q)[x.2]?).map Prod.snd = some y.2)
        (zs.map fun z => (read z.1.1, z.2)) (s.taken read q) := by
      rw [History.taken, htaken, List.map_map, List.forall₂_map_left_iff,
        List.forall₂_map_right_iff, List.forall₂_same]
      intro z hz
      refine ⟨rfl, ?_⟩
      have hget : (s.offered topic q)[z.2]? = some z.1 :=
        List.mem_zipIdx_iff_getElem?.mp (hzs.subset hz)
      show ((s.offered topic q)[z.2]?).map Prod.snd = some z.1.2
      rw [hget]
      rfl
    have houts := @Generator.yields_forall₂ _ _ _ _ body _
      (fun i l => ((s.offered topic q)[i]?).map Prod.snd = some l) _ _ hplaced c
    exact houts.imp fun _ _ h => ⟨h.1, h.2⟩

end

end HubQueues
end ExchangeRouter
