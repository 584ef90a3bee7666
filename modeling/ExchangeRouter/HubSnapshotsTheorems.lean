import ExchangeRouter.HubQueuesTheorems
import ExchangeRouter.StreamHubJoiners

/-!
# The snapshot before the deltas

A venue answers a SUBSCRIBE with a snapshot and sends deltas after it. `origin` says of each message
that was routed which SUBSCRIBE it answers, by the place of that frame in the log of those sent, and
`Answers` what the venue promises. A consumer that a SUBSCRIBE goes out for after it registered then
finds the snapshot of it before its deltas, unless its queue gave the snapshot up. The steps that
take either from a consumer are those of `starves`.
-/

namespace ExchangeRouter
namespace HubQueues

open HubRoutes (Hub RouteError Event queueSize)
open MakeRequest (Json)
open StreamHub (SubscribedSince Answered Wired Held Registered)
open scoped List
open Transition

/-- The newest SUBSCRIBE of the topic on the socket is the frame at place `n` of the log. -/
def Newest (wire : List (ℕ × StreamHub.Frame String)) (ws : ℕ) (topic : String) (n : ℕ) : Prop :=
  (∃ ts, wire[n]? = some (ws, .subscribe ts) ∧ topic ∈ ts) ∧
    ∀ m ts, n < m → wire[m]? = some (ws, .subscribe ts) → topic ∉ ts

section

variable (route : Json → Except RouteError (Option Json)) (isSnapshot : Json → Bool)
  (origin : ℕ → ℕ)

/-- A message for a topic answers a SUBSCRIBE of it on the socket that it comes in on, and one that
is no snapshot comes after the snapshot of that SUBSCRIBE. -/
def Answers (s : History) : Event → Prop
  | .frame k raw => ∀ topic msg, routed route raw = some (topic, msg) →
      (∃ ws ts, s.hub.base.runs[k]? = some (.receiving ws) ∧
        s.hub.base.wire[origin s.log.length]? = some (ws, .subscribe ts) ∧ topic ∈ ts) ∧
      (isSnapshot msg = false → ∃ n msg', s.log[n]? = some (topic, msg') ∧
        isSnapshot msg' = true ∧ origin n = origin s.log.length)
  | _ => True

/-- The steps that leave a consumer without a snapshot: the hub `overlooks` it, or a full queue of
the topic gives up a snapshot. -/
def starves (s : History) : Event → Bool
  | .base e => s.hub.base.overlooks e
  | .frame _ raw =>
    match routed route raw with
    | none => false
    | some (topic, _) => (s.hub.base.queuesOf topic).any fun q =>
        decide ((s.items q).length = queueSize) && (s.items q).head?.any fun x => isSnapshot x.1
  | .get _ => false

/-- Each message that is no snapshot and answers a SUBSCRIBE from place `mark` on comes after the
snapshot of that SUBSCRIBE. -/
def Led (mark : ℕ) (xs : List (Json × ℕ)) : Prop :=
  ∀ x ∈ xs, isSnapshot x.1 = false → mark ≤ origin x.2 →
    ∃ y, isSnapshot y.1 = true ∧ origin y.2 = origin x.2 ∧ [y, x] <+ xs

variable {isSnapshot origin}

/-! ## Messages in their order -/

/-- One message more, whose snapshot is there. -/
lemma Led.concat {mark : ℕ} {xs : List (Json × ℕ)} {x : Json × ℕ}
    (h : Led isSnapshot origin mark xs)
    (hx : isSnapshot x.1 = false → mark ≤ origin x.2 →
      ∃ y ∈ xs, isSnapshot y.1 = true ∧ origin y.2 = origin x.2) :
    Led isSnapshot origin mark (xs ++ [x]) := by
  intro z hz hdelta hmark
  rcases List.mem_append.mp hz with hold | hnew
  · obtain ⟨y, hy, heq, hsub⟩ := h z hold hdelta hmark
    exact ⟨y, hy, heq, hsub.trans (List.sublist_append_left _ _)⟩
  · obtain rfl := List.mem_singleton.mp hnew
    obtain ⟨y, hmem, hy, heq⟩ := hx hdelta hmark
    exact ⟨y, hy, heq, (List.singleton_sublist.mpr hmem).append (List.Sublist.refl [z])⟩

/-- One that is no snapshot may be left out. -/
lemma Led.erase {mark : ℕ} {xs ys : List (Json × ℕ)} {d : Json × ℕ}
    (h : Led isSnapshot origin mark (xs ++ d :: ys)) (hd : isSnapshot d.1 = false)
    (hnodup : ((xs ++ d :: ys).map Prod.snd).Nodup) : Led isSnapshot origin mark (xs ++ ys) := by
  have hplace : ∀ z ∈ xs ++ ys, z.2 ≠ d.2 := by
    intro z hz heq
    rw [List.map_append, List.map_cons] at hnodup
    refine (List.nodup_middle.mp hnodup).notMem ?_
    rw [← List.map_append, ← heq]
    exact List.mem_map_of_mem hz
  have hmiddle : ∀ z, z ∈ xs ++ d :: ys ↔ z = d ∨ z ∈ xs ++ ys := by
    intro z
    simp only [List.mem_append, List.mem_cons]
    tauto
  intro x hx hdelta hmark
  obtain ⟨y, hy, heq, hsub⟩ := h x ((hmiddle x).mpr (Or.inr hx)) hdelta hmark
  refine ⟨y, hy, heq, ?_⟩
  have hyrest : y ∈ xs ++ ys := by
    refine ((hmiddle y).mp (hsub.subset List.mem_cons_self)).resolve_left ?_
    rintro rfl
    rw [hd] at hy
    exact Bool.noConfusion hy
  -- the two stay in the list without the one that is left out
  have hfilter := hsub.filter fun z => decide (z.2 ≠ d.2)
  have hpair : [y, x].filter (fun z => decide (z.2 ≠ d.2)) = [y, x] := by
    simp [hplace x hx, hplace y hyrest]
  have hlist : (xs ++ d :: ys).filter (fun z => decide (z.2 ≠ d.2)) =
      (xs ++ ys).filter fun z => decide (z.2 ≠ d.2) := by
    simp
  rw [hpair, hlist] at hfilter
  exact hfilter.trans List.filter_sublist

/-- A message is put into a queue that gives up no snapshot for it. -/
lemma Led.put {mark cap : ℕ} {taken items : List (Json × ℕ)} {x : Json × ℕ}
    (h : Led isSnapshot origin mark (taken ++ items))
    (hnodup : ((taken ++ items).map Prod.snd).Nodup)
    (hkept : cap ≤ items.length → ∀ d, items.head? = some d → isSnapshot d.1 = false)
    (hx : isSnapshot x.1 = false → mark ≤ origin x.2 →
      ∃ y ∈ taken ++ items, isSnapshot y.1 = true ∧ origin y.2 = origin x.2) :
    Led isSnapshot origin mark (taken ++ DropQueue.put cap items x) := by
  unfold DropQueue.put
  by_cases hroom : items.length < cap
  · rw [if_pos hroom, ← List.append_assoc]
    exact h.concat hx
  · rw [if_neg hroom, ← List.append_assoc]
    cases items with
    | nil => exact h.concat hx
    | cons d rest =>
      have hd := hkept (Nat.le_of_not_lt hroom) d rfl
      refine (h.erase hd hnodup).concat fun hdelta hmark => ?_
      obtain ⟨y, hmem, hy, heq⟩ := hx hdelta hmark
      refine ⟨y, ?_, hy, heq⟩
      rcases List.mem_append.mp hmem with htaken | hitems
      · exact List.mem_append_left _ htaken
      · rcases List.mem_cons.mp hitems with rfl | hrest
        · rw [hd] at hy
          exact Bool.noConfusion hy
        · exact List.mem_append_right _ hrest

/-- Nor is a snapshot lost then. -/
lemma mem_put_of_snapshot {cap : ℕ} {taken items : List (Json × ℕ)} {x y : Json × ℕ}
    (hkept : cap ≤ items.length → ∀ d, items.head? = some d → isSnapshot d.1 = false)
    (hy : isSnapshot y.1 = true) (hmem : y ∈ taken ++ items) :
    y ∈ taken ++ DropQueue.put cap items x := by
  rcases List.mem_append.mp hmem with htaken | hitems
  · exact List.mem_append_left _ htaken
  · refine List.mem_append_right _ ?_
    by_contra hnot
    obtain ⟨hfull, hhead⟩ := DropQueue.eq_head_of_not_mem_put hitems hnot
    rw [hkept hfull y hhead] at hy
    exact Bool.noConfusion hy

/-! ## What every step keeps -/

variable {P : StreamHub.Payloads String} {route : Json → Except RouteError (Option Json)}

/-- The messages so far answer frames that went out, and those before a queue was registered frames
that went out before. No queue of the table has lost a snapshot, and its messages come after the
snapshots they need. -/
structure Snapshotted (isSnapshot : Json → Bool) (origin : ℕ → ℕ) (s : History) : Prop where
  answers : ∀ n < s.log.length, origin n < s.hub.base.wire.length
  dated : ∀ q mark, (s.hub.base.calls.map StreamHub.Call.registeredAt)[q]? = some mark →
    ∀ n < s.since q, origin n < mark
  kept : ∀ topic, ∀ q ∈ s.hub.base.queuesOf topic, ∀ x ∈ s.offered topic q,
    isSnapshot x.1 = true → x ∈ s.delivered q ++ s.items q
  led : ∀ q mark, (s.hub.base.calls.map StreamHub.Call.registeredAt)[q]? = some mark →
    Led isSnapshot origin mark (s.delivered q ++ s.items q)

lemma snapshotted_init : Snapshotted isSnapshot origin {} := by
  refine ⟨fun n hn => absurd hn (Nat.not_lt_zero n), fun q mark hq => ?_, fun topic q hq => ?_,
    fun q mark hq => ?_⟩
  · exact absurd hq (by simp)
  · exact absurd (show q ∈ ([] : List ℕ) from hq) List.not_mem_nil
  · exact absurd hq (by simp)

/-- A step of the hub's own that makes no queue. -/
lemma Snapshotted.of_table {s : History} (h : Snapshotted isSnapshot origin s) {hub : Hub}
    (hwire : s.hub.base.wire.length ≤ hub.base.wire.length)
    (hmarks : hub.base.calls.map StreamHub.Call.registeredAt =
      s.hub.base.calls.map StreamHub.Call.registeredAt)
    (hqueues : ∀ t, hub.base.queuesOf t <+ s.hub.base.queuesOf t) :
    Snapshotted isSnapshot origin { s with hub := hub } := by
  refine ⟨fun n hn => (h.answers n hn).trans_le hwire, fun q mark hq => ?_, fun t q hq => ?_,
    fun q mark hq => ?_⟩
  · rw [hmarks] at hq
    exact h.dated q mark hq
  · exact h.kept t q ((hqueues t).subset hq)
  · rw [hmarks] at hq
    exact h.led q mark hq

/-- A new queue is marked after all that has been answered so far. -/
lemma Snapshotted.subscribe {s : History} (h : Snapshotted isSnapshot origin s)
    (hordered : Ordered s) {hub : Hub} {topic : String}
    (hbase : hub.base = s.hub.base.subscribe topic) :
    Snapshotted isSnapshot origin { s with
      hub := hub
      since := Function.update s.since s.hub.base.calls.length s.log.length } := by
  have hmarks : hub.base.calls.map StreamHub.Call.registeredAt =
      s.hub.base.calls.map StreamHub.Call.registeredAt ++ [s.hub.base.wire.length] := by
    rw [hbase]
    simp [StreamHub.State.subscribe]
  have hmark : ∀ q mark, (hub.base.calls.map StreamHub.Call.registeredAt)[q]? = some mark →
      (s.hub.base.calls.map StreamHub.Call.registeredAt)[q]? = some mark ∧
          q ≠ s.hub.base.calls.length ∨
        q = s.hub.base.calls.length ∧ mark = s.hub.base.wire.length := by
    intro q mark hq
    rw [hmarks] at hq
    by_cases hlt : q < s.hub.base.calls.length
    · rw [List.getElem?_append_left (by rwa [List.length_map])] at hq
      exact Or.inl ⟨hq, hlt.ne⟩
    · have hlen := (List.getElem?_eq_some_iff.mp hq).1
      rw [List.length_append, List.length_map, List.length_singleton] at hlen
      have hlast : q = s.hub.base.calls.length := by omega
      rw [hlast, ← List.length_map StreamHub.Call.registeredAt, List.getElem?_concat_length,
        Option.some.injEq] at hq
      exact Or.inr ⟨hlast, hq.symm⟩
  obtain ⟨hnoItems, hnoneTaken⟩ := hordered.fresh s.hub.base.calls.length le_rfl
  have hoffered : ∀ t q, ({ s with
      hub := hub
      since := Function.update s.since s.hub.base.calls.length s.log.length } :
        History).offered t q = if q = s.hub.base.calls.length then [] else s.offered t q := by
    intro t q
    refine offered_made ?_ ?_ t q
    · rfl
    · rfl
  refine ⟨fun n hn => ?_, fun q mark hq n hn => ?_, fun t q hq x hx hsnapshot => ?_,
    fun q mark hq => ?_⟩
  · dsimp only
    rw [hbase]
    exact h.answers n hn
  · dsimp only at hn
    rcases hmark q mark hq with ⟨hold, hne⟩ | ⟨rfl, rfl⟩
    · rw [Function.update_of_ne hne] at hn
      exact h.dated q mark hold n hn
    · rw [Function.update_self] at hn
      exact h.answers n hn
  · by_cases hlast : q = s.hub.base.calls.length
    · rw [hoffered, if_pos hlast] at hx
      exact absurd hx List.not_mem_nil
    · rw [hoffered, if_neg hlast] at hx
      dsimp only at hq
      rw [hbase, StreamHub.queuesOf_subscribe] at hq
      split at hq
      · next ht =>
        rw [ht] at hx
        refine h.kept topic q ((List.mem_append.mp hq).resolve_right fun hnew => ?_) x hx hsnapshot
        exact hlast (List.mem_singleton.mp hnew)
      · exact h.kept t q hq x hx hsnapshot
  · rcases hmark q mark hq with ⟨hold, -⟩ | ⟨rfl, rfl⟩
    · exact h.led q mark hold
    · dsimp only
      rw [hnoItems, hnoneTaken]
      exact fun x hx => absurd hx List.not_mem_nil

/-- The messages routed for a topic since a queue was registered were offered to it. -/
lemma mem_offered {s : History} {topic : String} {msg : Json} {q n : ℕ}
    (hlog : s.log[n]? = some (topic, msg)) (hsince : s.since q ≤ n) :
    (msg, n) ∈ s.offered topic q := by
  unfold History.offered
  refine List.mem_map.mpr ⟨((topic, msg), n), List.mem_filter.mpr ⟨?_, by simp⟩, rfl⟩
  refine List.mem_of_getElem? (i := n - s.since q) ?_
  rw [List.getElem?_drop, List.getElem?_zipIdx, Nat.add_sub_cancel' hsince, hlog]
  simp

/-- A routed message comes after the snapshot that it needs, and no queue gives one up for it. -/
lemma Snapshotted.frame {s : History} (h : Snapshotted isSnapshot origin s) (hordered : Ordered s)
    {hub : Hub} {topic : String} {msg : Json}
    (hwire : s.hub.base.wire.length ≤ hub.base.wire.length)
    (hcalls : hub.base.calls = s.hub.base.calls) (hqueues : hub.base.queues = s.hub.base.queues)
    (hanswer : origin s.log.length < s.hub.base.wire.length)
    (hlead : isSnapshot msg = false → ∃ n msg', s.log[n]? = some (topic, msg') ∧
      isSnapshot msg' = true ∧ origin n = origin s.log.length)
    (hroom : ∀ q ∈ s.hub.base.queuesOf topic, queueSize ≤ (s.items q).length →
      ∀ d, (s.items q).head? = some d → isSnapshot d.1 = false) :
    Snapshotted isSnapshot origin { s with
      hub := hub
      log := s.log ++ [(topic, msg)]
      items := offerAll queueSize (s.hub.base.queuesOf topic) s.items (msg, s.log.length) } := by
  have hof : ∀ t, hub.base.queuesOf t = s.hub.base.queuesOf t := by
    intro t
    rw [StreamHub.State.queuesOf, hqueues]
    rfl
  have hoffered : ∀ t q, ({ s with
      hub := hub
      log := s.log ++ [(topic, msg)]
      items := offerAll queueSize (s.hub.base.queuesOf topic) s.items (msg, s.log.length) } :
        History).offered t q =
      s.offered t q ++ if topic = t then [(msg, s.log.length)] else [] := by
    intro t q
    refine offered_append ?_ ?_ (hordered.since_le q) t
    · rfl
    · rfl
  refine ⟨fun n hn => ?_, fun q mark hq n hn => ?_, fun t q hq x hx hsnapshot => ?_,
    fun q mark hq => ?_⟩
  · dsimp only at hn ⊢
    rw [List.length_append, List.length_singleton] at hn
    rcases Nat.lt_succ_iff_lt_or_eq.mp hn with hold | rfl
    · exact (h.answers n hold).trans_le hwire
    · exact hanswer.trans_le hwire
  · dsimp only at hq hn
    rw [hcalls] at hq
    exact h.dated q mark hq n hn
  · dsimp only at hq ⊢
    rw [hof] at hq
    rw [hordered.items_routed]
    rw [hoffered] at hx
    rcases List.mem_append.mp hx with hold | hnew
    · have hmem := h.kept t q hq x hold hsnapshot
      split
      · next hq' => exact mem_put_of_snapshot (hroom q hq') hsnapshot hmem
      · exact hmem
    · split at hnew
      · next ht =>
        obtain rfl := List.mem_singleton.mp hnew
        rw [← ht] at hq
        rw [if_pos hq]
        refine List.mem_append_right _ (List.mem_of_getLast? DropQueue.getLast?_put)
      · exact absurd hnew List.not_mem_nil
  · dsimp only at hq ⊢
    rw [hcalls] at hq
    rw [hordered.items_routed]
    split
    · next hmem =>
      have htopic : (s.hub.base.calls.map StreamHub.Call.topic)[q]? = some topic :=
        hordered.registered.made topic q hmem
      have hnodup : ((s.delivered q ++ s.items q).map Prod.snd).Nodup :=
        ((hordered.sublist q topic htopic).map Prod.snd).nodup (offered_nodup s topic q)
      refine (h.led q mark hq).put hnodup (hroom q hmem) fun hdelta hmark => ?_
      obtain ⟨n, msg', hlog, hsnapshot, horigin⟩ := hlead hdelta
      -- a snapshot from before the queue answers a SUBSCRIBE from before it
      have hsince : s.since q ≤ n := by
        by_contra hlt
        have hbefore := h.dated q mark hq n (Nat.lt_of_not_le hlt)
        dsimp only at hmark
        omega
      have hthere := h.kept topic q hmem _ (mem_offered hlog hsince) hsnapshot
      exact ⟨(msg', n), hthere, hsnapshot, horigin⟩
    · exact h.led q mark hq

/-- A message that is taken is still one of those that came. -/
lemma Snapshotted.get {s : History} (h : Snapshotted isSnapshot origin s) {hub : Hub} {q : ℕ}
    {x : Json × ℕ} {rest : List (Json × ℕ)} (hitems : s.items q = x :: rest)
    (hbase : hub.base = s.hub.base) :
    Snapshotted isSnapshot origin { s with
      hub := hub
      items := Function.update s.items q rest
      delivered := Function.update s.delivered q (s.delivered q ++ [x]) } := by
  refine ⟨fun n hn => ?_, fun r mark hr => ?_, fun t r hr y hy => ?_, fun r mark hr => ?_⟩
  · dsimp only
    rw [hbase]
    exact h.answers n hn
  · dsimp only at hr
    rw [hbase] at hr
    exact h.dated r mark hr
  · dsimp only at hr ⊢
    rw [hbase] at hr
    rw [append_get hitems]
    exact h.kept t r hr y hy
  · dsimp only at hr ⊢
    rw [hbase] at hr
    rw [append_get hitems]
    exact h.led r mark hr

/-- What a frame does to the hub's own fields leaves its log at least as long. -/
lemma length_wire_le_of_frame {s s' : Hub} {k : ℕ} {raw : Option Json}
    (hstep : HubRoutes.step P route s (.frame k raw) = some s') :
    s.base.wire.length ≤ s'.base.wire.length := by
  rcases base_of_frame hstep with hbase | hbase
  · rw [hbase]
  · exact StreamHub.length_wire_le_of_step hbase

/-- A step under the venue's promise that `starves` does not name. -/
lemma Snapshotted.step {s s' : History} {e : Event} (h : Snapshotted isSnapshot origin s)
    (hordered : Ordered s) (hanswers : Answers route isSnapshot origin s e)
    (hnot : starves route isSnapshot s e = false) (hstep : HubQueues.step P route s e = some s') :
    Snapshotted isSnapshot origin s' := by
  obtain ⟨hub, hhub, rfl⟩ := step_eq hstep
  cases e with
  | base e =>
    obtain ⟨base, hbase, rfl⟩ := Option.map_eq_some_iff.mp hhub
    rcases StreamHub.step_queues hbase with ⟨topic, rfl, rfl⟩ | ⟨hne, -, hqueues⟩
    · exact h.subscribe hordered rfl
    · have hrecord : s.record route { s.hub with base := base } (.base e) =
          { s with hub := { s.hub with base := base } } := by
        cases e with
        | subscribe topic => exact absurd rfl (hne topic)
        | _ => rfl
      rw [hrecord]
      exact h.of_table (StreamHub.length_wire_le_of_step hbase) (StreamHub.marks_of_step hne hbase)
        hqueues
  | frame k raw =>
    have hwire := length_wire_le_of_frame hhub
    obtain ⟨hcalls, hqueues, -⟩ := step_frame hhub
    cases hrouted : routed route raw with
    | none =>
      simp only [History.record, hrouted]
      refine h.of_table hwire (by rw [hcalls]) fun t => ?_
      rw [StreamHub.State.queuesOf, hqueues]
      exact List.Sublist.refl _
    | some entry =>
      obtain ⟨topic, msg⟩ := entry
      obtain ⟨⟨ws, ts, -, hanswer, -⟩, hlead⟩ := hanswers topic msg hrouted
      simp only [History.record, hrouted]
      refine h.frame hordered hwire hcalls hqueues ?_ hlead fun q hq hfull d hd => ?_
      · exact (List.getElem?_eq_some_iff.mp hanswer).1
      · simp only [starves, hrouted, List.any_eq_false] at hnot
        have hsize := le_antisymm (hordered.length_le q) hfull
        simpa [hsize, hd] using hnot q hq
  | get q =>
    simp only [HubRoutes.step] at hhub
    cases hitems : s.items q with
    | nil =>
      rw [← hordered.items_eq q, hitems] at hhub
      cases hhub
    | cons x rest =>
      have hqueued : s.hub.queued q = x.1 :: rest.map Prod.fst := by
        rw [← hordered.items_eq q, hitems, List.map_cons]
      simp only [hqueued, Option.some.injEq] at hhub
      simp only [History.record, hitems]
      subst hhub
      exact h.get hitems rfl

/-! ## Runs -/

/-- What a run keeps under the venue's promise whose steps starve no consumer. -/
structure Supplied (isSnapshot : Json → Bool) (origin : ℕ → ℕ) (s : History) : Prop where
  ordered : Ordered s
  wired : Wired s.hub.base
  held : Held s.hub.base
  answered : Answered (fun _ => true) s.hub.base
  snapshotted : Snapshotted isSnapshot origin s

lemma supplied_init : Supplied isSnapshot origin {} :=
  ⟨ordered_init, StreamHub.wired_init, StreamHub.held_init, StreamHub.answered_init _,
    snapshotted_init⟩

/-- A step is none of the hub's own, or one that overlooks nobody. -/
lemma base_of_step {s s' : History} {e : Event} (hnot : starves route isSnapshot s e = false)
    (hstep : step P route s e = some s') :
    s'.hub.base = s.hub.base ∨ ∃ b, StreamHub.step P s.hub.base b = some s'.hub.base ∧
      s.hub.base.overlooks b = false := by
  obtain ⟨hub, hhub, rfl⟩ := step_eq hstep
  rw [hub_record]
  cases e with
  | base e =>
    obtain ⟨base, hbase, rfl⟩ := Option.map_eq_some_iff.mp hhub
    exact Or.inr ⟨e, hbase, hnot⟩
  | frame k raw => exact (base_of_frame hhub).imp_right fun hbase => ⟨_, hbase, rfl⟩
  | get q =>
    left
    simp only [HubRoutes.step] at hhub
    split at hhub
    · cases hhub
    · obtain rfl := Option.some.inj hhub
      rfl

/-- A step that starves no one keeps every queue supplied. -/
lemma Supplied.step {s s' : History} {e : Event} (h : Supplied isSnapshot origin s)
    (hanswers : Answers route isSnapshot origin s e)
    (hnot : starves route isSnapshot s e = false) (hstep : HubQueues.step P route s e = some s') :
    Supplied isSnapshot origin s' := by
  have hsnapshotted := h.snapshotted.step h.ordered hanswers hnot hstep
  rcases base_of_step hnot hstep with hsame | ⟨b, hbase, hoverlooks⟩
  · refine ⟨h.ordered.step hstep, ?_, ?_, ?_, hsnapshotted⟩
    · rw [hsame]
      exact h.wired
    · rw [hsame]
      exact h.held
    · rw [hsame]
      exact h.answered
  · exact ⟨h.ordered.step hstep, h.wired.step hbase, h.held.step hbase,
      h.answered.step (fun _ _ => rfl) h.wired h.held (Or.inr hoverlooks) hbase, hsnapshotted⟩

/-- The run lemma. -/
lemma supplied_of_meets {es : List Event} {s : History} (hrun : run (step P route) {} es = some s)
    (hvenue : Meets (step P route) (Answers route isSnapshot origin) {} es)
    (hmet : Meets (step P route) (fun s e => starves route isSnapshot s e = false) {} es) :
    Supplied isSnapshot origin s :=
  invariant_of_meets (fun _ _ _ h hboth hstep => h.step hboth.1 hboth.2 hstep) supplied_init
    (hvenue.and hmet) hrun

/-- The newest SUBSCRIBE is no older than one since the mark. -/
lemma Newest.le {wire : List (ℕ × StreamHub.Frame String)} {ws mark n : ℕ} {topic : String}
    (h : Newest wire ws topic n) (hsince : SubscribedSince wire ws mark topic) : mark ≤ n := by
  obtain ⟨ts, hmem, ht⟩ := hsince
  obtain ⟨m, hm⟩ := List.mem_iff_getElem?.mp hmem
  rw [List.getElem?_drop] at hm
  by_contra hlt
  exact h.2 (mark + m) ts (by omega) hm ht

/-- The call `i` comes to its return, as `call`, between the two states. -/
def Ends (s s' : History) (i : ℕ) (call : StreamHub.Call String) : Prop :=
  s'.hub.base.calls[i]? = some call ∧ call.phase.inFlight = false ∧
    ∀ before, s.hub.base.calls[i]? = some before → before.phase.inFlight = true

/-- A call that comes to its return on a connected hub has had its SUBSCRIBE. -/
lemma Supplied.since_of_ends {s s' : History} {e : Event} (h : Supplied isSnapshot origin s)
    (hnot : starves route isSnapshot s e = false) (hstep : HubQueues.step P route s e = some s')
    {i ws : ℕ} {call : StreamHub.Call String} (hends : Ends s s' i call)
    (hlive : s'.hub.base.Live ws) (hconnected : s'.hub.base.connected = true) :
    SubscribedSince s'.hub.base.wire ws call.registeredAt call.topic := by
  obtain ⟨hcall, hdone, hbefore⟩ := hends
  rcases base_of_step hnot hstep with hsame | ⟨b, hbase, hoverlooks⟩
  · -- no call moves on in such a step
    rw [hsame] at hcall
    rw [hbefore call hcall] at hdone
    exact Bool.noConfusion hdone
  · have hanswered := h.answered.step (fun _ _ => rfl) h.wired h.held (Or.inr hoverlooks) hbase
    have hmem := h.held.mem_of_ends hbase hcall hdone hbefore
    exact hanswered.since_of_done (h.wired.step hbase) hcall hmem rfl hdone hlive hconnected

end

/-- In every run of a hub and its consumers whose steps `starves` does not name, and under a venue
that answers each SUBSCRIBE with a snapshot and then deltas: a consumer whose call has returned
finds each delta that answers a SUBSCRIBE since its registration after the snapshot of that
SUBSCRIBE, and while the hub is connected the newest SUBSCRIBE of its topic is one of those. A call
that comes to its return in the next step has had a SUBSCRIBE since its registration as well. -/
theorem snapshot_before_deltas (P : StreamHub.Payloads String)
    (route : Json → Except RouteError (Option Json)) (isSnapshot : Json → Bool) (origin : ℕ → ℕ)
    {es : List Event} {s : History} (hrun : run (step P route) {} es = some s)
    (hvenue : Meets (step P route) (Answers route isSnapshot origin) {} es)
    (hmet : Meets (step P route) (fun s e => starves route isSnapshot s e = false) {} es) :
    (∀ (q : ℕ) (call : StreamHub.Call String), s.hub.base.calls[q]? = some call →
      call.phase.inFlight = false →
        Led isSnapshot origin call.registeredAt (s.delivered q ++ s.items q) ∧
        ∀ ws, s.hub.base.Live ws → s.hub.base.connected = true →
          q ∈ s.hub.base.queuesOf call.topic →
            SubscribedSince s.hub.base.wire ws call.registeredAt call.topic ∧
            ∀ x ∈ s.delivered q ++ s.items q, isSnapshot x.1 = false →
              Newest s.hub.base.wire ws call.topic (origin x.2) →
                ∃ y, isSnapshot y.1 = true ∧ origin y.2 = origin x.2 ∧
                  [y, x] <+ s.delivered q ++ s.items q) ∧
    ∀ e s', step P route s e = some s' → starves route isSnapshot s e = false →
      ∀ i call, Ends s s' i call → ∀ ws, s'.hub.base.Live ws → s'.hub.base.connected = true →
        SubscribedSince s'.hub.base.wire ws call.registeredAt call.topic := by
  have h : Supplied isSnapshot origin s := supplied_of_meets hrun hvenue hmet
  refine ⟨fun q call hcall hdone => ?_, fun e s' hstep hnot i call hends ws hlive hconnected =>
    h.since_of_ends hnot hstep hends hlive hconnected⟩
  have hmark : (s.hub.base.calls.map StreamHub.Call.registeredAt)[q]? =
      some call.registeredAt := by
    rw [List.getElem?_map, hcall]
    rfl
  have hled := h.snapshotted.led q call.registeredAt hmark
  refine ⟨hled, fun ws hlive hconnected hmem => ?_⟩
  have hsince := h.answered.since_of_done h.wired hcall hmem rfl hdone hlive hconnected
  exact ⟨hsince, fun x hx hdelta hnewest => hled x hx hdelta (hnewest.le hsince)⟩

/-! ## Two consumers of a book -/

/-- A message of a book. -/
def bookFrame (type : String) : Json :=
  .obj [("topic", .str "orderbook.50.BTCUSDT"), ("type", .str type)]

/-- Bybit tells a snapshot by its type. -/
def isBookSnapshot : Json → Bool
  | .obj msg => (HubRoutes.get msg "type").isStr "snapshot"
  | _ => false

/-- A consumer of the book, with the snapshot on its connection. -/
def bookOpened : List Event :=
  [.base (.subscribe "orderbook.50.BTCUSDT"), .base (.connect 0), .base (.resubscribed 0),
    .base (.proceed 0), .frame 0 (some (bookFrame "snapshot"))]

/-- A second one comes while the connection is lost. -/
def bookShared : List Event :=
  bookOpened ++ [.base (.drop 0), .base (.disconnected 0),
    .base (.subscribe "orderbook.50.BTCUSDT"), .base (.retry 0), .base (.connect 0),
    .base (.resubscribed 0), .frame 0 (some (bookFrame "snapshot")), .frame 0 (some (bookFrame "delta"))]

/-- A second one comes on the connection. -/
def bookJoined : List Event :=
  bookOpened ++ [.base (.subscribe "orderbook.50.BTCUSDT"), .frame 0 (some (bookFrame "delta"))]

/-- The second consumer has had a SUBSCRIBE of the new connection. -/
theorem snapshot_before_deltas_shared : ∃ s,
    run (step (.batched String) HubRoutes.Bybit.route) {} bookShared = some s ∧
      (s.items 1).map Prod.snd = [1, 2] ∧
      SubscribedSince s.hub.base.wire 1 1 "orderbook.50.BTCUSDT" := by
  have hrun : ∃ s, run (step (.batched String) HubRoutes.Bybit.route) {} bookShared = some s ∧
      s.hub.base.calls[1]? = some ⟨"orderbook.50.BTCUSDT", false, 1, .returned⟩ ∧
      s.hub.base.Live 1 ∧ s.hub.base.connected = true ∧
      1 ∈ s.hub.base.queuesOf "orderbook.50.BTCUSDT" ∧ (s.items 1).map Prod.snd = [1, 2] :=
    ⟨_, rfl, rfl, ⟨rfl, rfl⟩, rfl, by decide, rfl⟩
  obtain ⟨s, hrun, hcall, hlive, hconnected, hmem, hitems⟩ := hrun
  refine ⟨s, hrun, hitems, ?_⟩
  refine ((snapshot_before_deltas (.batched String) HubRoutes.Bybit.route isBookSnapshot
    (fun n => if n = 0 then 0 else 1) hrun ?_ ?_).1 1 _ hcall rfl).2 1 hlive hconnected hmem |>.1
  · refine ⟨trivial, trivial, trivial, trivial, ?_, trivial, trivial, trivial, trivial, trivial,
      trivial, ?_, ?_, trivial⟩
    · intro topic msg hrouted
      cases hrouted
      exact ⟨⟨0, _, rfl, rfl, List.mem_singleton_self _⟩, fun hdelta => absurd hdelta (by decide)⟩
    · intro topic msg hrouted
      cases hrouted
      exact ⟨⟨1, _, rfl, rfl, List.mem_singleton_self _⟩, fun hdelta => absurd hdelta (by decide)⟩
    · intro topic msg hrouted
      cases hrouted
      exact ⟨⟨1, _, rfl, rfl, List.mem_singleton_self _⟩, fun _ => ⟨1, _, rfl, rfl, rfl⟩⟩
  · decide

/-- A consumer that joins the connection returns with no SUBSCRIBE since, and all it gets is a delta
of the SUBSCRIBE before it. -/
theorem joiner_without_snapshot : ∃ s,
    run (step (.batched String) HubRoutes.Bybit.route) {} bookJoined = some s ∧
      Meets (step (.batched String) HubRoutes.Bybit.route)
        (Answers HubRoutes.Bybit.route isBookSnapshot fun _ => 0) {} bookJoined ∧
      s.hub.base.Live 0 ∧ s.hub.base.connected = true ∧
      (∃ call, s.hub.base.calls[1]? = some call ∧ call.phase = .returned ∧
        ¬ SubscribedSince s.hub.base.wire 0 call.registeredAt call.topic) ∧
      s.delivered 1 ++ s.items 1 = [(bookFrame "delta", 1)] ∧
      isBookSnapshot (bookFrame "delta") = false ∧
      Newest s.hub.base.wire 0 "orderbook.50.BTCUSDT" 0 := by
  refine ⟨_, rfl, ?_, ⟨rfl, rfl⟩, rfl,
    ⟨_, rfl, rfl, StreamHub.not_subscribedSince_length _ _ _⟩, rfl, by decide, ?_⟩
  · refine ⟨trivial, trivial, trivial, trivial, ?_, trivial, ?_, trivial⟩
    · intro topic msg hrouted
      cases hrouted
      exact ⟨⟨0, _, rfl, rfl, List.mem_singleton_self _⟩, fun hdelta => absurd hdelta (by decide)⟩
    · intro topic msg hrouted
      cases hrouted
      exact ⟨⟨0, _, rfl, rfl, List.mem_singleton_self _⟩, fun _ => ⟨0, _, rfl, rfl, rfl⟩⟩
  · refine ⟨⟨_, rfl, List.mem_singleton_self _⟩, fun m ts hm hframe => ?_⟩
    have hlt := (List.getElem?_eq_some_iff.mp hframe).1
    exact absurd (show m < 1 from hlt) (by omega)

end HubQueues
end ExchangeRouter
