import ExchangeRouter.ConsumersTheorems

/-!
# Hyperliquid's slots

`_acquire_topic` writes five tables of the adapter and `_release_topic` takes back what it wrote,
with an await of the hub in between. `Slotted` is what the tables keep beside the counts: a topic
is in the slot of its hub, no slot is overfull, and whoever refers to a topic was given its hub.
Together with the owners of the queues it gives `slots_consistent`, in every run, whatever was
cancelled on the way.
-/

namespace ExchangeRouter
namespace Consumers
namespace Hyperliquid

open Transition

section

variable {τ α : Type} [DecidableEq τ]

/-! ## `_acquire_topic` in place -/

/-- `_acquire_topic`, statement by statement on the tables: an exception leaves them as they are
at that point. -/
def acquireInPlace (topic : τ) (subArg : α) : ExceptT Fault (StateM (State τ α)) ℕ := do
  let k ← match (← get).topicHub.lookup topic with
    | some k => pure k
    | none => do
      let k ← match (← get).slots.findIdx? fun topics : Finset τ => topics.card < maxSubsPerHub with
        | some k => pure k
        | none => do
          let n := (← get).slots.length
          if maxHubs ≤ n then
            throw (Fault.upstreamUnavailable "Hyperliquid WS subscription capacity reached" none)
          else
            modify fun s : State τ α => { s with slots := s.slots ++ [∅] }
            pure n
      modify fun s : State τ α => { s with slots := s.slots.modify k (insert topic) }
      modify fun s : State τ α => { s with topicHub := s.topicHub.insert topic k }
      pure k
  modify fun s : State τ α => { s with topicArgs := s.topicArgs.insert topic subArg }
  modify fun s : State τ α =>
    { s with topicRefs := s.topicRefs.insert topic ((s.topicRefs.lookup topic).getD 0 + 1) }
  return k

variable {β : Type} (s : State τ α)

omit [DecidableEq τ] in
lemma run_get_bind (f : State τ α → ExceptT Fault (StateM (State τ α)) β) :
    (get >>= f).run.run s = (f s).run.run s := rfl

/-- In place it does what `acquireTopic` says, and where it raises it has written nothing. -/
theorem acquireInPlace_run (topic : τ) (subArg : α) :
    (acquireInPlace topic subArg).run.run s =
      match s.acquireTopic topic subArg with
      | .ok (s', k) => (.ok k, s')
      | .error e => (.error e, s) := by
  unfold acquireInPlace State.acquireTopic State.assign
  rw [run_get_bind]
  cases s.topicHub.lookup topic with
  | some k => rfl
  | none =>
    unfold State.freeSlot
    simp only [run_get_bind]
    cases s.slots.findIdx? fun topics => decide (topics.card < maxSubsPerHub) with
    | some k => rfl
    | none =>
      by_cases hfull : maxHubs ≤ s.slots.length
      · simp only [run_get_bind, if_pos hfull]
        rfl
      · simp only [run_get_bind, if_neg hfull]
        rfl

/-! ## What the slots keep -/

/-- The consumers that acquired the topic and have not finished releasing it. -/
def State.outstanding (s : State τ α) (t : τ) : ℕ := holders s.base.consumers t

/-- A topic that has a hub is in that hub's slot, there is room in the slots, and a generator
that refers to a topic has the hub of the topic. -/
structure Slotted (s : State τ α) : Prop where
  filled : ∀ t k, s.topicHub.lookup t = some k → ∃ topics, s.slots[k]? = some topics ∧ t ∈ topics
  small : ∀ topics ∈ s.slots, topics.card ≤ maxSubsPerHub
  few : s.slots.length ≤ maxHubs
  given : ∀ c ∈ s.base.consumers, c.stage ≠ .ended → s.topicHub.lookup c.topic = some c.hub

lemma slotted_init : Slotted ({} : State τ α) := by
  refine ⟨fun t k hk => ?_, fun topics htopics => ?_, Nat.zero_le _, fun c hc => ?_⟩
  · rw [Dict.lookup_empty] at hk
    exact absurd hk (by simp)
  · exact absurd htopics List.not_mem_nil
  · exact absurd hc List.not_mem_nil

/-- The slot that `_acquire_topic` finds has room, and the slots are no more than there may be. -/
lemma Slotted.freeSlot {s : State τ α} (h : Slotted s) {slots : List (Finset τ)}
    {k : ℕ} (hfree : s.freeSlot = .ok (slots, k)) :
    (∃ old, slots[k]? = some old ∧ old.card < maxSubsPerHub) ∧ slots.length ≤ maxHubs ∧
      ∀ topics ∈ slots, topics.card ≤ maxSubsPerHub := by
  unfold State.freeSlot at hfree
  split at hfree
  · next k' hfound =>
    injection hfree with hfree
    injection hfree with hslots hk
    obtain ⟨hlt, hroom, -⟩ := List.findIdx?_eq_some_iff_getElem.mp hfound
    rw [← hslots, ← hk]
    exact ⟨⟨_, List.getElem?_eq_getElem hlt, of_decide_eq_true hroom⟩, h.few, h.small⟩
  · split at hfree
    · cases hfree
    · next hless =>
      injection hfree with hfree
      injection hfree with hslots hk
      rw [← hslots, ← hk]
      have hroom : (∅ : Finset τ).card < maxSubsPerHub := by
        rw [Finset.card_empty]
        decide
      refine ⟨⟨∅, List.getElem?_concat_length, hroom⟩, ?_, fun topics htopics => ?_⟩
      · rw [List.length_append, List.length_singleton]
        omega
      · rcases List.mem_append.mp htopics with hold | hnew
        · exact h.small topics hold
        · rw [List.mem_singleton.mp hnew, Finset.card_empty]
          exact Nat.zero_le _

/-- `_acquire_topic` of a topic without a hub puts it in the slot it found. -/
lemma Slotted.placed {s : State τ α} (h : Slotted s) {topic : τ} {k : ℕ} {slots : List (Finset τ)}
    (hfree : s.freeSlot = .ok (slots, k)) :
    (∀ t j, (s.topicHub.insert topic k).lookup t = some j →
      ∃ topics, (slots.modify k (insert topic))[j]? = some topics ∧ t ∈ topics) ∧
    (∀ topics ∈ slots.modify k (insert topic), topics.card ≤ maxSubsPerHub) ∧
    (slots.modify k (insert topic)).length ≤ maxHubs := by
  obtain ⟨⟨old, hold, hroom⟩, hfew, hsmall⟩ := h.freeSlot hfree
  have hkept : ∀ (j : ℕ) topics, s.slots[j]? = some topics → slots[j]? = some topics := by
    intro j topics hj
    rcases freeSlot_eq hfree with rfl | rfl
    · exact hj
    · rw [List.getElem?_append_left (List.getElem?_eq_some_iff.mp hj).1]
      exact hj
  refine ⟨fun t j hj => ?_, fun topics htopics => ?_, ?_⟩
  · rw [Dict.lookup_insert] at hj
    by_cases ht : t = topic
    · rw [if_pos ht, Option.some.injEq] at hj
      refine ⟨insert topic old, ?_, ht ▸ Finset.mem_insert_self topic old⟩
      rw [← hj, List.getElem?_modify, hold]
      simp
    · rw [if_neg ht] at hj
      obtain ⟨topics, hslot, hmem⟩ := h.filled t j hj
      by_cases hk : k = j
      · refine ⟨insert topic topics, ?_, Finset.mem_insert_of_mem hmem⟩
        rw [List.getElem?_modify, hkept j topics hslot]
        simp [hk]
      · refine ⟨topics, ?_, hmem⟩
        rw [List.getElem?_modify, hkept j topics hslot]
        simp [hk]
  · obtain ⟨j, hj⟩ := List.mem_iff_getElem?.mp htopics
    rw [List.getElem?_modify] at hj
    obtain ⟨topics', hslot, rfl⟩ := Option.map_eq_some_iff.mp hj
    by_cases hk : k = j
    · rw [← hk, hold, Option.some.injEq] at hslot
      rw [if_pos hk, ← hslot]
      exact (Finset.card_insert_le topic old).trans hroom
    · rw [if_neg hk]
      exact hsmall topics' (List.mem_of_getElem? hslot)
  · rw [List.length_modify]
    exact hfew

/-- `_acquire_topic` returns the hub of the topic. -/
lemma Slotted.acquire {s s' : State τ α} {topic : τ} {subArg : α} {k : ℕ} (h : Slotted s)
    (hacquire : s.acquireTopic topic subArg = .ok (s', k)) :
    Slotted { s' with base.consumers := s.base.consumers ++ [⟨k, topic, .entering⟩] } := by
  obtain ⟨s₀, hassign, rfl⟩ := acquireTopic_eq hacquire
  rcases assign_eq hassign with ⟨hlookup, rfl⟩ | ⟨hnone, slots, hfree, rfl⟩
  · refine ⟨h.filled, h.small, h.few, fun c hc hstage => ?_⟩
    rcases List.mem_append.mp hc with hold | hnew
    · exact h.given c hold hstage
    · rw [List.mem_singleton.mp hnew]
      exact hlookup
  · obtain ⟨hfilled, hsmall, hfew⟩ := h.placed hfree
    refine ⟨hfilled, hsmall, hfew, fun c hc hstage => ?_⟩
    show (s.topicHub.insert topic k).lookup c.topic = some c.hub
    rw [Dict.lookup_insert]
    rcases List.mem_append.mp hc with hold | hnew
    · -- who refers to a topic has a hub of it, and this topic has none
      have hgiven := h.given c hold hstage
      have hne : c.topic ≠ topic := by
        intro heq
        rw [heq, hnone] at hgiven
        exact absurd hgiven (by simp)
      rw [if_neg hne]
      exact hgiven
    · rw [List.mem_singleton.mp hnew]
      exact if_pos rfl

/-- A topic that its last generator releases leaves its slot, and the others keep theirs. -/
lemma Slotted.release {s : State τ α} (h : Slotted s) (hcounted : Counted s) {i : ℕ}
    {c : Consumer ℕ τ} (hc : s.base.consumers[i]? = some c) (hstage : c.stage ≠ .ended) :
    Slotted ((s.releaseTopic c.topic).endConsumer i c .ended) := by
  have hpos := holders_pos (List.mem_of_getElem? hc) hstage
  have hconsumers : ((s.releaseTopic c.topic).endConsumer i c .ended).base.consumers =
      s.base.consumers.set i { c with stage := .ended } := by
    show (s.releaseTopic c.topic).base.consumers.set i _ = _
    rw [base_releaseTopic]
  have hgiven : ∀ d ∈ s.base.consumers.set i { c with stage := .ended }, d.stage ≠ .ended →
      s.topicHub.lookup d.topic = some d.hub := by
    intro d hd hdstage
    rcases List.mem_or_eq_of_mem_set hd with hold | rfl
    · exact h.given d hold hdstage
    · exact absurd rfl hdstage
  rcases releaseTopic_eq hcounted hpos with ⟨hlast, k, hk, heq⟩ | ⟨-, heq⟩
  · refine ⟨?_, ?_, ?_, ?_⟩
    · rw [heq]
      intro t j hj
      show ∃ topics, (s.slots.modify k fun topics => topics.erase c.topic)[j]? = some topics ∧ _
      have hj : (s.topicHub.erase c.topic).lookup t = some j := hj
      rw [Dict.lookup_erase] at hj
      by_cases ht : t = c.topic
      · rw [if_pos ht] at hj
        exact absurd hj (by simp)
      · rw [if_neg ht] at hj
        obtain ⟨topics, hslot, hmem⟩ := h.filled t j hj
        rw [List.getElem?_modify, hslot]
        by_cases hkj : k = j
        · exact ⟨topics.erase c.topic, by simp [hkj], Finset.mem_erase.mpr ⟨ht, hmem⟩⟩
        · exact ⟨topics, by simp [hkj], hmem⟩
    · rw [heq]
      intro topics htopics
      obtain ⟨j, hj⟩ := List.mem_iff_getElem?.mp htopics
      have hj : (s.slots.modify k fun topics => topics.erase c.topic)[j]? = some topics := hj
      rw [List.getElem?_modify] at hj
      obtain ⟨old, hslot, rfl⟩ := Option.map_eq_some_iff.mp hj
      have hold := h.small old (List.mem_of_getElem? hslot)
      by_cases hkj : k = j
      · rw [if_pos hkj]
        exact (Finset.card_le_card (Finset.erase_subset _ _)).trans hold
      · rw [if_neg hkj]
        exact hold
    · rw [heq]
      show (s.slots.modify k fun topics => topics.erase c.topic).length ≤ maxHubs
      rw [List.length_modify]
      exact h.few
    · rw [hconsumers, heq]
      intro d hd hdstage
      show (s.topicHub.erase c.topic).lookup d.topic = some d.hub
      -- the generator that ends was the only one of the topic
      have hne : d.topic ≠ c.topic := by
        intro htopic
        have hafter := holders_set_ended hc hstage d.topic
        have hleft := holders_pos hd hdstage
        rw [htopic, if_pos rfl] at hafter
        rw [htopic] at hleft
        omega
      rw [Dict.lookup_erase, if_neg hne]
      exact hgiven d hd hdstage
  · refine ⟨?_, ?_, ?_, ?_⟩
    · rw [heq]
      exact h.filled
    · rw [heq]
      exact h.small
    · rw [heq]
      exact h.few
    · rw [hconsumers, heq]
      exact hgiven

/-- The stretches in between move no generator to another topic or hub, and end none. -/
lemma inner_consumers {s s' : Consumers.State ℕ τ} {e : Consumers.Event ℕ τ}
    (hstart : ∀ k topic, e ≠ .start k topic)
    (hstep : Consumers.step (fun _ => .perTopic τ) s e = some s') {d : Consumer ℕ τ}
    (hd : d ∈ s'.consumers) (hstage : d.stage ≠ .ended) :
    ∃ c ∈ s.consumers, c.hub = d.hub ∧ c.topic = d.topic ∧ c.stage ≠ .ended := by
  have hset : ∀ (i : ℕ) (c : Consumer ℕ τ) (stage : Stage), s.consumers[i]? = some c →
      c.stage ≠ .ended → d ∈ s.consumers.set i { c with stage := stage } →
      ∃ c ∈ s.consumers, c.hub = d.hub ∧ c.topic = d.topic ∧ c.stage ≠ .ended := by
    intro i c stage hc hcstage hmem
    rcases List.mem_or_eq_of_mem_set hmem with hold | rfl
    · exact ⟨d, hold, rfl, rfl, hstage⟩
    · exact ⟨c, List.mem_of_getElem? hc, rfl, rfl, hcstage⟩
  cases e with
  | start k topic => exact absurd rfl (hstart k topic)
  | enter i =>
    obtain ⟨c, hc, hcstage, rfl⟩ := step_enter hstep
    exact hset i c _ hc (by simp [hcstage]) hd
  | hub k e =>
    obtain ⟨-, hub, -, rfl⟩ := step_hub hstep
    exact ⟨d, hd, rfl, rfl, hstage⟩
  | leave i =>
    obtain ⟨c, q, hub, stage, hc, hcstage, -, -, rfl⟩ := step_leave hstep
    exact hset i c _ hc (by simp [hcstage]) hd
  | left i j =>
    obtain ⟨c, hub, hc, hcstage, -, rfl⟩ := step_left hstep
    exact hset i c _ hc (by simp [hcstage]) hd
  | cancel i =>
    obtain ⟨c, stage, hc, hcancelled, rfl⟩ := step_cancel hstep
    refine hset i c _ hc ?_ hd
    rcases cancelled_cases hcancelled with ⟨hcstage, -⟩ | ⟨q, hcstage, -, -⟩ |
      ⟨q, hcstage, -, -⟩ | ⟨q, hcstage, -⟩ <;> simp [hcstage]
  | cancelSend i j =>
    obtain ⟨c, hc, hcstage, -, rfl⟩ := step_cancelSend hstep
    exact hset i c _ hc (by simp [hcstage]) hd

lemma Slotted.step {s s' : State τ α} {e : Event τ α} (h : Slotted s) (hcounted : Counted s)
    (hstep : Hyperliquid.step s e = some s') : Slotted s' := by
  cases e with
  | acquire topic subArg =>
    rcases step_acquire hstep with rfl | ⟨s₀, k, hacquire, rfl⟩
    · exact h
    · exact h.acquire hacquire
  | inner e =>
    obtain ⟨hstart, base, hbase, rfl⟩ := step_inner hstep
    refine ⟨h.filled, h.small, h.few, fun d hd hstage => ?_⟩
    obtain ⟨c, hc, hhub, htopic, hcstage⟩ := inner_consumers hstart hbase hd hstage
    rw [← hhub, ← htopic]
    exact h.given c hc hcstage
  | release i =>
    obtain ⟨c, hc, hstage, rfl⟩ := step_release hstep
    exact h.release hcounted hc (by simp [hstage])
  | cancelRelease i =>
    obtain ⟨c, hc, hstage, rfl⟩ := step_cancelRelease hstep
    refine ⟨h.filled, h.small, h.few, fun d hd hdstage => ?_⟩
    rcases List.mem_or_eq_of_mem_set hd with hold | rfl
    · exact h.given d hold hdstage
    · exact h.given c (List.mem_of_getElem? hc) (by simp [hstage])

/-- The queues on the hubs have their owners in every run. -/
lemma owned_step {s s' : State τ α} {e : Event τ α} (h : Owned s.base)
    (hstep : Hyperliquid.step s e = some s') : Owned s'.base := by
  cases e with
  | acquire topic subArg =>
    rcases base_of_acquire hstep with hbase | ⟨k, hbase⟩
    · rwa [hbase]
    · rw [hbase]
      exact h.start k topic
  | inner e =>
    obtain ⟨-, base, hbase, rfl⟩ := step_inner hstep
    exact h.step hbase
  | release i =>
    obtain ⟨c, hc, hstage, hbase⟩ := base_of_release hstep
    rw [hbase]
    exact h.setStage hc (by rw [hstage]; rfl) fun q heq => by cases heq
  | cancelRelease i =>
    obtain ⟨c, hc, hstage, rfl⟩ := step_cancelRelease hstep
    exact h.setStage hc (by rw [hstage]; rfl) fun q heq => by cases heq

/-! ## The tables in every run -/

/-- The five tables agree. The last field is what a reconnect sends for the topics of a hub. -/
structure State.Consistent (s : State τ α) : Prop where
  refs : ∀ t, s.topicRefs.lookup t =
    if s.outstanding t = 0 then none else some (s.outstanding t : ℤ)
  slotted : ∀ t, s.outstanding t ≠ 0 → ∃ k, s.topicHub.lookup t = some k ∧
    (∃ topics, s.slots[k]? = some topics ∧ t ∈ topics) ∧
    ∀ (j : ℕ) topics, s.slots[j]? = some topics → t ∈ topics → j = k
  unslotted : ∀ t, s.outstanding t = 0 → ∀ topics ∈ s.slots, t ∉ topics
  small : ∀ topics ∈ s.slots, topics.card ≤ maxSubsPerHub
  few : s.slots.length ≤ maxHubs
  sameHub : ∀ c ∈ s.base.consumers, c.stage ≠ .ended → ∀ d ∈ s.base.consumers,
    d.stage ≠ .ended → c.topic = d.topic → c.hub = d.hub
  recorded : ∀ k t, (s.base.hubs k).queuesOf t ≠ [] → s.topicArgs.lookup t ≠ none
  resubscribed : ∀ k topics, (∀ t ∈ topics, (s.base.hubs k).queuesOf t ≠ []) →
    (s.subPayload topics).map some = topics.map s.topicArgs.lookup

/-- A queue on a hub has a generator that refers to its topic. -/
lemma outstanding_of_queue {s : State τ α} (h : Owned s.base) {k : ℕ} {t : τ}
    (hqueue : (s.base.hubs k).queuesOf t ≠ []) :
    ∃ c ∈ s.base.consumers, c.topic = t ∧ c.stage ≠ .ended := by
  obtain ⟨q, hq⟩ := List.exists_mem_of_ne_nil _ hqueue
  obtain ⟨i, c, hc, -, htopic, hstage⟩ := (h.owners k t q).mp hq
  refine ⟨c, List.mem_of_getElem? hc, htopic, fun hended => ?_⟩
  rw [hended] at hstage
  exact absurd hstage (by simp [Stage.queue])

/-- What the counts, the slots and the owners of the queues say together. -/
lemma Slotted.consistent {s : State τ α} (h : Slotted s) (hcounted : Counted s)
    (howned : Owned s.base) (hpayload : ∀ topics,
      (∀ t ∈ topics, ∃ c ∈ s.base.consumers, c.topic = t ∧ c.stage ≠ .ended) →
        (s.subPayload topics).map some = topics.map s.topicArgs.lookup) : s.Consistent where
  refs := hcounted.refs
  slotted := by
    intro t hpos
    obtain ⟨k, hk⟩ : ∃ k, s.topicHub.lookup t = some k := by
      apply Option.ne_none_iff_exists'.mp
      exact fun hnone => hpos ((hcounted.hubs t).mp hnone)
    refine ⟨k, hk, h.filled t k hk, fun j topics hj ht => ?_⟩
    have hin := hcounted.slots j topics hj t ht
    rw [hk] at hin
    exact (Option.some.inj hin).symm
  unslotted := by
    intro t hzero topics htopics ht
    obtain ⟨j, hj⟩ := List.mem_iff_getElem?.mp htopics
    have hin := hcounted.slots j topics hj t ht
    rw [(hcounted.hubs t).mpr hzero] at hin
    exact absurd hin (by simp)
  small := h.small
  few := h.few
  sameHub := by
    intro c hc hcstage d hd hdstage htopic
    have hgiven := h.given c hc hcstage
    rw [htopic, h.given d hd hdstage] at hgiven
    exact (Option.some.inj hgiven).symm
  recorded := by
    intro k t hqueue hnone
    obtain ⟨c, hc, rfl, hstage⟩ := outstanding_of_queue howned hqueue
    have hpos := holders_pos hc hstage
    have hzero := (hcounted.args c.topic).mp hnone
    omega
  resubscribed := fun k topics hqueues =>
    hpayload topics fun t ht => outstanding_of_queue howned (hqueues t ht)

/-- Whatever the order of the consumers' stretches, the tables agree, and an `_acquire_topic` that
raises leaves them as they were. -/
theorem slots_consistent (es : List (Event τ α)) (s : State τ α)
    (hrun : run step {} es = some s) :
    s.Consistent ∧ ∀ topic subArg e s',
      (acquireInPlace topic subArg).run.run s = (.error e, s') → s' = s := by
  have hpres : ∀ (s : State τ α) (e : Event τ α) s', Counted s ∧ Slotted s ∧ Owned s.base →
      step s e = some s' → Counted s' ∧ Slotted s' ∧ Owned s'.base :=
    fun _ _ _ h hstep => ⟨h.1.step hstep, h.2.1.step h.1 hstep, owned_step h.2.2 hstep⟩
  have hkept : Counted s ∧ Slotted s ∧ Owned s.base :=
    invariant_of_run hpres ⟨counted_init, slotted_init, kept_init.owned⟩ hrun
  obtain ⟨hcounted, hslotted, howned⟩ := hkept
  refine ⟨hslotted.consistent hcounted howned (subPayload_perTopic es s hrun), ?_⟩
  intro topic subArg e s' hraise
  rw [acquireInPlace_run] at hraise
  split at hraise
  · exact absurd (congrArg Prod.fst hraise) (by simp)
  · exact (congrArg Prod.snd hraise).symm

end

/-- While the first reader of a topic is being released another one acquires it: the topic keeps
its slot. -/
def handedOver : List (Event String String) :=
  [.acquire "a" "trades", .inner (.enter 0), .inner (.hub 0 (.connect 0)),
    .inner (.hub 0 (.resubscribed 0)), .inner (.hub 0 (.proceed 0)), .inner (.cancel 0),
    .inner (.leave 0), .acquire "a" "trades", .inner (.left 0 0), .release 0]

theorem slots_consistent_handedOver :
    ∃ s, run step {} handedOver = some s ∧ s.outstanding "a" = 1 ∧ s.Consistent := by
  refine ⟨_, rfl, by decide, (slots_consistent handedOver _ rfl).1⟩

end Hyperliquid
end Consumers
end ExchangeRouter
