import ExchangeRouter.ConsumersOwned

/-!
# Hyperliquid's topics

The tables of the adapter count the generators that refer to a topic (`Counted`): a topic has a
count, an argument, a hub and a place in that hub's slot as long as one does. This holds in
every run. A generator that was cancelled outside its `try` is counted for ever.
-/

namespace ExchangeRouter
namespace Consumers

open Transition

/-! ## Hyperliquid's tables -/

namespace Hyperliquid

section

variable {τ α : Type*} [DecidableEq τ]

/-- The generator refers to the topic until `_release_topic` is through with it. -/
def refersTo (t : τ) (c : Consumer ℕ τ) : Bool := decide (c.topic = t ∧ c.stage ≠ .ended)

/-- How many generators refer to the topic. -/
def holders (consumers : List (Consumer ℕ τ)) (t : τ) : ℕ := consumers.countP (refersTo t)

lemma holders_append (consumers : List (Consumer ℕ τ)) (k : ℕ) (topic t : τ) :
    holders (consumers ++ [⟨k, topic, .entering⟩]) t =
      holders consumers t + if t = topic then 1 else 0 := by
  rw [holders, List.countP_append, List.countP_singleton]
  by_cases ht : t = topic
  · simp [refersTo, holders, ht]
  · simp [refersTo, holders, ht, Ne.symm ht]

/-- A generator that goes on and has not ended is still counted. -/
lemma holders_set {consumers : List (Consumer ℕ τ)} {i : ℕ} {c : Consumer ℕ τ}
    (hc : consumers[i]? = some c) {stage : Stage}
    (hsame : c.stage = .ended ↔ stage = .ended) (t : τ) :
    holders (consumers.set i { c with stage := stage }) t = holders consumers t := by
  obtain ⟨hlt, hget⟩ := List.getElem?_eq_some_iff.mp hc
  have hpos : 0 < holders consumers t ∨ refersTo t c = false := by
    cases hrefers : refersTo t c with
    | false => exact Or.inr rfl
    | true => exact Or.inl (List.countP_pos_iff.mpr ⟨c, hget ▸ List.getElem_mem hlt, hrefers⟩)
  have heq : refersTo t { c with stage := stage } = refersTo t c := by
    simp [refersTo, hsame]
  unfold holders at hpos ⊢
  rw [List.countP_set hlt, hget, heq]
  rcases hpos with hpos | hnot
  · split <;> omega
  · simp [hnot]

/-- One that ends is no longer. -/
lemma holders_set_ended {consumers : List (Consumer ℕ τ)} {i : ℕ} {c : Consumer ℕ τ}
    (hc : consumers[i]? = some c) (hstage : c.stage ≠ .ended) (t : τ) :
    holders (consumers.set i { c with stage := .ended }) t =
      holders consumers t - if t = c.topic then 1 else 0 := by
  obtain ⟨hlt, hget⟩ := List.getElem?_eq_some_iff.mp hc
  unfold holders
  rw [List.countP_set hlt, hget]
  by_cases ht : t = c.topic
  · simp [refersTo, ht, hstage]
  · simp [refersTo, ht, Ne.symm ht]

lemma holders_pos {consumers : List (Consumer ℕ τ)} {c : Consumer ℕ τ} (hc : c ∈ consumers)
    (hstage : c.stage ≠ .ended) : 0 < holders consumers c.topic :=
  List.countP_pos_iff.mpr ⟨c, hc, by simp [refersTo, hstage]⟩

/-- The stretches of the generators up to the return of `hub.unsubscribe` end none. -/
lemma holders_inner {P : ℕ → StreamHub.Payloads τ} {s s' : Consumers.State ℕ τ}
    {e : Consumers.Event ℕ τ} (hstart : ∀ k topic, e ≠ .start k topic)
    (hstep : Consumers.step P s e = some s') (t : τ) :
    holders s'.consumers t = holders s.consumers t := by
  cases e with
  | start k topic => exact absurd rfl (hstart k topic)
  | enter i =>
    obtain ⟨c, hc, hstage, rfl⟩ := step_enter hstep
    exact holders_set hc (by simp [hstage]) t
  | hub k e =>
    obtain ⟨-, hub, -, rfl⟩ := step_hub hstep
    rfl
  | leave i =>
    obtain ⟨c, q, hub, stage, hc, hstage, -, hafter, rfl⟩ := step_leave hstep
    refine holders_set hc ?_ t
    rcases hafter with rfl | rfl <;> simp [hstage]
  | left i j =>
    obtain ⟨c, hub, hc, hstage, -, rfl⟩ := step_left hstep
    exact holders_set hc (by simp [hstage]) t
  | cancel i =>
    obtain ⟨c, stage, hc, hcancelled, rfl⟩ := step_cancel hstep
    refine holders_set hc ?_ t
    rcases cancelled_cases hcancelled with ⟨hstage, rfl⟩ | ⟨q, hstage, -, rfl⟩ |
      ⟨q, hstage, -, rfl⟩ | ⟨q, hstage, rfl⟩ <;> simp [hstage]
  | cancelSend i j =>
    obtain ⟨c, hc, hstage, -, rfl⟩ := step_cancelSend hstep
    exact holders_set hc (by simp [hstage]) t

/-- A table that has the topics somebody refers to, after one more does. -/
lemma none_iff_insert {β : Type*} {d : AList fun _ : τ => β} {n : τ → ℕ}
    (h : ∀ t, d.lookup t = none ↔ n t = 0) (topic : τ) (v : β) (t : τ) :
    (d.insert topic v).lookup t = none ↔ (n t + if t = topic then 1 else 0) = 0 := by
  rw [Dict.lookup_insert]
  by_cases ht : t = topic
  · simp [ht]
  · rw [if_neg ht, if_neg ht, Nat.add_zero]
    exact h t

/-- And after the only one for a topic does no more. -/
lemma none_iff_erase {β : Type*} {d : AList fun _ : τ => β} {n : τ → ℕ}
    (h : ∀ t, d.lookup t = none ↔ n t = 0) {topic : τ} (hlast : n topic = 1) (t : τ) :
    (d.erase topic).lookup t = none ↔ (n t - if t = topic then 1 else 0) = 0 := by
  rw [Dict.lookup_erase]
  by_cases ht : t = topic
  · simp [ht, hlast]
  · rw [if_neg ht, if_neg ht, Nat.sub_zero]
    exact h t

/-- One that others refer to as well stays. -/
lemma none_iff_keep {β : Type*} {d : AList fun _ : τ => β} {n : τ → ℕ}
    (h : ∀ t, d.lookup t = none ↔ n t = 0) {topic : τ} (hmore : 1 < n topic) (t : τ) :
    d.lookup t = none ↔ (n t - if t = topic then 1 else 0) = 0 := by
  rw [h]
  by_cases ht : t = topic
  · rw [if_pos ht, ht]
    omega
  · rw [if_neg ht, Nat.sub_zero]

/-- A topic has a count, an argument and a hub while a generator refers to it, and is in the
slot of that hub only. -/
structure Counted (s : State τ α) : Prop where
  refs : ∀ t, s.topicRefs.lookup t =
    if holders s.base.consumers t = 0 then none else some (holders s.base.consumers t : ℤ)
  args : ∀ t, s.topicArgs.lookup t = none ↔ holders s.base.consumers t = 0
  hubs : ∀ t, s.topicHub.lookup t = none ↔ holders s.base.consumers t = 0
  slots : ∀ (k : ℕ) (topics : Finset τ), s.slots[k]? = some topics → ∀ t ∈ topics,
    s.topicHub.lookup t = some k

/-- The tables go by how many generators refer to each topic. -/
lemma Counted.of_holders {s : State τ α} (h : Counted s) {base : Consumers.State ℕ τ}
    (hsame : ∀ t, holders base.consumers t = holders s.base.consumers t) :
    Counted { s with base := base } := by
  refine ⟨?_, ?_, ?_, h.slots⟩
  · intro t
    rw [hsame]
    exact h.refs t
  · intro t
    rw [hsame]
    exact h.args t
  · intro t
    rw [hsame]
    exact h.hubs t

omit [DecidableEq τ] in
/-- The first slot with room is one of the slots, and a new one is empty. -/
lemma freeSlot_eq {s : State τ α} {slots : List (Finset τ)} {k : ℕ}
    (h : s.freeSlot = .ok (slots, k)) : slots = s.slots ∨ slots = s.slots ++ [∅] := by
  unfold State.freeSlot at h
  split at h
  · next k' hfound =>
    injection h with h
    exact Or.inl (congrArg Prod.fst h).symm
  · split at h
    · cases h
    · injection h with h
      exact Or.inr (congrArg Prod.fst h).symm

/-- `_acquire_topic` changes no consumer, and what it makes of the tables. -/
lemma acquireTopic_eq {s s' : State τ α} {topic : τ} {subArg : α} {k : ℕ}
    (h : s.acquireTopic topic subArg = .ok (s', k)) :
    ∃ s₀, s.assign topic = .ok (s₀, k) ∧ s' = { s₀ with
      topicArgs := s₀.topicArgs.insert topic subArg
      topicRefs := s₀.topicRefs.insert topic ((s₀.topicRefs.lookup topic).getD 0 + 1) } := by
  unfold State.acquireTopic at h
  split at h
  · next s₀ k' hassign =>
    injection h with h
    injection h with hs hk
    rw [← hk]
    exact ⟨s₀, hassign, hs.symm⟩
  · cases h

/-- The topic has a hub then, and the other topics the one they had. -/
lemma assign_eq {s s' : State τ α} {topic : τ} {k : ℕ} (h : s.assign topic = .ok (s', k)) :
    (s.topicHub.lookup topic = some k ∧ s' = s) ∨
    (s.topicHub.lookup topic = none ∧ ∃ slots, s.freeSlot = .ok (slots, k) ∧
      s' = { s with
        slots := slots.modify k (insert topic)
        topicHub := s.topicHub.insert topic k }) := by
  unfold State.assign at h
  split at h
  · next k' hlookup =>
    injection h with h
    injection h with hs hk
    rw [← hk]
    exact Or.inl ⟨hlookup, hs.symm⟩
  · next hlookup =>
    split at h
    · next slots k' hslot =>
      injection h with h
      injection h with hs hk
      rw [← hk]
      exact Or.inr ⟨hlookup, slots, hslot, hs.symm⟩
    · cases h

/-- The topics of a slot after one was assigned to slot `k`. -/
lemma slots_assign {s : State τ α} (h : Counted s) {topic : τ} {k : ℕ} {slots : List (Finset τ)}
    (hnone : s.topicHub.lookup topic = none)
    (hslots : slots = s.slots ∨ slots = s.slots ++ [∅]) (j : ℕ) (topics : Finset τ)
    (hj : (slots.modify k (insert topic))[j]? = some topics) (t : τ) (ht : t ∈ topics) :
    (s.topicHub.insert topic k).lookup t = some j := by
  have hold : ∀ old, slots[j]? = some old → ∀ x ∈ old, s.topicHub.lookup x = some j := by
    intro old hget
    rcases hslots with rfl | rfl
    · exact h.slots j old hget
    · rw [Dict.get_append] at hget
      by_cases hlast : j = s.slots.length
      · rw [if_pos hlast, Option.some.injEq] at hget
        intro x hx
        rw [← hget] at hx
        exact absurd hx (Finset.notMem_empty x)
      · rw [if_neg hlast] at hget
        exact h.slots j old hget
  rw [List.getElem?_modify] at hj
  obtain ⟨old, hget, rfl⟩ := Option.map_eq_some_iff.mp hj
  rw [Dict.lookup_insert]
  by_cases htopic : t = topic
  · rw [if_pos htopic]
    by_cases hk : k = j
    · rw [hk]
    · -- a topic without a hub is in no slot
      rw [if_neg hk] at ht
      have hin := hold old hget t ht
      rw [htopic, hnone] at hin
      cases hin
  · rw [if_neg htopic]
    by_cases hk : k = j
    · rw [if_pos hk] at ht
      exact hold old hget t ((Finset.mem_insert.mp ht).resolve_left htopic)
    · rw [if_neg hk] at ht
      exact hold old hget t ht

/-- `_acquire_topic` counts the generator that it returns to. -/
lemma Counted.acquire {s s' : State τ α} {topic : τ} {subArg : α} {k : ℕ} (h : Counted s)
    (hacquire : s.acquireTopic topic subArg = .ok (s', k)) :
    Counted { s' with base.consumers := s.base.consumers ++ [⟨k, topic, .entering⟩] } := by
  obtain ⟨s₀, hassign, rfl⟩ := acquireTopic_eq hacquire
  have hsame : s₀.topicArgs = s.topicArgs ∧ s₀.topicRefs = s.topicRefs := by
    rcases assign_eq hassign with ⟨-, rfl⟩ | ⟨-, slots, -, rfl⟩
    · exact ⟨rfl, rfl⟩
    · exact ⟨rfl, rfl⟩
  refine ⟨?_, ?_, ?_, ?_⟩
  · intro t
    show (s₀.topicRefs.insert topic _).lookup t = _
    rw [Dict.lookup_insert, holders_append, hsame.2]
    by_cases ht : t = topic
    · rw [if_pos ht, if_pos ht, if_neg (by omega), ← ht, h.refs t]
      by_cases hzero : holders s.base.consumers t = 0
      · simp [hzero]
      · simp [hzero]
    · rw [if_neg ht, if_neg ht, Nat.add_zero]
      exact h.refs t
  · intro t
    show (s₀.topicArgs.insert topic subArg).lookup t = none ↔ _
    rw [holders_append, hsame.1]
    exact none_iff_insert h.args topic subArg t
  · intro t
    show s₀.topicHub.lookup t = none ↔ _
    rw [holders_append]
    rcases assign_eq hassign with ⟨hlookup, rfl⟩ | ⟨-, slots, -, rfl⟩
    · by_cases ht : t = topic
      · rw [ht, hlookup]
        simp
      · rw [if_neg ht, Nat.add_zero]
        exact h.hubs t
    · exact none_iff_insert h.hubs topic k t
  · rcases assign_eq hassign with ⟨-, rfl⟩ | ⟨hnone, slots, hfree, rfl⟩
    · exact h.slots
    · exact slots_assign h hnone (freeSlot_eq hfree)

/-- `_release_topic` of a topic that one generator refers to, and of one that others do too. -/
lemma releaseTopic_eq {s : State τ α} (h : Counted s) {topic : τ}
    (hpos : 0 < holders s.base.consumers topic) :
    (holders s.base.consumers topic = 1 ∧ ∃ k, s.topicHub.lookup topic = some k ∧
      s.releaseTopic topic = { s with
        topicRefs := s.topicRefs.erase topic
        topicArgs := s.topicArgs.erase topic
        topicHub := s.topicHub.erase topic
        slots := s.slots.modify k fun topics => topics.erase topic }) ∨
    (1 < holders s.base.consumers topic ∧ s.releaseTopic topic = { s with
      topicRefs := s.topicRefs.insert topic ((holders s.base.consumers topic : ℤ) - 1) }) := by
  have hrefs : (s.topicRefs.lookup topic).getD 1 - 1 =
      (holders s.base.consumers topic : ℤ) - 1 := by
    rw [h.refs, if_neg (by omega)]
    rfl
  unfold State.releaseTopic
  rw [hrefs]
  by_cases hlast : holders s.base.consumers topic = 1
  · left
    obtain ⟨k, hk⟩ : ∃ k, s.topicHub.lookup topic = some k := by
      apply Option.ne_none_iff_exists'.mp
      intro hnone
      have := (h.hubs topic).mp hnone
      omega
    refine ⟨hlast, k, hk, ?_⟩
    rw [if_pos (by omega)]
    simp only [hk]
  · right
    rw [if_neg (by omega)]
    exact ⟨by omega, rfl⟩

lemma base_releaseTopic (s : State τ α) (topic : τ) : (s.releaseTopic topic).base = s.base := by
  unfold State.releaseTopic
  by_cases hlast : (s.topicRefs.lookup topic).getD 1 - 1 ≤ 0
  · simp only [hlast, if_true]
  · simp only [hlast, if_false]

/-- The topics of a slot after one was discarded from the slot of its hub, where alone it
was. -/
lemma slots_release {s : State τ α} (h : Counted s) {topic : τ} {k : ℕ}
    (hk : s.topicHub.lookup topic = some k) (j : ℕ) (topics : Finset τ)
    (hj : (s.slots.modify k fun topics => topics.erase topic)[j]? = some topics) (t : τ)
    (ht : t ∈ topics) : (s.topicHub.erase topic).lookup t = some j := by
  rw [List.getElem?_modify] at hj
  obtain ⟨old, hget, rfl⟩ := Option.map_eq_some_iff.mp hj
  rw [Dict.lookup_erase]
  by_cases hkj : k = j
  · rw [if_pos hkj] at ht
    obtain ⟨hne, hmem⟩ := Finset.mem_erase.mp ht
    rw [if_neg hne]
    exact h.slots j old hget t hmem
  · rw [if_neg hkj] at ht
    have hin := h.slots j old hget t ht
    rw [if_neg]
    · exact hin
    · intro heq
      rw [heq, hk, Option.some.injEq] at hin
      exact hkj hin

/-- `_release_topic` counts the generator no more, and the last one takes the topic along. -/
lemma Counted.release {s : State τ α} (h : Counted s) {i : ℕ} {c : Consumer ℕ τ}
    (hc : s.base.consumers[i]? = some c) (hstage : c.stage ≠ .ended) :
    Counted ((s.releaseTopic c.topic).endConsumer i c .ended) := by
  have hpos := holders_pos (List.mem_of_getElem? hc) hstage
  have hafter : ∀ t, holders ((s.releaseTopic c.topic).endConsumer i c .ended).base.consumers t =
      holders s.base.consumers t - if t = c.topic then 1 else 0 := by
    intro t
    show holders ((s.releaseTopic c.topic).base.consumers.set i _) t = _
    rw [base_releaseTopic]
    exact holders_set_ended hc hstage t
  rcases releaseTopic_eq h hpos with ⟨hlast, k, hk, heq⟩ | ⟨hmore, heq⟩
  · refine ⟨?_, ?_, ?_, ?_⟩
    · intro t
      rw [hafter, heq]
      show (s.topicRefs.erase c.topic).lookup t = _
      rw [Dict.lookup_erase]
      by_cases ht : t = c.topic
      · rw [if_pos ht, if_pos (by rw [if_pos ht, ht]; omega)]
      · rw [if_neg ht, if_neg ht, Nat.sub_zero]
        exact h.refs t
    · intro t
      rw [hafter, heq]
      exact none_iff_erase h.args hlast t
    · intro t
      rw [hafter, heq]
      exact none_iff_erase h.hubs hlast t
    · rw [heq]
      exact slots_release h hk
  · refine ⟨?_, ?_, ?_, ?_⟩
    · intro t
      rw [hafter, heq]
      show (s.topicRefs.insert c.topic _).lookup t = _
      rw [Dict.lookup_insert]
      by_cases ht : t = c.topic
      · rw [if_pos ht, if_pos ht, ht, if_neg (by omega)]
        congr 1
        omega
      · rw [if_neg ht, if_neg ht, Nat.sub_zero]
        exact h.refs t
    · intro t
      rw [hafter, heq]
      exact none_iff_keep h.args hmore t
    · intro t
      rw [hafter, heq]
      exact none_iff_keep h.hubs hmore t
    · rw [heq]
      exact h.slots

/-! ## Every step counts -/

lemma step_acquire {s s' : State τ α} {topic : τ} {subArg : α}
    (h : step s (.acquire topic subArg) = some s') :
    s' = s ∨ ∃ s₀ k, s.acquireTopic topic subArg = .ok (s₀, k) ∧
      s' = { s₀ with base.consumers := s.base.consumers ++ [⟨k, topic, .entering⟩] } := by
  cases hacquire : s.acquireTopic topic subArg with
  | error e =>
    simp only [step, hacquire, Option.some.injEq] at h
    exact Or.inl h.symm
  | ok result =>
    simp only [step, hacquire, Option.some.injEq] at h
    exact Or.inr ⟨result.1, result.2, rfl, h.symm⟩

lemma step_inner {s s' : State τ α} {e : Consumers.Event ℕ τ}
    (h : step s (.inner e) = some s') :
    (∀ k topic, e ≠ .start k topic) ∧ ∃ base,
      Consumers.step (fun _ => .perTopic τ) s.base e = some base ∧
        s' = { s with base := base } := by
  cases e with
  | start k topic => simp [step] at h
  | _ =>
    obtain ⟨base, hbase, rfl⟩ := Option.map_eq_some_iff.mp h
    exact ⟨fun _ _ heq => (by cases heq), base, hbase, rfl⟩

lemma step_release {s s' : State τ α} {i : ℕ} (h : step s (.release i) = some s') :
    ∃ c, s.base.consumers[i]? = some c ∧ c.stage = .released ∧
      s' = (s.releaseTopic c.topic).endConsumer i c .ended := by
  cases hc : s.base.consumers[i]? with
  | none => simp [step, hc] at h
  | some c =>
    simp only [step, hc] at h
    split at h
    · next hstage => exact ⟨c, rfl, hstage, (Option.some.inj h).symm⟩
    · simp at h

lemma step_cancelRelease {s s' : State τ α} {i : ℕ} (h : step s (.cancelRelease i) = some s') :
    ∃ c, s.base.consumers[i]? = some c ∧ c.stage = .released ∧
      s' = s.endConsumer i c (.cancelled none) := by
  cases hc : s.base.consumers[i]? with
  | none => simp [step, hc] at h
  | some c =>
    simp only [step, hc] at h
    split at h
    · next hstage => exact ⟨c, rfl, hstage, (Option.some.inj h).symm⟩
    · simp at h

/-- Below the tables an acquisition adds a generator, if it does not raise. -/
lemma base_of_acquire {s s' : State τ α} {topic : τ} {subArg : α}
    (h : step s (.acquire topic subArg) = some s') :
    s'.base = s.base ∨
      ∃ k, s'.base = { s.base with consumers := s.base.consumers ++ [⟨k, topic, .entering⟩] } := by
  rcases step_acquire h with rfl | ⟨s₀, k, hacquire, rfl⟩
  · exact Or.inl rfl
  · obtain ⟨s₁, hassign, rfl⟩ := acquireTopic_eq hacquire
    have hbase : s₁.base = s.base := by
      rcases assign_eq hassign with ⟨-, rfl⟩ | ⟨-, slots, -, rfl⟩
      · rfl
      · rfl
    refine Or.inr ⟨k, ?_⟩
    simp only [hbase]

/-- And a release ends one. -/
lemma base_of_release {s s' : State τ α} {i : ℕ} (h : step s (.release i) = some s') :
    ∃ c, s.base.consumers[i]? = some c ∧ c.stage = .released ∧
      s'.base = s.base.setStage i c .ended := by
  obtain ⟨c, hc, hstage, rfl⟩ := step_release h
  refine ⟨c, hc, hstage, ?_⟩
  show (s.releaseTopic c.topic).base.setStage i c .ended = _
  rw [base_releaseTopic]

/-- The tables count the generators in every run. -/
lemma Counted.step {s s' : State τ α} {e : Event τ α} (h : Counted s)
    (hstep : Hyperliquid.step s e = some s') : Counted s' := by
  cases e with
  | acquire topic subArg =>
    rcases step_acquire hstep with rfl | ⟨s₀, k, hacquire, rfl⟩
    · exact h
    · exact h.acquire hacquire
  | inner e =>
    obtain ⟨hstart, base, hbase, rfl⟩ := step_inner hstep
    exact h.of_holders fun t => holders_inner hstart hbase t
  | release i =>
    obtain ⟨c, hc, hstage, rfl⟩ := step_release hstep
    exact h.release hc (by simp [hstage])
  | cancelRelease i =>
    obtain ⟨c, hc, hstage, rfl⟩ := step_cancelRelease hstep
    exact h.of_holders fun t => holders_set hc (by simp [hstage]) t

lemma counted_init : Counted ({} : State τ α) := by
  refine ⟨fun _ => rfl, fun _ => ?_, fun _ => ?_, fun k topics hk => by cases hk⟩
  · simp [holders, AList.lookup_empty]
  · simp [holders, AList.lookup_empty]

/-- In every run the topics of the generators that have not ended have an argument each, so that
`_sub_payload` makes one payload for each of them. -/
theorem subPayload_perTopic (es : List (Event τ α)) (s : State τ α)
    (hrun : run step {} es = some s) (topics : List τ)
    (htopics : ∀ t ∈ topics, ∃ c ∈ s.base.consumers, c.topic = t ∧ c.stage ≠ .ended) :
    (s.subPayload topics).map some = topics.map s.topicArgs.lookup := by
  have hcounted : Counted s :=
    invariant_of_run (fun _ _ _ h hstep => Counted.step h hstep) counted_init hrun
  induction topics with
  | nil => rfl
  | cons t rest ih =>
    obtain ⟨c, hc, rfl, hstage⟩ := htopics t (List.mem_cons_self ..)
    have hpos := holders_pos hc hstage
    obtain ⟨subArg, harg⟩ : ∃ subArg, s.topicArgs.lookup c.topic = some subArg := by
      apply Option.ne_none_iff_exists'.mp
      intro hnone
      have := (hcounted.args c.topic).mp hnone
      omega
    have hrest := ih fun t ht => htopics t (List.mem_cons_of_mem _ ht)
    simp only [State.subPayload, List.filterMap_cons, harg, List.map_cons] at hrest ⊢
    rw [hrest]

end

end Hyperliquid

end Consumers
end ExchangeRouter
