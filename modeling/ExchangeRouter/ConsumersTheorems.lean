import ExchangeRouter.HyperliquidTopics

/-!
# What cancelled consumers leave behind

A consumer that is over holds a queue only when it was cancelled inside `subscribe` or at the
lock of `unsubscribe`. So in a run without such a step the tables are empty once all consumers
are over, and with `Mirrored` and `Covered` the sockets have the topics that consumers hold.
-/

namespace ExchangeRouter
namespace Consumers

open Transition

section

variable {κ τ : Type*} [DecidableEq τ] [DecidableEq κ]

/-! ## What the generators that are over hold -/

/-- No generator was cancelled with its queue in a table. -/
def Unstranded (s : State κ τ) : Prop :=
  ∀ (i : ℕ) (c : Consumer κ τ), s.consumers[i]? = some c → ∀ q, c.stage ≠ .cancelled (some q)

omit [DecidableEq τ] [DecidableEq κ] in
/-- A consumer that moves on without a queue left behind. -/
lemma Unstranded.setStage {s : State κ τ} (h : Unstranded s) {i : ℕ} {c : Consumer κ τ}
    (hc : s.consumers[i]? = some c) {stage : Stage} (hstage : ∀ q, stage ≠ .cancelled (some q)) :
    Unstranded (s.setStage i c stage) := by
  intro j d hd
  rw [get_setStage hc] at hd
  by_cases hj : j = i
  · rw [if_pos hj, Option.some.injEq] at hd
    rw [← hd]
    exact hstage
  · rw [if_neg hj] at hd
    exact h j d hd

/-- A step that strands no queue. -/
lemma Unstranded.step {P : κ → StreamHub.Payloads τ} {s s' : State κ τ} {e : Event κ τ}
    (h : Unstranded s) (hnot : s.strands e = false) (hstep : Consumers.step P s e = some s') :
    Unstranded s' := by
  have hhub : ∀ k hub, Unstranded (s.setHub k hub) := fun _ _ => h
  cases e with
  | start k topic =>
    obtain rfl := Option.some.inj hstep
    intro j d hd
    simp only [Dict.get_append] at hd
    by_cases hj : j = s.consumers.length
    · rw [if_pos hj, Option.some.injEq] at hd
      rw [← hd]
      exact fun q heq => by cases heq
    · rw [if_neg hj] at hd
      exact h j d hd
  | enter i =>
    obtain ⟨c, hc, -, rfl⟩ := step_enter hstep
    exact (hhub _ _).setStage hc fun q heq => by cases heq
  | hub k e =>
    obtain ⟨-, hub, -, rfl⟩ := step_hub hstep
    exact hhub k hub
  | leave i =>
    obtain ⟨c, q, hub, stage, hc, -, -, hafter, rfl⟩ := step_leave hstep
    refine (hhub _ _).setStage hc fun q heq => ?_
    rcases hafter with rfl | rfl <;> cases heq
  | left i j =>
    obtain ⟨c, hub, hc, -, -, rfl⟩ := step_left hstep
    exact (hhub _ _).setStage hc fun q heq => by cases heq
  | cancel i =>
    obtain ⟨c, stage, hc, hcancelled, rfl⟩ := step_cancel hstep
    refine h.setStage hc fun q heq => ?_
    simp [State.strands, hc, hcancelled, heq] at hnot
  | cancelSend i j =>
    obtain ⟨c, hc, -, -, rfl⟩ := step_cancelSend hstep
    exact (hhub _ _).setStage hc fun q heq => by cases heq

omit [DecidableEq τ] [DecidableEq κ] in
/-- The generators that hold a queue: one that subscribes or reads, one that leaves, and one that
was cancelled with it. -/
lemma stage_of_queue {c : Consumer κ τ} {q : ℕ} (hqueue : c.stage.queue = some q) :
    c.stage = .subscribed q ∨ c.stage = .leaving q ∨ c.stage = .cancelled (some q) := by
  unfold Stage.queue at hqueue
  split at hqueue
  · next q' hstage => exact Or.inl (Option.some.inj hqueue ▸ hstage)
  · next q' hstage => exact Or.inr (Or.inl (Option.some.inj hqueue ▸ hstage))
  · next left hstage => exact Or.inr (Or.inr (hqueue ▸ hstage))
  · cases hqueue

omit [DecidableEq τ] [DecidableEq κ] in
/-- A generator that holds a queue is over only if it was cancelled with it. -/
lemma live_of_queue {c : Consumer κ τ} {q : ℕ} (hqueue : c.stage.queue = some q)
    (hstage : c.stage ≠ .cancelled (some q)) : c.stage.isOver = false := by
  rcases stage_of_queue hqueue with h | h | h
  · rw [h]
    rfl
  · rw [h]
    rfl
  · exact absurd h hstage

omit [DecidableEq κ] in
/-- When all generators are over, the tables are empty if and only if none of them was
cancelled with its queue in a table. -/
theorem queues_eq_empty_iff {s : State κ τ} (hkept : HubsKept s) (h : Owned s) (hover : s.Over) :
    (∀ k, (s.hubs k).queues = ∅) ↔ Unstranded s := by
  constructor
  · intro hempty i c hc q hstage
    have hmem := (h.owners c.hub c.topic q).mpr ⟨i, c, hc, rfl, rfl, by rw [hstage]; rfl⟩
    rw [StreamHub.State.queuesOf, hempty c.hub] at hmem
    exact absurd hmem List.not_mem_nil
  · intro hunstranded k
    apply (hkept.held k).queues_eq_empty
    intro t
    apply List.eq_nil_iff_forall_not_mem.mpr
    intro q hq
    obtain ⟨i, c, hc, -, -, hqueue⟩ := (h.owners k t q).mp hq
    have hlive := live_of_queue hqueue (hunstranded i c hc q)
    rw [hover c (List.mem_of_getElem? hc)] at hlive
    exact Bool.noConfusion hlive

omit [DecidableEq κ] in
/-- A topic with a queue has a generator that is not over. -/
lemma Owned.exists_live {s : State κ τ} (h : Owned s) (hkept : HubsKept s)
    (hunstranded : Unstranded s) {k : κ} {t : τ} (ht : t ∈ (s.hubs k).queues) :
    ∃ c ∈ s.consumers, c.hub = k ∧ c.topic = t ∧ c.stage.isOver = false := by
  obtain ⟨q, hq⟩ : ∃ q, q ∈ (s.hubs k).queuesOf t := by
    apply List.exists_mem_of_ne_nil
    intro hnil
    obtain ⟨qs, hqs⟩ := Option.isSome_iff_exists.mp (AList.lookup_isSome.mpr ht)
    rw [StreamHub.State.queuesOf, hqs] at hnil
    have hnil : qs = [] := hnil
    exact (hkept.held k).nonempty t (hnil ▸ hqs)
  obtain ⟨i, c, hc, hhub, htopic, hqueue⟩ := (h.owners k t q).mp hq
  exact ⟨c, List.mem_of_getElem? hc, hhub, htopic, live_of_queue hqueue (hunstranded i c hc q)⟩

omit [DecidableEq κ] in
/-- The consumer of a call in flight is still in it. -/
lemma Owned.exists_caller {s : State κ τ} (h : Owned s) (hkept : HubsKept s)
    (hunstranded : Unstranded s) {k : κ} {q : ℕ} {call : StreamHub.Call τ}
    (hcall : (s.hubs k).calls[q]? = some call) (hflight : call.phase.inFlight = true) :
    ∃ d ∈ s.consumers, d.hub = k ∧ d.topic = call.topic ∧
      ∃ q', d.stage = .subscribed q' ∧ s.inFlight k q' = true := by
  have hflying : s.inFlight k q = true := by
    rw [State.inFlight, hcall]
    exact hflight
  have hq : q ∈ (s.hubs k).queuesOf call.topic :=
    ((hkept.held k).calls q call hcall).registered hflight
  obtain ⟨i, d, hd, hhub, htopic, hqueue⟩ := (h.owners k call.topic q).mp hq
  refine ⟨d, List.mem_of_getElem? hd, hhub, htopic, q, ?_, hflying⟩
  rcases stage_of_queue hqueue with hstage | hstage | hstage
  · exact hstage
  · -- one that leaves has read from its queue before
    have hdone := h.done i d q hd hstage
    rw [hhub, hflying] at hdone
    exact Bool.noConfusion hdone
  · exact absurd hstage (hunstranded i d hd q)

/-! ## Runs -/

/-- What a run that strands nothing keeps. -/
structure Kept (s : State κ τ) : Prop where
  hubs : HubsKept s
  sockets : SocketsKept s
  owned : Owned s
  unstranded : Unstranded s

omit [DecidableEq κ] in
lemma kept_init : Kept ({} : State κ τ) where
  hubs := ⟨fun _ => StreamHub.wired_init, fun _ => StreamHub.held_init⟩
  sockets := by
    have hdead : ∀ ws, ¬ StreamHub.State.Live ({} : StreamHub.State τ) ws := by
      intro ws hlive
      cases hlive.1
    exact ⟨fun _ ws hlive => absurd hlive (hdead ws), fun _ ws hlive => absurd hlive (hdead ws)⟩
  owned := by
    have hnone : ∀ i k t q, ¬ State.Holds ({} : State κ τ) i k t q := by
      rintro i k t q ⟨c, hc, -⟩
      cases hc
    refine ⟨?_, fun i j k t t' q hi => absurd hi (hnone i k t q),
      fun i k t q hi => absurd hi (hnone i k t q), fun i c q hc => by cases hc⟩
    intro k t q
    constructor
    · intro hq
      exact absurd hq List.not_mem_nil
    · rintro ⟨i, hi⟩
      exact absurd hi (hnone i k t q)
  unstranded := fun i c hc => by cases hc

/-- Every step that strands no queue. -/
lemma Kept.step {P : κ → StreamHub.Payloads τ} {s s' : State κ τ} {e : Event κ τ} (h : Kept s)
    (hnot : s.strands e = false) (hstep : Consumers.step P s e = some s') : Kept s' :=
  ⟨h.hubs.step hstep, h.sockets.step h.hubs hnot hstep, h.owned.step hstep,
    h.unstranded.step hnot hstep⟩

omit [DecidableEq κ] in
/-- What is kept is that nothing is left behind. -/
lemma Kept.leakFree {s : State κ τ} (h : Kept s) : s.LeakFree := by
  refine ⟨?_, ?_, ?_⟩
  · exact fun hover => (queues_eq_empty_iff h.hubs h.owned hover).mpr h.unstranded
  · intro k ws hlive t ht
    have hmem := (h.sockets.mirrored k ws hlive t).mpr (Or.inl ht)
    exact h.owned.exists_live h.hubs h.unstranded ((h.hubs.held k).subscribed t hmem)
  · intro c hc q hstage hreads ws hlive hconnected
    obtain ⟨i, hi⟩ := List.mem_iff_getElem?.mp hc
    have hq := (h.owned.owners c.hub c.topic q).mpr ⟨i, c, hi, rfl, rfl, by rw [hstage]; rfl⟩
    have ht : c.topic ∈ (s.hubs c.hub).queues := StreamHub.mem_queues_of_mem_getD hq
    rcases h.sockets.covered c.hub ws hlive c.topic ht with
      hmem | ⟨j, call, hopener, hcall, hphase⟩
    · left
      have hsent := (h.sockets.mirrored c.hub ws hlive c.topic).mp hmem
      rw [(h.hubs.wired c.hub).remaining_eq_nil hconnected] at hsent
      exact hsent.resolve_right List.not_mem_nil
    · right
      cases hcase : call.phase with
      | waiting woken =>
        left
        have hflight : call.phase.inFlight = true := by
          rw [hcase]
          rfl
        obtain ⟨d, hd, hhub, hsame, hin⟩ := h.owned.exists_caller h.hubs h.unstranded hcall hflight
        exact ⟨d, hd, hhub, hsame.trans (hopener.topic_eq hcall), hin⟩
      | timedOut => exact Or.inr ⟨j, call, hopener, hcall, hcase⟩
      | sending job =>
        rw [hcase] at hphase
        cases hphase
      | returned =>
        rw [hcase] at hphase
        cases hphase

end

/-! ## Hyperliquid's runs -/

namespace Hyperliquid

section

variable {τ α : Type*} [DecidableEq τ]

/-- No generator was cancelled outside its `try`. -/
def Uncancelled (s : State τ α) : Prop :=
  ∀ (i : ℕ) (c : Consumer ℕ τ), s.base.consumers[i]? = some c → ∀ left, c.stage ≠ .cancelled left

omit [DecidableEq τ] in
lemma uncancelled_set {consumers : List (Consumer ℕ τ)} {i : ℕ} {c : Consumer ℕ τ}
    (h : ∀ (j : ℕ) (d : Consumer ℕ τ), consumers[j]? = some d → ∀ left, d.stage ≠ .cancelled left)
    (hc : consumers[i]? = some c) {stage : Stage} (hstage : ∀ left, stage ≠ .cancelled left)
    (j : ℕ) (d : Consumer ℕ τ)
    (hd : (consumers.set i { c with stage := stage })[j]? = some d) (left : Option ℕ) :
    d.stage ≠ .cancelled left := by
  rw [Dict.get_set hc] at hd
  by_cases hj : j = i
  · rw [if_pos hj, Option.some.injEq] at hd
    rw [← hd]
    exact hstage left
  · rw [if_neg hj] at hd
    exact h j d hd left

lemma Uncancelled.inner {P : ℕ → StreamHub.Payloads τ} {s : State τ α} (h : Uncancelled s)
    {e : Consumers.Event ℕ τ} {base : Consumers.State ℕ τ}
    (hstart : ∀ k topic, e ≠ .start k topic) (hnot : s.strands (.inner e) = false)
    (hstep : Consumers.step P s.base e = some base) :
    Uncancelled { s with base := base } := by
  cases e with
  | start k topic => exact absurd rfl (hstart k topic)
  | enter i =>
    obtain ⟨c, hc, -, rfl⟩ := step_enter hstep
    exact uncancelled_set h hc fun left heq => by cases heq
  | hub k e =>
    obtain ⟨-, hub, -, rfl⟩ := step_hub hstep
    exact h
  | leave i =>
    obtain ⟨c, q, hub, stage, hc, -, -, hafter, rfl⟩ := step_leave hstep
    refine uncancelled_set h hc fun left heq => ?_
    rcases hafter with rfl | rfl <;> cases heq
  | left i j =>
    obtain ⟨c, hub, hc, -, -, rfl⟩ := step_left hstep
    exact uncancelled_set h hc fun left heq => by cases heq
  | cancel i =>
    obtain ⟨c, stage, hc, hcancelled, rfl⟩ := step_cancel hstep
    refine uncancelled_set h hc fun left heq => ?_
    simp [State.strands, hc, hcancelled, heq] at hnot
  | cancelSend i j => simp [State.strands] at hnot

/-- A step of Hyperliquid's that strands no queue. -/
lemma Uncancelled.step {s s' : State τ α} {e : Event τ α} (h : Uncancelled s)
    (hnot : s.strands e = false) (hstep : Hyperliquid.step s e = some s') : Uncancelled s' := by
  cases e with
  | acquire topic subArg =>
    intro j d hd
    rcases base_of_acquire hstep with hbase | ⟨k, hbase⟩
    · rw [hbase] at hd
      exact h j d hd
    · rw [hbase, Dict.get_append] at hd
      by_cases hj : j = s.base.consumers.length
      · rw [if_pos hj, Option.some.injEq] at hd
        rw [← hd]
        exact fun left heq => by cases heq
      · rw [if_neg hj] at hd
        exact h j d hd
  | inner e =>
    obtain ⟨hstart, base, hbase, rfl⟩ := step_inner hstep
    exact h.inner hstart hnot hbase
  | release i =>
    obtain ⟨c, hc, -, hbase⟩ := base_of_release hstep
    intro j d hd
    rw [hbase] at hd
    exact uncancelled_set h hc (fun left heq => by cases heq) j d hd
  | cancelRelease i => simp [State.strands] at hnot

/-- The steps that strand nothing in the tables strand nothing in the hubs. -/
lemma inner_strands {s : State τ α} {e : Consumers.Event ℕ τ}
    (hnot : s.strands (.inner e) = false) : s.base.strands e = false := by
  cases e with
  | cancel i =>
    cases hc : s.base.consumers[i]? with
    | none => simp only [Consumers.State.strands, hc]
    | some c =>
      cases hcancelled : s.base.cancelled c with
      | none => simp only [Consumers.State.strands, hc, hcancelled]
      | some stage =>
        simp only [State.strands, Consumers.State.strands, hc, hcancelled] at hnot ⊢
        cases stage <;> simp_all
  | cancelSend i j => rfl
  | _ => exact hnot

/-- A generator that `_release_topic` is through with holds no queue, as before. -/
lemma Kept.ended {s : Consumers.State ℕ τ} (h : Kept s) {i : ℕ} {c : Consumer ℕ τ}
    (hc : s.consumers[i]? = some c) (hstage : c.stage = .released) :
    Kept (s.setStage i c .ended) := by
  refine ⟨⟨h.hubs.wired, h.hubs.held⟩, ⟨h.sockets.mirrored, h.sockets.covered⟩, ?_, ?_⟩
  · apply h.owned.setStage hc
    · rw [hstage]
      rfl
    · intro q heq
      cases heq
  · exact h.unstranded.setStage hc fun q heq => by cases heq

/-- The generators and the tables in a run that strands nothing. -/
lemma kept_step {s s' : State τ α} {e : Event τ α} (h : Kept s.base)
    (hnot : s.strands e = false) (hstep : Hyperliquid.step s e = some s') : Kept s'.base := by
  cases e with
  | acquire topic subArg =>
    rcases base_of_acquire hstep with hbase | ⟨k, hbase⟩
    · rwa [hbase]
    · rw [hbase]
      exact h.step (P := fun _ => .perTopic τ) (e := .start k topic) rfl rfl
  | inner e =>
    obtain ⟨-, base, hbase, rfl⟩ := step_inner hstep
    exact h.step (inner_strands hnot) hbase
  | release i =>
    obtain ⟨c, hc, hstage, hbase⟩ := base_of_release hstep
    rw [hbase]
    exact Kept.ended h hc hstage
  | cancelRelease i => simp [State.strands] at hnot

/-- Once all generators are over, no table has anything left. -/
lemma Counted.tablesEmpty {s : State τ α} (h : Counted s) (huncancelled : Uncancelled s)
    (hover : s.Over) : s.TablesEmpty := by
  have hzero : ∀ t, holders s.base.consumers t = 0 := by
    intro t
    apply List.countP_eq_zero.mpr
    intro c hc hrefers
    obtain ⟨i, hi⟩ := List.mem_iff_getElem?.mp hc
    have hstage := (of_decide_eq_true hrefers).2
    rcases hover c hc with hended | ⟨left, hcancelled⟩
    · exact hstage hended
    · exact huncancelled i c hi left hcancelled
  have hhubs : s.topicHub = ∅ := Dict.eq_empty fun t => (h.hubs t).mpr (hzero t)
  refine ⟨?_, ?_, hhubs, ?_⟩
  · apply Dict.eq_empty
    intro t
    rw [h.refs, if_pos (hzero t)]
  · exact Dict.eq_empty fun t => (h.args t).mpr (hzero t)
  · intro topics hmem
    obtain ⟨k, hk⟩ := List.mem_iff_getElem?.mp hmem
    apply Finset.eq_empty_of_forall_notMem
    intro t ht
    have hin := h.slots k topics hk t ht
    rw [hhubs] at hin
    cases hin

end

end Hyperliquid

/-! ## Cancelled consumers -/

/-- In a run whose cancellations strand nothing, cancelled and closed consumers leave no queue,
no topic on a socket and no reader without a SUBSCRIBE behind, and nothing in Hyperliquid's
tables. -/
theorem cancelled_consumers_leak_nothing {κ τ α : Type*} [DecidableEq κ] [DecidableEq τ]
    (P : κ → StreamHub.Payloads τ) :
    (∀ (es : List (Event κ τ)) (s : State κ τ), run (step P) {} es = some s →
      Meets (step P) (fun s e => s.strands e = false) {} es → s.LeakFree) ∧
    (∀ (es : List (Hyperliquid.Event τ α)) (s : Hyperliquid.State τ α),
      run Hyperliquid.step {} es = some s →
        Meets Hyperliquid.step (fun s e => s.strands e = false) {} es →
          s.base.LeakFree ∧ (s.Over → s.TablesEmpty)) := by
  constructor
  · intro es s hrun hmeets
    exact (invariant_of_meets (fun _ _ _ h hnot hstep => Kept.step h hnot hstep) kept_init
      hmeets hrun).leakFree
  · intro es s hrun hmeets
    have hpres : ∀ (s : Hyperliquid.State τ α) e s',
        Kept s.base ∧ Hyperliquid.Counted s ∧ Hyperliquid.Uncancelled s →
        s.strands e = false → Hyperliquid.step s e = some s' →
        Kept s'.base ∧ Hyperliquid.Counted s' ∧ Hyperliquid.Uncancelled s' := by
      rintro s e s' ⟨hkept, hcounted, huncancelled⟩ hnot hstep
      exact ⟨Hyperliquid.kept_step hkept hnot hstep, hcounted.step hstep,
        huncancelled.step hnot hstep⟩
    have hinit : Kept ({} : Hyperliquid.State τ α).base ∧
        Hyperliquid.Counted ({} : Hyperliquid.State τ α) ∧
        Hyperliquid.Uncancelled ({} : Hyperliquid.State τ α) :=
      ⟨kept_init, Hyperliquid.counted_init, fun i c hc => by cases hc⟩
    obtain ⟨hkept, hcounted, huncancelled⟩ := invariant_of_meets hpres hinit hmeets hrun
    exact ⟨hkept.leakFree, hcounted.tablesEmpty huncancelled⟩

/-- A consumer that reads is cancelled on a connected hub, and goes through its `finally`. -/
def closedRun : List (Event Unit String) :=
  [.start () "a", .enter 0, .hub () (.connect 0), .hub () (.resubscribed 0), .hub () (.proceed 0),
    .cancel 0, .leave 0, .left 0 0]

/-- The same on Hyperliquid. -/
def closedHyperliquidRun : List (Hyperliquid.Event String String) :=
  [.acquire "a" "trades", .inner (.enter 0), .inner (.hub 0 (.connect 0)),
    .inner (.hub 0 (.resubscribed 0)), .inner (.hub 0 (.proceed 0)), .inner (.cancel 0),
    .inner (.leave 0), .inner (.left 0 0), .release 0]

/-- Runs of both kinds that end with empty tables. -/
theorem cancelled_consumers_leak_nothing_closed :
    (∃ s, run (step fun _ => .batched String) {} closedRun = some s ∧ s.Over ∧
      ∀ k, (s.hubs k).queues = ∅) ∧
    ∃ s, run Hyperliquid.step {} closedHyperliquidRun = some s ∧ s.Over ∧ s.TablesEmpty := by
  have hleak := @cancelled_consumers_leak_nothing Unit String String _ _ fun _ => .batched String
  constructor
  · have hover : ∀ s, run (step fun _ => .batched String) {} closedRun = some s → s.Over := by
      intro s hs
      obtain rfl := Option.some.inj hs
      unfold State.Over
      decide
    exact ⟨_, rfl, hover _ rfl, (hleak.1 closedRun _ rfl (by decide)).queues (hover _ rfl)⟩
  · have hover : ∀ s, run Hyperliquid.step {} closedHyperliquidRun = some s → s.Over := by
      intro s hs c hc
      obtain rfl := Option.some.inj hs
      obtain rfl := List.mem_singleton.mp hc
      exact Or.inl rfl
    exact ⟨_, rfl, hover _ rfl, (hleak.2 closedHyperliquidRun _ rfl (by decide)).2 (hover _ rfl)⟩

/-- A consumer is cancelled while `subscribe` waits for the connection. Its queue stays, and the hub
subscribes its topic when it connects. On Hyperliquid the topic keeps its reference. -/
theorem cancelled_in_subscribe :
    (∃ s, run (step fun _ => .batched String) {}
        [.start () "a", .enter 0, .cancel 0, .hub () (.connect 0), .hub () (.resubscribed 0)] =
          some s ∧ s.Over ∧ (s.hubs ()).queuesOf "a" = [0] ∧ (s.hubs ()).Live 0 ∧
      "a" ∈ StreamHub.upstream (s.hubs ()).wire 0) ∧
    ∃ s, run Hyperliquid.step {}
        [.acquire "a" "trades", .inner (.enter 0), .inner (.cancel 0)] = some s ∧ s.Over ∧
      s.topicRefs.lookup "a" = some 1 ∧ s.topicArgs.lookup "a" = some "trades" := by
  refine ⟨⟨_, rfl, ?_, rfl, ⟨rfl, rfl⟩, by decide⟩, ⟨_, rfl, ?_, rfl, rfl⟩⟩
  · unfold State.Over
    decide
  · intro c hc
    obtain rfl := List.mem_singleton.mp hc
    exact Or.inr ⟨_, rfl⟩

end Consumers
end ExchangeRouter
