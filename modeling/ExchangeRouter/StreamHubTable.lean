import ExchangeRouter.Lib.Dict
import ExchangeRouter.StreamHubInvariant

/-!
# The table of a hub

Only `subscribe` and `unsubscribe` write the table: the one puts a new queue at the end of its
topic's list, the other takes queues out. So a topic has each of its queues once, and no queue
is that of two topics (`Registered`).
-/

namespace ExchangeRouter
namespace StreamHub

variable {τ : Type*}

/-! ## Steps that leave the table alone -/

/-- The tables are the same, the calls are of the same topics, and no call is back in flight. -/
structure KeepsTable (h h' : State τ) : Prop where
  queues : h'.queues = h.queues
  topics : h'.calls.map Call.topic = h.calls.map Call.topic
  flight : ∀ (q : ℕ) (call' : Call τ), h'.calls[q]? = some call' → call'.phase.inFlight = true →
    ∃ call, h.calls[q]? = some call ∧ call.phase.inFlight = true

/-- A step that changes no call keeps the table with the queues. -/
lemma KeepsTable.of_eq {h h' : State τ} (hqueues : h'.queues = h.queues)
    (hcalls : h'.calls = h.calls) : KeepsTable h h' := by
  refine ⟨hqueues, by rw [hcalls], ?_⟩
  intro q call' hcall hflight
  rw [hcalls] at hcall
  exact ⟨call', hcall, hflight⟩

lemma keepsTable_setPhase {h h₀ : State τ} {i : ℕ} {call : Call τ} {phase : Phase τ}
    (hqueues : h₀.queues = h.queues) (hcalls : h₀.calls = h.calls)
    (hcall : h.calls[i]? = some call)
    (hflight : phase.inFlight = true → call.phase.inFlight = true) :
    KeepsTable h (h₀.setPhase i call phase) := by
  have hset : ∀ j, (h₀.setPhase i call phase).calls[j]? =
      if j = i then some { call with phase := phase } else h.calls[j]? := by
    intro j
    rw [State.setPhase, hcalls]
    exact Dict.get_set hcall _ j
  refine ⟨hqueues, ?_, ?_⟩
  · apply List.ext_getElem?
    intro j
    rw [List.getElem?_map, List.getElem?_map, hset]
    by_cases hj : j = i
    · rw [if_pos hj, hj, hcall]
      rfl
    · rw [if_neg hj]
  · intro j call' hcall' hphase
    rw [hset] at hcall'
    by_cases hj : j = i
    · rw [if_pos hj, Option.some.injEq] at hcall'
      rw [← hcall'] at hphase
      exact ⟨call, hj ▸ hcall, hflight hphase⟩
    · rw [if_neg hj] at hcall'
      exact ⟨call', hcall', hphase⟩

lemma keepsTable_afterResubscribe {h h₀ : State τ} (hqueues : h₀.queues = h.queues)
    (hcalls : h₀.calls = h.calls) (k ws : ℕ) (out : Option (Sending τ)) :
    KeepsTable h (h₀.afterResubscribe k ws out) := by
  cases out with
  | some job => exact .of_eq hqueues hcalls
  | none =>
    refine ⟨hqueues, ?_, ?_⟩
    · show (h₀.calls.map Call.wake).map Call.topic = _
      rw [List.map_map, hcalls]
      apply List.map_congr_left
      intro call _
      exact (wake_eq call).1
    · intro q call' hcall' hflight
      have hwoken : (h₀.calls.map Call.wake)[q]? = some call' := hcall'
      rw [List.getElem?_map, hcalls, Option.map_eq_some_iff] at hwoken
      obtain ⟨call, hcall, rfl⟩ := hwoken
      rw [inFlight_wake] at hflight
      exact ⟨call, hcall, hflight⟩

variable [DecidableEq τ] {P : Payloads τ}

/-- A stretch of `_run`, of a call past its registration, or of a send. -/
def Event.isOwn : Event τ → Bool
  | .subscribe _ => false
  | .unsubscribe _ _ => false
  | _ => true

/-- A step of the hub's own leaves the table alone. -/
lemma keepsTable_of_step {h h' : State τ} {e : Event τ} (hown : e.isOwn = true)
    (hstep : StreamHub.step P h e = some h') : KeepsTable h h' := by
  cases e with
  | subscribe topic => simp [Event.isOwn] at hown
  | unsubscribe topic q => simp [Event.isOwn] at hown
  | proceed i =>
    obtain ⟨call, hcall, hphase, rfl⟩ := step_proceed hstep
    have hflight : call.phase.inFlight = true := by
      rw [hphase]
      rfl
    unfold State.proceed
    split
    · exact keepsTable_setPhase rfl rfl hcall fun _ => hflight
    · exact keepsTable_setPhase rfl rfl hcall fun _ => hflight
  | timeout i =>
    obtain ⟨call, hcall, -, rfl⟩ := step_timeout hstep
    exact keepsTable_setPhase rfl rfl hcall fun hflight => by simp [Phase.inFlight] at hflight
  | sent i =>
    obtain ⟨call, job, hcall, hphase, rfl⟩ := step_sent hstep
    refine keepsTable_setPhase ?_ ?_ hcall fun _ => ?_
    · rfl
    · rfl
    · rw [hphase]
      rfl
  | unsubscribeSent j =>
    obtain ⟨job, -, rfl⟩ := step_unsubscribeSent hstep
    exact .of_eq rfl rfl
  | connect k =>
    obtain ⟨-, rfl⟩ := step_connect hstep
    apply keepsTable_afterResubscribe
    · rfl
    · rfl
  | connectFails k =>
    obtain ⟨-, rfl⟩ := step_connectFails hstep
    exact .of_eq rfl rfl
  | resubscribed k =>
    obtain ⟨job, -, rfl⟩ := step_resubscribed hstep
    apply keepsTable_afterResubscribe
    · rfl
    · rfl
  | disconnected k =>
    obtain ⟨ws, -, rfl⟩ := step_disconnected hstep
    exact .of_eq rfl rfl
  | retry k =>
    obtain ⟨-, rfl⟩ := step_retry hstep
    exact .of_eq rfl rfl
  | drop ws =>
    obtain rfl := Option.some.inj hstep
    exact .of_eq rfl rfl

/-! ## The two steps that change it -/

/-- A call puts its queue last under its topic. -/
lemma queuesOf_subscribe (h : State τ) (topic t : τ) :
    (h.subscribe topic).queuesOf t =
      if t = topic then h.queuesOf topic ++ [h.calls.length] else h.queuesOf t := by
  show ((h.queues.insert topic _).lookup t).getD [] = _
  rw [Dict.lookup_insert]
  by_cases ht : t = topic
  · rw [if_pos ht, if_pos ht]
    rfl
  · rw [if_neg ht, if_neg ht]
    rfl

lemma topics_subscribe (h : State τ) (topic : τ) :
    (h.subscribe topic).calls.map Call.topic = h.calls.map Call.topic ++ [topic] := by
  simp [State.subscribe]

/-- A queue leaves its topic and no other. -/
lemma queuesOf_unsubscribe (h : State τ) (topic t : τ) (q : ℕ) :
    (h.unsubscribe P topic q).queuesOf t =
      if t = topic then h.others topic q else h.queuesOf t := by
  unfold State.unsubscribe
  split
  · show ((h.queues.insert topic _).lookup t).getD [] = _
    rw [Dict.lookup_insert]
    by_cases ht : t = topic
    · rw [if_pos ht, if_pos ht]
      rfl
    · rw [if_neg ht, if_neg ht]
      rfl
  · next hnone =>
    rw [not_not] at hnone
    show ((h.queues.erase topic).lookup t).getD [] = _
    rw [Dict.lookup_erase]
    by_cases ht : t = topic
    · rw [if_pos ht, if_pos ht, hnone]
      rfl
    · rw [if_neg ht, if_neg ht]
      rfl

lemma calls_unsubscribe (h : State τ) (topic : τ) (q : ℕ) :
    (h.unsubscribe P topic q).calls = h.calls := by
  unfold State.unsubscribe
  split <;> rfl

/-- No queue of any topic is no table at all. -/
lemma Held.queues_eq_empty {h : State τ} (hheld : Held h) (hnone : ∀ t, h.queuesOf t = []) :
    h.queues = ∅ := by
  apply Dict.eq_empty
  intro t
  cases hlookup : h.queues.lookup t with
  | none => rfl
  | some qs =>
    have hempty : qs = [] := by
      have := hnone t
      rwa [State.queuesOf, hlookup] at this
    exact absurd (hempty ▸ hlookup) (hheld.nonempty t)

/-! ## The queues of a topic -/

/-- A topic has each of its queues once, and each was made by a call for that topic. -/
structure Registered (s : State τ) : Prop where
  nodup : ∀ t, (s.queuesOf t).Nodup
  made : ∀ t, ∀ q ∈ s.queuesOf t, (s.calls.map Call.topic)[q]? = some t

/-- A step makes a queue for a call of `subscribe`, or makes none. -/
lemma step_queues {s s' : State τ} {e : Event τ} (hstep : StreamHub.step P s e = some s') :
    (∃ topic, e = .subscribe topic ∧ s' = s.subscribe topic) ∨
      ((∀ topic, e ≠ .subscribe topic) ∧ s'.calls.map Call.topic = s.calls.map Call.topic ∧
        ∀ t, (s'.queuesOf t).Sublist (s.queuesOf t)) := by
  -- any other stretch than those two leaves the table as it is
  by_cases hown : e.isOwn = true
  · obtain ⟨hqueues, htopics, -⟩ := keepsTable_of_step hown hstep
    refine .inr ⟨fun topic he => ?_, htopics, fun t => ?_⟩
    · rw [he] at hown
      exact Bool.noConfusion hown
    · rw [State.queuesOf, hqueues]
      exact List.Sublist.refl _
  · cases e with
    | subscribe topic => exact .inl ⟨topic, rfl, (Option.some.inj hstep).symm⟩
    | unsubscribe topic q =>
      obtain ⟨holder, -, -, rfl⟩ := step_unsubscribe hstep
      refine .inr ⟨by simp, by rw [calls_unsubscribe], fun t => ?_⟩
      rw [queuesOf_unsubscribe]
      split
      · next ht =>
        rw [ht]
        exact List.filter_sublist
      · exact List.Sublist.refl _
    | _ => exact absurd rfl hown

/-- A queue of a topic was made by one of the calls so far. -/
lemma Registered.lt_length {s : State τ} (h : Registered s) {t : τ} {q : ℕ}
    (hq : q ∈ s.queuesOf t) : q < s.calls.length := by
  have hlt := (List.getElem?_eq_some_iff.mp (h.made t q hq)).1
  rwa [List.length_map] at hlt

/-- Queues may leave the table, while the calls stay calls for their topics. -/
lemma Registered.of_table {s s' : State τ} (h : Registered s)
    (htopics : s'.calls.map Call.topic = s.calls.map Call.topic)
    (hqueues : ∀ t, (s'.queuesOf t).Sublist (s.queuesOf t)) : Registered s' := by
  refine ⟨fun t => (h.nodup t).sublist (hqueues t), fun t q hq => ?_⟩
  rw [htopics]
  exact h.made t q ((hqueues t).subset hq)

lemma Registered.subscribe {s : State τ} (h : Registered s) (topic : τ) :
    Registered (s.subscribe topic) := by
  refine ⟨fun t => ?_, fun t q hq => ?_⟩
  · rw [queuesOf_subscribe]
    split
    · -- the number of the call is that of no queue so far
      refine List.nodup_append.mpr ⟨h.nodup topic, List.nodup_singleton _, ?_⟩
      intro q hq q' hq' heq
      have hlt := h.lt_length hq
      rw [heq, List.mem_singleton.mp hq'] at hlt
      exact absurd hlt (lt_irrefl _)
    · exact h.nodup t
  · rw [topics_subscribe]
    have hold : q ∈ s.queuesOf t → (s.calls.map Call.topic ++ [topic])[q]? = some t := by
      intro hmem
      rw [List.getElem?_append_left (by rw [List.length_map]; exact h.lt_length hmem)]
      exact h.made t q hmem
    rw [queuesOf_subscribe] at hq
    split at hq
    · next ht =>
      subst ht
      rcases List.mem_append.mp hq with hmem | hnew
      · exact hold hmem
      · rw [List.mem_singleton.mp hnew, ← List.length_map Call.topic,
          List.getElem?_concat_length]
    · exact hold hq

lemma registered_init : Registered ({} : State τ) := by
  refine ⟨fun t => ?_, fun t q hq => ?_⟩
  · show (([] : List ℕ)).Nodup
    exact List.nodup_nil
  · exact absurd (show q ∈ ([] : List ℕ) from hq) List.not_mem_nil

/-- Every step keeps each queue under the topic of its call. -/
lemma Registered.step {s s' : State τ} {e : Event τ} (h : Registered s)
    (hstep : StreamHub.step P s e = some s') : Registered s' := by
  rcases step_queues hstep with ⟨topic, -, rfl⟩ | ⟨-, htopics, hqueues⟩
  · exact h.subscribe topic
  · exact h.of_table htopics hqueues

/-! ## The call that opened a topic -/

lemma State.Opener.topic_eq {s : State τ} {t : τ} {i : ℕ} {call : Call τ} (h : s.Opener t i)
    (hcall : s.calls[i]? = some call) : call.topic = t := by
  have hopened := h.1
  rw [List.getElem?_map, hcall, Option.map_some, Option.some.injEq] at hopened
  exact congrArg Prod.fst hopened

/-- No call has opened a topic since, and queues only left the table. -/
lemma State.Opener.of_table {s s' : State τ} {t : τ} {i : ℕ} (h : s.Opener t i)
    (hcalls : s'.calls.map Call.opening = s.calls.map Call.opening)
    (hqueues : s'.queuesOf t ⊆ s.queuesOf t) : s'.Opener t i := by
  refine ⟨?_, ?_, fun q hq => h.2.2 q (hqueues hq)⟩
  · rw [hcalls]
    exact h.1
  · rw [hcalls]
    exact h.2.1

/-- A call that finds no queue opens the topic. -/
lemma opener_subscribe_self {s : State τ} {topic : τ} (hnone : s.queues.lookup topic = none) :
    (s.subscribe topic).Opener topic s.calls.length := by
  refine ⟨?_, fun j hj => ?_, fun q hq => ?_⟩
  · simp [State.subscribe, Call.opening, hnone]
  · rw [List.getElem?_eq_none]
    · simp
    · simp only [State.subscribe, List.length_map, List.length_append, List.length_singleton]
      omega
  · rw [queuesOf_subscribe, if_pos rfl, State.queuesOf, hnone] at hq
    exact (List.mem_singleton.mp hq).ge

/-- A topic with a queue is not opened again. -/
lemma State.Opener.subscribe {s : State τ} {t : τ} {i : ℕ} (h : s.Opener t i) (ht : t ∈ s.queues)
    (topic : τ) : (s.subscribe topic).Opener t i := by
  have hlt : i < (s.calls.map Call.opening).length := (List.getElem?_eq_some_iff.mp h.1).1
  have hcalls : ∃ new : Call τ, (s.subscribe topic).calls = s.calls ++ [new] ∧
      new.opening ≠ (t, true) := by
    refine ⟨_, rfl, fun heq => ?_⟩
    obtain ⟨rfl, hnew⟩ := Prod.mk.inj heq
    rw [AList.lookup_isSome.mpr ht] at hnew
    exact Bool.noConfusion hnew
  obtain ⟨new, hcalls, hnot⟩ := hcalls
  refine ⟨?_, fun j hj => ?_, fun q hq => ?_⟩
  · rw [hcalls, List.map_append, List.getElem?_append_left hlt]
    exact h.1
  · rw [hcalls, List.map_append]
    rcases lt_or_ge j (s.calls.map Call.opening).length with hold | hnew
    · rw [List.getElem?_append_left hold]
      exact h.2.1 j hj
    · rw [List.getElem?_append_right hnew, List.map_singleton]
      intro heq
      exact hnot (List.mem_singleton.mp (List.mem_of_getElem? heq)).symm
  · rw [queuesOf_subscribe] at hq
    split at hq
    · next htopic =>
      rcases List.mem_append.mp hq with hold | hnew
      · exact h.2.2 q (htopic ▸ hold)
      · rw [List.mem_singleton.mp hnew, ← List.length_map Call.opening]
        exact hlt.le
    · exact h.2.2 q hq

omit [DecidableEq τ] in
/-- A call that moves on has opened what it had. -/
lemma openings_setPhase {s : State τ} {i : ℕ} {call : Call τ} (phase : Phase τ)
    (hcall : s.calls[i]? = some call) :
    (s.setPhase i call phase).calls.map Call.opening = s.calls.map Call.opening := by
  apply List.ext_getElem?
  intro j
  rw [State.setPhase, List.map_set]
  by_cases hij : i = j
  · subst hij
    rw [List.getElem?_set_self (by simpa using (List.getElem?_eq_some_iff.mp hcall).1),
      List.getElem?_map, hcall]
    rfl
  · rw [List.getElem?_set_ne hij]

omit [DecidableEq τ] in
lemma openings_wake (calls : List (Call τ)) :
    (calls.map Call.wake).map Call.opening = calls.map Call.opening := by
  rw [List.map_map]
  apply List.map_congr_left
  intro call _
  obtain ⟨htopic, hnew, -⟩ := wake_eq call
  exact Prod.ext htopic hnew

/-- The opener of a topic in one of the phases `W` is still in one of them after a call moved on,
or is the call. -/
lemma exists_opener_setPhase {s : State τ} {W : Phase τ → Bool} {i : ℕ} {call : Call τ}
    (phase : Phase τ) {t : τ} (hcall : s.calls[i]? = some call)
    (h : ∃ j other, s.Opener t j ∧ s.calls[j]? = some other ∧ W other.phase = true) :
    (t = call.topic ∧ s.Opener t i ∧ W call.phase = true) ∨
      ∃ j other, (s.setPhase i call phase).Opener t j ∧
        (s.setPhase i call phase).calls[j]? = some other ∧ W other.phase = true := by
  obtain ⟨j, other, hopener, hj, hother⟩ := h
  by_cases hij : i = j
  · subst hij
    obtain rfl := Option.some.inj (hcall.symm.trans hj)
    exact Or.inl ⟨(hopener.topic_eq hcall).symm, hopener, hother⟩
  · refine Or.inr ⟨j, other, hopener.of_table (openings_setPhase phase hcall) (fun _ => id), ?_,
      hother⟩
    rw [State.setPhase, List.getElem?_set_ne hij]
    exact hj

end StreamHub
end ExchangeRouter
