import ExchangeRouter.StreamManagerTheorems

/-!
# What a step of the `StreamManager` changes

A stretch of a handler writes that handler only; one that no longer runs only ends
(`stopped_own`). Whoever is sent to or closed is attached to a handler that runs (`Reach`), and
only a `subscribe` attaches anybody (`attached_of_step`).
-/

namespace ExchangeRouter
namespace StreamManager

variable {κ ι : Type*} [DecidableEq κ] {m m' s s' : State κ ι} {e : Event κ ι} {i : ℕ}
  {hd : Handler κ}

/-! ## Handlers -/

lemma exit_handlers (m : State κ ι) (i : ℕ) (hd : Handler κ) :
    ∃ hd', (m.exit i hd).handlers = m.handlers.set i hd' := by
  unfold State.exit
  split
  · exact ⟨_, rfl⟩
  · exact ⟨_, rfl⟩

lemma exit_clients (m : State κ ι) (i : ℕ) (hd : Handler κ) :
    (m.exit i hd).clients = m.clients := by
  unfold State.exit
  split <;> rfl

lemma sent_handlers (m : State κ ι) (i : ℕ) (hd : Handler κ)
    (clientItems failed : List ℕ) :
    (∃ hd', (m.sent i hd clientItems failed).handlers = m.handlers.set i hd') ∧
      (m.sent i hd clientItems failed).clients = m.clients := by
  unfold State.sent
  dsimp only
  split
  · exact ⟨⟨_, rfl⟩, rfl⟩
  · unfold State.dropDead
    split
    · exact ⟨⟨_, rfl⟩, rfl⟩
    · dsimp only
      split
      · rw [if_pos rfl]
        exact ⟨exit_handlers _ _ _, exit_clients _ _ _⟩
      · exact ⟨⟨_, rfl⟩, rfl⟩

/-- A stretch of a handler writes that handler only, and makes no client. -/
lemma own_of_step (hhandler : e.handler? = some i) (hstep : step m e = some m') :
    (∃ hd, m.handlers[i]? = some hd) ∧ (∃ hd', m'.handlers = m.handlers.set i hd') ∧
      m'.clients = m.clients := by
  cases e with
  | subscribe key channel => cases hhandler
  | unsubscribe key clientId => cases hhandler
  | start j =>
    obtain rfl := Option.some.inj hhandler
    obtain ⟨hd, hi, -, rfl⟩ := step_start hstep
    refine ⟨⟨hd, hi⟩, ?_⟩
    unfold State.start
    split
    · exact ⟨⟨_, rfl⟩, rfl⟩
    · exact ⟨exit_handlers m _ hd, exit_clients m _ hd⟩
  | item j x =>
    obtain rfl := Option.some.inj hhandler
    obtain ⟨hd, hi, -, rfl⟩ := step_item hstep
    refine ⟨⟨hd, hi⟩, ?_⟩
    unfold State.item
    dsimp only
    split
    · exact ⟨exit_handlers m _ hd, exit_clients m _ hd⟩
    · exact ⟨⟨_, rfl⟩, rfl⟩
  | upstreamEnds j =>
    obtain rfl := Option.some.inj hhandler
    obtain ⟨hd, hi, -, rfl⟩ := step_upstreamEnds hstep
    exact ⟨⟨hd, hi⟩, exit_handlers m _ hd, exit_clients m _ hd⟩
  | sent j failed =>
    obtain rfl := Option.some.inj hhandler
    obtain ⟨hd, clientItems, hi, -, -, rfl⟩ := step_sent hstep
    exact ⟨⟨hd, hi⟩, sent_handlers m _ hd clientItems failed⟩
  | cancelled j =>
    obtain rfl := Option.some.inj hhandler
    obtain ⟨hd, hi, -, rfl⟩ := step_cancelled hstep
    refine ⟨⟨hd, hi⟩, ?_⟩
    unfold State.cancelled
    split
    · exact ⟨⟨_, rfl⟩, rfl⟩
    · exact ⟨exit_handlers m _ hd, exit_clients m _ hd⟩
  | closed j =>
    obtain rfl := Option.some.inj hhandler
    obtain ⟨hd, hi, -, rfl⟩ := step_closed hstep
    exact ⟨⟨hd, hi⟩, ⟨_, rfl⟩, rfl⟩

omit [DecidableEq κ] in
/-- `task.cancel()` changes that handler's flag and nothing else. -/
lemma cancel_eq (m : State κ ι) (i : ℕ) :
    (m.cancel (some i)).activeStreams = m.activeStreams ∧
    (m.cancel (some i)).upstreamTasks = m.upstreamTasks ∧
    (m.cancel (some i)).clients = m.clients ∧ (m.cancel (some i)).sends = m.sends ∧
    (m.cancel (some i)).closes = m.closes ∧
    ∀ j, (m.cancel (some i)).handlers[j]? = (m.handlers[j]?).map fun hd =>
      if j = i then { hd with cancelled := true } else hd := by
  simp only [State.cancel]
  cases hi : m.handlers[i]? with
  | none =>
    refine ⟨rfl, rfl, rfl, rfl, rfl, fun j => ?_⟩
    by_cases hj : j = i
    · rw [hj, hi]
      rfl
    · simp only [if_neg hj]
      exact Option.map_id'.symm
  | some hd =>
    refine ⟨rfl, rfl, rfl, rfl, rfl, fun j => ?_⟩
    simp only [State.setHandler, Dict.get_set hi]
    by_cases hj : j = i
    · rw [hj, if_pos rfl, hi]
      simp
    · simp only [if_neg hj]
      exact Option.map_id'.symm

/-- A stretch that is not its own leaves a handler as it is, or cancels it. -/
lemma others_of_step (hstep : step m e = some m')
    (hi : m.handlers[i]? = some hd) (hother : e.handler? ≠ some i) :
    m'.handlers[i]? = some hd ∨ m'.handlers[i]? = some { hd with cancelled := true } := by
  cases hhandler : e.handler? with
  | some j =>
    have hne : j ≠ i := fun heq => hother (by rw [hhandler, heq])
    obtain ⟨-, ⟨hd', hset⟩, -⟩ := own_of_step hhandler hstep
    left
    rw [hset, List.getElem?_set_ne hne, hi]
  | none =>
    cases e with
    | subscribe key channel =>
      rw [← Option.some.inj hstep]
      left
      unfold State.subscribe
      split
      · dsimp only
        rw [List.getElem?_append_left (List.getElem?_eq_some_iff.mp hi).1, hi]
      · exact hi
    | unsubscribe key clientId =>
      rw [← Option.some.inj hstep]
      unfold State.unsubscribe
      split
      · exact .inl hi
      · dsimp only
        split
        · cases htask : m.upstreamTasks.lookup key with
          | none => exact .inl hi
          | some j =>
            have hcancel := (cancel_eq (m.drop key) j).2.2.2.2.2 i
            rw [show (m.drop key).handlers[i]? = some hd from hi, Option.map_some] at hcancel
            rw [hcancel]
            split
            · exact .inr rfl
            · exact .inl rfl
        · exact .inl hi
    | _ => cases hhandler

/-- A handler that does not run can only end. -/
lemma stopped_own (h : Managed m) (hi : m.handlers[i]? = some hd) (hstop : ¬ hd.Running)
    (hhandler : e.handler? = some i) (hstep : step m e = some m') :
    m' = m.setHandler i { hd with phase := .done } := by
  have hstale : m.upstreamTasks.lookup hd.key ≠ some i := by
    intro htask
    obtain ⟨hd', hi', -, hrun⟩ := h.registered hd.key i htask
    rw [hi, Option.some.injEq] at hi'
    exact hstop (hi' ▸ hrun)
  cases e with
  | subscribe key channel => cases hhandler
  | unsubscribe key clientId => cases hhandler
  | start j =>
    obtain rfl := Option.some.inj hhandler
    obtain ⟨hd', hi', ⟨hphase, hcancelled⟩, -⟩ := step_start hstep
    obtain rfl := Option.some.inj (hi.symm.trans hi')
    exact absurd (show hd.Running from ⟨hcancelled, by rw [hphase]; rfl⟩) hstop
  | item j x =>
    obtain rfl := Option.some.inj hhandler
    obtain ⟨hd', hi', hrun, -⟩ := step_item hstep
    exact absurd (Option.some.inj (hi.symm.trans hi') ▸ hrun) hstop
  | upstreamEnds j =>
    obtain rfl := Option.some.inj hhandler
    obtain ⟨hd', hi', hrun, -⟩ := step_upstreamEnds hstep
    exact absurd (Option.some.inj (hi.symm.trans hi') ▸ hrun) hstop
  | sent j failed =>
    obtain rfl := Option.some.inj hhandler
    obtain ⟨hd', clientItems, hi', -, hrun, -⟩ := step_sent hstep
    exact absurd (Option.some.inj (hi.symm.trans hi') ▸ hrun) hstop
  | cancelled j =>
    obtain rfl := Option.some.inj hhandler
    obtain ⟨hd', hi', -, rfl⟩ := step_cancelled hstep
    obtain rfl := Option.some.inj (hi.symm.trans hi')
    unfold State.cancelled
    split
    · rfl
    · exact State.exit_of_stale hstale
  | closed j =>
    obtain rfl := Option.some.inj hhandler
    obtain ⟨hd', hi', -, rfl⟩ := step_closed hstep
    obtain rfl := Option.some.inj (hi.symm.trans hi')
    rfl

/-- So it never runs again. -/
lemma stopped_of_step (h : Managed m) (hi : m.handlers[i]? = some hd) (hstop : ¬ hd.Running)
    (hstep : step m e = some m') :
    ∃ hd', m'.handlers[i]? = some hd' ∧ ¬ hd'.Running := by
  by_cases hhandler : e.handler? = some i
  · rw [stopped_own h hi hstop hhandler hstep]
    refine ⟨{ hd with phase := .done }, ?_, fun hrun => ?_⟩
    · simp only [State.setHandler, Dict.get_set hi, if_pos]
    · exact absurd hrun.2 (by simp [Phase.beforeExit])
  · rcases others_of_step hstep hi hhandler with hsame | hcancelled
    · exact ⟨hd, hsame, hstop⟩
    · exact ⟨_, hcancelled, fun hrun => absurd hrun.1 (by simp)⟩

/-! ## Whom a step reaches -/

/-- A client's task is one of those made so far. -/
def Known (m : State κ ι) : Prop :=
  ∀ (c : ℕ) (client : Client κ) (i : ℕ), m.clients[c]? = some client → client.task = some i →
    i < m.handlers.length

/-- The client is attached to a handler that runs. -/
def Served (m : State κ ι) (c : ℕ) : Prop :=
  ∃ (client : Client κ) (i : ℕ) (hd : Handler κ), m.clients[c]? = some client ∧
    client.task = some i ∧ m.handlers[i]? = some hd ∧ hd.Running

/-- A client in a bucket is served. -/
lemma served_of_attached (h : Managed m) {key : κ} {c : ℕ} (hc : c ∈ m.attached key) :
    Served m c := by
  have hclient := h.client hc
  cases htask : m.upstreamTasks.lookup key with
  | none =>
    rw [State.attached, (h.keys key).mpr htask] at hc
    exact absurd hc List.not_mem_nil
  | some i =>
    rw [htask] at hclient
    obtain ⟨hd, hi, -, hrun⟩ := h.registered key i htask
    exact ⟨_, i, hd, hclient, rfl, hi, hrun⟩

/-- The clients and handlers of before stay, and only served clients are sent to or closed. -/
structure Reach (m m' : State κ ι) : Prop where
  clients : m.clients <+: m'.clients
  handlers : m.handlers.length ≤ m'.handlers.length
  sends : ∃ new, m'.sends = m.sends ++ new ∧ ∀ entry ∈ new, Served m entry.1
  closes : ∃ new, m'.closes = m.closes ++ new ∧ ∀ entry ∈ new, Served m entry.1

omit [DecidableEq κ] in
/-- A step that sends and closes nothing. -/
lemma Reach.of_logs (hclients : m.clients <+: m'.clients)
    (hhandlers : m.handlers.length ≤ m'.handlers.length) (hsends : m'.sends = m.sends)
    (hcloses : m'.closes = m.closes) : Reach m m' :=
  ⟨hclients, hhandlers,
    ⟨[], by rw [hsends, List.append_nil], fun _ hmem => absurd hmem List.not_mem_nil⟩,
    ⟨[], by rw [hcloses, List.append_nil], fun _ hmem => absurd hmem List.not_mem_nil⟩⟩

/-- Every step sends to served clients and closes no others. -/
lemma reach_of_step (h : Managed m) (hstep : step m e = some m') : Reach m m' := by
  cases hhandler : e.handler? with
  | none =>
    cases e with
    | subscribe key channel =>
      rw [← Option.some.inj hstep]
      unfold State.subscribe
      split
      · refine .of_logs (List.prefix_append _ _) ?_ rfl rfl
        rw [List.length_append]
        exact Nat.le_add_right _ _
      · exact .of_logs (List.prefix_append _ _) le_rfl rfl rfl
    | unsubscribe key clientId =>
      have hsends := h.sends hstep (by simp)
      have hcloses := (unsubscribe_own m key clientId).1
      have hkept : m'.clients = m.clients ∧ m.handlers.length ≤ m'.handlers.length := by
        rw [← Option.some.inj hstep]
        unfold State.unsubscribe
        split
        · exact ⟨rfl, le_rfl⟩
        · dsimp only
          split
          · cases m.upstreamTasks.lookup key with
            | none => exact ⟨rfl, le_rfl⟩
            | some j =>
              refine ⟨(cancel_eq (m.drop key) j).2.2.1, ?_⟩
              simp only [State.cancel]
              split
              · exact le_rfl
              · exact (Nat.le_of_eq (List.length_set ..).symm)
          · exact ⟨rfl, le_rfl⟩
      refine .of_logs (hkept.1 ▸ List.prefix_rfl) hkept.2 hsends ?_
      rw [← Option.some.inj hstep]
      exact hcloses
    | _ => cases hhandler
  | some i =>
    obtain ⟨⟨hd, hi⟩, ⟨hd', hset⟩, hclients⟩ := own_of_step hhandler hstep
    have hgrows : m.clients <+: m'.clients := ⟨[], by rw [List.append_nil, hclients]⟩
    have hlength : m.handlers.length ≤ m'.handlers.length := by
      rw [hset, List.length_set]
    by_cases hrun : hd.Running
    · refine ⟨hgrows, hlength, ?_, ?_⟩
      · by_cases hitem : ∀ j x, e ≠ .item j x
        · exact ⟨[], by rw [h.sends hstep hitem, List.append_nil],
            fun _ hmem => absurd hmem List.not_mem_nil⟩
        · simp only [not_forall, not_not] at hitem
          obtain ⟨j, x, rfl⟩ := hitem
          obtain ⟨hd'', hj, hrun', rfl⟩ := step_item hstep
          rw [h.item_eq hj hrun']
          refine ⟨_, rfl, fun entry hentry => ?_⟩
          obtain ⟨c, hc, rfl⟩ := List.mem_map.mp hentry
          exact served_of_attached h hc
      · obtain ⟨new, hnew, hclosed⟩ := (h.own hhandler hstep).closed
        refine ⟨new, hnew, fun entry hentry => ?_⟩
        obtain ⟨key, hclient⟩ := hclosed entry hentry
        exact ⟨_, i, hd, hclient, rfl, hi, hrun⟩
    · rw [stopped_own h hi hrun hhandler hstep] at hgrows hlength ⊢
      exact .of_logs hgrows hlength rfl rfl

/-- A step keeps the tasks of the clients known. -/
lemma known_of_step (h : Managed m) (hknown : Known m)
    (hstep : step m e = some m') : Known m' := by
  have hreach := reach_of_step h hstep
  have hold : m'.clients = m.clients → Known m' := by
    intro heq c client i hclient htask
    rw [heq] at hclient
    exact lt_of_lt_of_le (hknown c client i hclient htask) hreach.handlers
  cases hhandler : e.handler? with
  | some i => exact hold (own_of_step hhandler hstep).2.2
  | none =>
    cases e with
    | subscribe key channel =>
      rw [← Option.some.inj hstep]
      intro c client i hclient htask
      unfold State.subscribe at hclient ⊢
      cases hbucket : m.activeStreams.lookup key with
      | none =>
        simp only [hbucket, Dict.get_append] at hclient ⊢
        rw [List.length_append, List.length_singleton]
        split at hclient
        · rw [← Option.some.inj hclient] at htask
          have := Option.some.inj htask
          omega
        · have := hknown c client i hclient htask
          omega
      | some bucket =>
        simp only [hbucket, Dict.get_append] at hclient ⊢
        split at hclient
        · rw [← Option.some.inj hclient] at htask
          obtain ⟨hd, hget, -, -⟩ := h.registered key i htask
          exact (List.getElem?_eq_some_iff.mp hget).1
        · exact hknown c client i hclient htask
    | unsubscribe key clientId =>
      refine hold ?_
      rw [← Option.some.inj hstep]
      unfold State.unsubscribe
      split
      · rfl
      · dsimp only
        split
        · cases m.upstreamTasks.lookup key with
          | none => rfl
          | some j => exact (cancel_eq (m.drop key) j).2.2.1
        · rfl
    | _ => cases hhandler

/-! ## Who is attached after a step -/

lemma mem_attached_erase {key k : κ} {c : ℕ} (hc : c ∈ s'.attached k)
    (hstreams : s'.activeStreams = s.activeStreams.erase key) : c ∈ s.attached k := by
  unfold State.attached at hc ⊢
  rw [hstreams, Dict.lookup_erase] at hc
  split at hc
  · exact absurd hc List.not_mem_nil
  · exact hc

lemma mem_attached_insert {key k : κ} {bucket : List ℕ} {c : ℕ} (hc : c ∈ s'.attached k)
    (hstreams : s'.activeStreams = s.activeStreams.insert key bucket) :
    k = key ∧ c ∈ bucket ∨ c ∈ s.attached k := by
  unfold State.attached at hc ⊢
  rw [hstreams, Dict.lookup_insert] at hc
  split at hc
  · next hk => exact .inl ⟨hk, hc⟩
  · exact .inr hc

/-- The bucket under a key has the clients attached to it. -/
lemma attached_of_lookup {key : κ} {bucket : List ℕ}
    (hbucket : s.activeStreams.lookup key = some bucket) : s.attached key = bucket := by
  rw [State.attached, hbucket]
  rfl

/-- A task that leaves adds no client. -/
lemma attached_exit {i : ℕ} {hd : Handler κ} {k : κ} {c : ℕ}
    (hc : c ∈ (s.exit i hd).attached k) : c ∈ s.attached k := by
  unfold State.exit at hc
  split at hc
  · exact mem_attached_erase hc rfl
  · exact hc

/-- A send that ends adds no client. -/
lemma attached_sent {i : ℕ} {hd : Handler κ} {clientItems failed : List ℕ} {k : κ} {c : ℕ}
    (hc : c ∈ (s.sent i hd clientItems failed).attached k) : c ∈ s.attached k := by
  unfold State.sent at hc
  dsimp only at hc
  split at hc
  · exact hc
  unfold State.dropDead at hc
  cases hbucket : s.activeStreams.lookup hd.key with
  | none =>
    simp only [hbucket] at hc
    exact hc
  | some bucket =>
    simp only [hbucket] at hc
    split at hc
    · rw [if_pos rfl] at hc
      exact mem_attached_erase (attached_exit hc) rfl
    · rw [if_neg (by simp)] at hc
      rcases mem_attached_insert hc rfl with ⟨rfl, hin⟩ | hin
      · rw [attached_of_lookup hbucket]
        exact List.mem_of_mem_filter hin
      · exact hin

/-- An unsubscription adds no client. -/
lemma attached_unsubscribe {key k : κ} {clientId c : ℕ}
    (hc : c ∈ (s.unsubscribe key clientId).attached k) : c ∈ s.attached k := by
  unfold State.unsubscribe at hc
  cases hbucket : s.activeStreams.lookup key with
  | none =>
    simp only [hbucket] at hc
    exact hc
  | some bucket =>
    simp only [hbucket] at hc
    split at hc
    · have hdrop : c ∈ (s.drop key).attached k := by
        unfold State.cancel at hc
        split at hc
        · exact hc
        · split at hc <;> exact hc
      exact mem_attached_erase hdrop rfl
    · rcases mem_attached_insert hc rfl with ⟨rfl, hin⟩ | hin
      · rw [attached_of_lookup hbucket]
        exact List.mem_of_mem_erase hin
      · exact hin

/-- Only a `subscribe` attaches a client, and the client is new. -/
lemma attached_of_step (hstep : step s e = some s') {k : κ} {c : ℕ} (hc : c ∈ s'.attached k) :
    c ∈ s.attached k ∨ c = s.clients.length := by
  cases e with
  | subscribe key channel =>
    rw [← Option.some.inj hstep] at hc
    unfold State.subscribe at hc
    cases hbucket : s.activeStreams.lookup key with
    | none =>
      simp only [hbucket] at hc
      rcases mem_attached_insert hc rfl with ⟨rfl, hin⟩ | hin
      · exact .inr (List.mem_singleton.mp hin)
      · exact .inl hin
    | some bucket =>
      simp only [hbucket] at hc
      rcases mem_attached_insert hc rfl with ⟨rfl, hin⟩ | hin
      · rw [attached_of_lookup hbucket]
        exact (List.mem_append.mp hin).imp_right List.mem_singleton.mp
      · exact .inl hin
  | unsubscribe key clientId =>
    rw [← Option.some.inj hstep] at hc
    exact .inl (attached_unsubscribe hc)
  | start i =>
    obtain ⟨hd, -, -, rfl⟩ := step_start hstep
    unfold State.start at hc
    split at hc
    · exact .inl hc
    · exact .inl (attached_exit hc)
  | item i x =>
    obtain ⟨hd, -, -, rfl⟩ := step_item hstep
    unfold State.item at hc
    dsimp only at hc
    split at hc
    · exact .inl (attached_exit hc)
    · exact .inl hc
  | upstreamEnds i =>
    obtain ⟨hd, -, -, rfl⟩ := step_upstreamEnds hstep
    exact .inl (attached_exit hc)
  | sent i failed =>
    obtain ⟨hd, clientItems, -, -, -, rfl⟩ := step_sent hstep
    exact .inl (attached_sent hc)
  | cancelled i =>
    obtain ⟨hd, -, -, rfl⟩ := step_cancelled hstep
    unfold State.cancelled at hc
    split at hc
    · exact .inl hc
    · exact .inl (attached_exit hc)
  | closed i =>
    obtain ⟨hd, -, -, rfl⟩ := step_closed hstep
    exact .inl hc

end StreamManager
end ExchangeRouter
