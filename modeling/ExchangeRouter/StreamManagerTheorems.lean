import ExchangeRouter.StreamManager
import ExchangeRouter.Lib.Dict

/-!
# What holds in every run of the `StreamManager`

`Managed` is the invariant: under a key there is a bucket if and only if there is a task, the
bucket has a client, and the task is the one running handler of the key. Every event is one of
five changes, and each change has its own preservation lemma: a first client (`Managed.opened`),
another client (`Managed.joined`), a handler's progress (`Managed.progress`), fewer clients
(`Managed.thinned`), and a key dropped with its handler (`Managed.dropped`).
-/

namespace ExchangeRouter
namespace StreamManager

variable {κ ι : Type*}

/-- Neither cancelled nor at its `finally` or past it. -/
def Handler.Running (h : Handler κ) : Prop := h.cancelled = false ∧ h.phase.beforeExit = true

variable [DecidableEq κ]

/-- The invariant of every run. -/
structure Managed (s : State κ ι) : Prop where
  keys : ∀ key, s.activeStreams.lookup key = none ↔ s.upstreamTasks.lookup key = none
  nonempty : ∀ key bucket, s.activeStreams.lookup key = some bucket → bucket ≠ []
  registered : ∀ key i, s.upstreamTasks.lookup key = some i →
    ∃ h, s.handlers[i]? = some h ∧ h.key = key ∧ h.Running
  running : ∀ (i : ℕ) (h : Handler κ), s.handlers[i]? = some h → h.Running →
    s.upstreamTasks.lookup h.key = some i
  members : ∀ key bucket, s.activeStreams.lookup key = some bucket → bucket.Nodup ∧
    ∀ c ∈ bucket, s.clients[c]? = some ⟨key, s.upstreamTasks.lookup key⟩
  sending : ∀ (i : ℕ) (h : Handler κ) clientItems, s.handlers[i]? = some h →
    h.phase = .sending clientItems → ∀ c ∈ clientItems, s.clients[c]? = some ⟨h.key, some i⟩

lemma Managed.init : Managed ({} : State κ ι) where
  keys := by simp
  nonempty := by simp
  registered := by simp
  running := by simp
  members := by simp
  sending := by simp

/-- A client under a key was attached to it with the task that is registered there. -/
lemma Managed.client {s : State κ ι} (h : Managed s) {key : κ} {c : ℕ}
    (hc : c ∈ s.attached key) : s.clients[c]? = some ⟨key, s.upstreamTasks.lookup key⟩ := by
  unfold State.attached at hc
  cases hbucket : s.activeStreams.lookup key with
  | none => simp [hbucket] at hc
  | some bucket =>
    rw [hbucket] at hc
    exact (h.members key bucket hbucket).2 c hc

/-- The bucket of a running handler is under its key. -/
lemma Managed.bucket {s : State κ ι} (h : Managed s) {i : ℕ} {handler : Handler κ}
    (hi : s.handlers[i]? = some handler) (hrun : handler.Running) :
    ∃ bucket, s.activeStreams.lookup handler.key = some bucket ∧ bucket ≠ [] := by
  have htask := h.running i handler hi hrun
  cases hbucket : s.activeStreams.lookup handler.key with
  | none =>
    rw [(h.keys handler.key).mp hbucket] at htask
    exact absurd htask (by simp)
  | some bucket => exact ⟨bucket, rfl, h.nonempty _ _ hbucket⟩

/-! ## What an event was -/

/-- The number of an event names a handler. -/
lemma step_start {s s' : State κ ι} {i : ℕ} (hstep : step s (.start i) = some s') :
    ∃ h, s.handlers[i]? = some h ∧ (h.phase = .created ∧ h.cancelled = false) ∧
      s' = s.start i h := by
  simp only [step] at hstep
  split at hstep
  · next h hi =>
    split at hstep
    · next hwhen => exact ⟨h, hi, hwhen, (Option.some.inj hstep).symm⟩
    · exact absurd hstep (by simp)
  · exact absurd hstep (by simp)

/-- What an item asks for: a task that runs. -/
lemma step_item {s s' : State κ ι} {i : ℕ} {x : ι} (hstep : step s (.item i x) = some s') :
    ∃ h, s.handlers[i]? = some h ∧ h.Running ∧ s' = s.item i h x := by
  simp only [step] at hstep
  split at hstep
  · next h hi =>
    split at hstep
    · next hwhen =>
      have hrun : h.Running := ⟨hwhen.2, by rw [hwhen.1]; rfl⟩
      exact ⟨h, hi, hrun, (Option.some.inj hstep).symm⟩
    · exact absurd hstep (by simp)
  · exact absurd hstep (by simp)

/-- What the end of an upstream asks for: a task that runs. -/
lemma step_upstreamEnds {s s' : State κ ι} {i : ℕ}
    (hstep : step s (.upstreamEnds i) = some s') :
    ∃ h, s.handlers[i]? = some h ∧ h.Running ∧ s' = s.exit i h := by
  simp only [step] at hstep
  split at hstep
  · next h hi =>
    split at hstep
    · next hwhen =>
      have hrun : h.Running := ⟨hwhen.2, by rw [hwhen.1]; rfl⟩
      exact ⟨h, hi, hrun, (Option.some.inj hstep).symm⟩
    · exact absurd hstep (by simp)
  · exact absurd hstep (by simp)

/-- What the end of a send asks for: a task that sends and runs. -/
lemma step_sent {s s' : State κ ι} {i : ℕ} {failed : List ℕ}
    (hstep : step s (.sent i failed) = some s') :
    ∃ h clientItems, s.handlers[i]? = some h ∧ h.phase = .sending clientItems ∧ h.Running ∧
      s' = s.sent i h clientItems failed := by
  simp only [step] at hstep
  split at hstep
  · next h hi =>
    split at hstep
    · next clientItems hphase =>
      split at hstep
      · next hcancelled =>
        have hrun : h.Running := ⟨hcancelled, by rw [hphase]; rfl⟩
        exact ⟨h, clientItems, hi, hphase, hrun, (Option.some.inj hstep).symm⟩
      · exact absurd hstep (by simp)
    · exact absurd hstep (by simp)
  · exact absurd hstep (by simp)

/-- What a cancellation asks for: a task that was cancelled. -/
lemma step_cancelled {s s' : State κ ι} {i : ℕ} (hstep : step s (.cancelled i) = some s') :
    ∃ h, s.handlers[i]? = some h ∧ h.cancelled = true ∧ s' = s.cancelled i h := by
  simp only [step] at hstep
  split at hstep
  · next h hi =>
    split at hstep
    · next hwhen => exact ⟨h, hi, hwhen.2, (Option.some.inj hstep).symm⟩
    · exact absurd hstep (by simp)
  · exact absurd hstep (by simp)

lemma step_closed {s s' : State κ ι} {i : ℕ} (hstep : step s (.closed i) = some s') :
    ∃ h, s.handlers[i]? = some h ∧ h.phase = .closing ∧
      s' = s.setHandler i { h with phase := .done } := by
  simp only [step] at hstep
  split at hstep
  · next h hi =>
    split at hstep
    · next hphase => exact ⟨h, hi, hphase, (Option.some.inj hstep).symm⟩
    · exact absurd hstep (by simp)
  · exact absurd hstep (by simp)

/-! ## The five changes -/

/-- The logs are no part of the invariant. -/
lemma Managed.logs {s : State κ ι} (h : Managed s) (sends : List (ℕ × ι))
    (closes : List (ℕ × String)) : Managed { s with sends := sends, closes := closes } :=
  ⟨h.keys, h.nonempty, h.registered, h.running, h.members, h.sending⟩

/-- A handler goes on to another phase and runs as it did. -/
lemma Managed.progress {s : State κ ι} (h : Managed s) {i : ℕ} {handler : Handler κ}
    (hi : s.handlers[i]? = some handler) (phase : Phase)
    (hrun : ({ handler with phase := phase } : Handler κ).Running ↔ handler.Running)
    (hsending : ∀ clientItems, phase = .sending clientItems →
      ∀ c ∈ clientItems, s.clients[c]? = some ⟨handler.key, some i⟩) :
    Managed (s.setHandler i { handler with phase := phase }) where
  keys := h.keys
  nonempty := h.nonempty
  registered := by
    intro key j hj
    obtain ⟨g, hg, hgkey, hgrun⟩ := h.registered key j hj
    simp only [State.setHandler, Dict.get_set hi]
    by_cases hji : j = i
    · rw [hji, hi, Option.some.injEq] at hg
      rw [← hg] at hgkey hgrun
      exact ⟨{ handler with phase := phase }, by rw [if_pos hji], hgkey, hrun.mpr hgrun⟩
    · exact ⟨g, by rw [if_neg hji, hg], hgkey, hgrun⟩
  running := by
    intro j g hg hgrun
    simp only [State.setHandler, Dict.get_set hi] at hg
    by_cases hji : j = i
    · rw [if_pos hji, Option.some.injEq] at hg
      rw [← hg] at hgrun
      rw [← hg, hji]
      exact h.running i handler hi (hrun.mp hgrun)
    · rw [if_neg hji] at hg
      exact h.running j g hg hgrun
  members := h.members
  sending := by
    intro j g clientItems hg hphase
    simp only [State.setHandler, Dict.get_set hi] at hg
    by_cases hji : j = i
    · rw [if_pos hji, Option.some.injEq] at hg
      rw [← hg] at hphase
      rw [← hg, hji]
      exact hsending clientItems hphase
    · rw [if_neg hji] at hg
      exact h.sending j g clientItems hg hphase

/-- Some clients of a bucket leave it, not all. -/
lemma Managed.thinned {s : State κ ι} (h : Managed s) {key : κ} {bucket rest : List ℕ}
    (hbucket : s.activeStreams.lookup key = some bucket) (hsub : rest.Sublist bucket)
    (hne : rest ≠ []) : Managed { s with activeStreams := s.activeStreams.insert key rest } where
  keys := by
    intro k
    rw [Dict.lookup_insert, ← h.keys k]
    split
    · next hk =>
      rw [hk, hbucket]
      simp
    · exact Iff.rfl
  nonempty := by
    intro k b hb
    rw [Dict.lookup_insert] at hb
    split at hb
    · rwa [← Option.some.inj hb]
    · exact h.nonempty k b hb
  registered := h.registered
  running := h.running
  members := by
    intro k b hb
    rw [Dict.lookup_insert] at hb
    split at hb
    · next hk =>
      rw [← Option.some.inj hb, hk]
      obtain ⟨hnodup, hmem⟩ := h.members key bucket hbucket
      exact ⟨hnodup.sublist hsub, fun c hc => hmem c (hsub.subset hc)⟩
    · exact h.members k b hb
  sending := h.sending

/-- A key is dropped as its handler stops running. -/
lemma Managed.dropped {s : State κ ι} (h : Managed s) {i : ℕ} {handler handler' : Handler κ}
    (hi : s.handlers[i]? = some handler) (htask : s.upstreamTasks.lookup handler.key = some i)
    (hkey : handler'.key = handler.key) (hstop : ¬ handler'.Running)
    (hsending : ∀ clientItems, handler'.phase = .sending clientItems →
      handler.phase = .sending clientItems) :
    Managed ((s.drop handler.key).setHandler i handler') where
  keys := by
    intro k
    simp only [State.drop, State.setHandler, Dict.lookup_erase]
    split
    · simp
    · exact h.keys k
  nonempty := by
    intro k b hb
    simp only [State.drop, State.setHandler, Dict.lookup_erase] at hb
    split at hb
    · exact absurd hb (by simp)
    · exact h.nonempty k b hb
  registered := by
    intro k j hj
    simp only [State.drop, State.setHandler, Dict.lookup_erase, Dict.get_set hi] at hj ⊢
    split at hj
    · exact absurd hj (by simp)
    · next hk =>
      obtain ⟨g, hg, hgkey, hgrun⟩ := h.registered k j hj
      -- the handler of another key is another handler
      have hji : j ≠ i := by
        intro heq
        rw [heq, hi, Option.some.injEq] at hg
        exact hk (hgkey.symm.trans (by rw [hg]))
      exact ⟨g, by rw [if_neg hji, hg], hgkey, hgrun⟩
  running := by
    intro j g hg hgrun
    simp only [State.drop, State.setHandler, Dict.lookup_erase, Dict.get_set hi] at hg ⊢
    by_cases hji : j = i
    · rw [if_pos hji, Option.some.injEq] at hg
      exact absurd (hg ▸ hgrun) hstop
    · rw [if_neg hji] at hg
      have hj := h.running j g hg hgrun
      rw [if_neg, hj]
      intro hk
      rw [hk, htask, Option.some.injEq] at hj
      exact hji hj.symm
  members := by
    intro k b hb
    simp only [State.drop, State.setHandler, Dict.lookup_erase] at hb ⊢
    split at hb
    · exact absurd hb (by simp)
    · next hk =>
      rw [if_neg hk]
      exact h.members k b hb
  sending := by
    intro j g clientItems hg hphase
    simp only [State.drop, State.setHandler, Dict.get_set hi] at hg
    by_cases hji : j = i
    · rw [if_pos hji, Option.some.injEq] at hg
      rw [← hg] at hphase
      rw [← hg, hkey, hji]
      exact h.sending i handler clientItems hi (hsending clientItems hphase)
    · rw [if_neg hji] at hg
      exact h.sending j g clientItems hg hphase

/-- A client joins a bucket. -/
lemma Managed.joined {s : State κ ι} (h : Managed s) {key : κ} {bucket : List ℕ}
    (hbucket : s.activeStreams.lookup key = some bucket) :
    Managed { s with
      activeStreams := s.activeStreams.insert key (bucket ++ [s.clients.length])
      clients := s.clients ++ [⟨key, s.upstreamTasks.lookup key⟩] } where
  keys := by
    intro k
    rw [Dict.lookup_insert, ← h.keys k]
    split
    · next hk =>
      rw [hk, hbucket]
      simp
    · exact Iff.rfl
  nonempty := by
    intro k b hb
    rw [Dict.lookup_insert] at hb
    split at hb
    · rw [← Option.some.inj hb]
      simp
    · exact h.nonempty k b hb
  registered := h.registered
  running := h.running
  members := by
    intro k b hb
    rw [Dict.lookup_insert] at hb
    simp only [Dict.get_append]
    split at hb
    · next hk =>
      rw [← Option.some.inj hb, hk]
      obtain ⟨hnodup, hmem⟩ := h.members key bucket hbucket
      have hnew : s.clients.length ∉ bucket := by
        intro hin
        have := hmem _ hin
        simp at this
      refine ⟨by simpa [List.nodup_append, hnodup] using fun a ha => ne_of_mem_of_not_mem ha hnew,
        fun c hc => ?_⟩
      rcases List.mem_append.mp hc with hc | hc
      · rw [if_neg (ne_of_mem_of_not_mem hc hnew)]
        exact hmem c hc
      · rw [if_pos (List.mem_singleton.mp hc)]
    · obtain ⟨hnodup, hmem⟩ := h.members k b hb
      refine ⟨hnodup, fun c hc => ?_⟩
      have hold := hmem c hc
      have hlt := (List.getElem?_eq_some_iff.mp hold).1
      rw [if_neg (by omega)]
      exact hold
  sending := by
    intro i g clientItems hg hphase c hc
    have hold := h.sending i g clientItems hg hphase c hc
    have hlt := (List.getElem?_eq_some_iff.mp hold).1
    simp only [Dict.get_append]
    rw [if_neg (by omega)]
    exact hold

/-- The first client of a key comes with a task. -/
lemma Managed.opened {s : State κ ι} (h : Managed s) {key : κ} (channel : String)
    (hfree : s.activeStreams.lookup key = none) :
    Managed { s with
      activeStreams := s.activeStreams.insert key [s.clients.length]
      upstreamTasks := s.upstreamTasks.insert key s.handlers.length
      handlers := s.handlers ++ [{ key := key, channel := channel }]
      clients := s.clients ++ [⟨key, some s.handlers.length⟩] } where
  keys := by
    intro k
    rw [Dict.lookup_insert, Dict.lookup_insert]
    split
    · simp
    · exact h.keys k
  nonempty := by
    intro k b hb
    rw [Dict.lookup_insert] at hb
    split at hb
    · rw [← Option.some.inj hb]
      simp
    · exact h.nonempty k b hb
  registered := by
    intro k i hi
    simp only [Dict.lookup_insert, Dict.get_append] at hi ⊢
    split at hi
    · next hk =>
      rw [if_pos (Option.some.inj hi).symm]
      exact ⟨_, rfl, hk.symm, rfl, rfl⟩
    · obtain ⟨g, hg, hgkey, hgrun⟩ := h.registered k i hi
      have hlt := (List.getElem?_eq_some_iff.mp hg).1
      exact ⟨g, by rw [if_neg (by omega), hg], hgkey, hgrun⟩
  running := by
    intro i g hg hgrun
    simp only [Dict.lookup_insert, Dict.get_append] at hg ⊢
    split at hg
    · next hi =>
      rw [← Option.some.inj hg, if_pos rfl, hi]
    · have hold := h.running i g hg hgrun
      rw [if_neg, hold]
      -- nothing is registered under the key
      intro hk
      rw [hk, (h.keys key).mp hfree] at hold
      exact absurd hold (by simp)
  members := by
    intro k b hb
    simp only [Dict.lookup_insert, Dict.get_append] at hb ⊢
    split at hb
    · next hk =>
      rw [← Option.some.inj hb, if_pos hk, hk]
      refine ⟨List.nodup_singleton _, fun c hc => ?_⟩
      rw [if_pos (List.mem_singleton.mp hc)]
    · next hk =>
      rw [if_neg hk]
      obtain ⟨hnodup, hmem⟩ := h.members k b hb
      refine ⟨hnodup, fun c hc => ?_⟩
      have hold := hmem c hc
      have hlt := (List.getElem?_eq_some_iff.mp hold).1
      rw [if_neg (by omega)]
      exact hold
  sending := by
    intro i g clientItems hg hphase c hc
    simp only [Dict.get_append] at hg ⊢
    split at hg
    · rw [← Option.some.inj hg] at hphase
      exact absurd hphase (by simp)
    · have hold := h.sending i g clientItems hg hphase c hc
      have hlt := (List.getElem?_eq_some_iff.mp hold).1
      rw [if_neg (by omega)]
      exact hold

/-! ## The events -/

/-- A handler that does not run cannot start to. -/
lemma Managed.ended {s : State κ ι} (h : Managed s) {i : ℕ} {handler : Handler κ}
    (hi : s.handlers[i]? = some handler) (hstop : ¬ handler.Running) :
    Managed (s.setHandler i { handler with phase := .done }) := by
  apply h.progress hi
  · exact iff_of_false (fun hrun => by simpa [Phase.beforeExit] using hrun.2) hstop
  · intro clientItems hphase
    exact absurd hphase (by simp)

/-- The `finally` of a running handler drops its key. -/
lemma State.exit_of_registered {s : State κ ι} {i : ℕ} {handler : Handler κ}
    (htask : s.upstreamTasks.lookup handler.key = some i) :
    s.exit i handler = { s.drop handler.key with
      closes := s.closes ++ (s.attached handler.key).map
        fun client => (client, "Upstream disconnected") }.setHandler i
      { handler with phase := if s.attached handler.key = [] then .done else .closing } := by
  rw [State.exit, if_pos htask]

/-- The `finally` of a handler whose key is another's, or nobody's, only ends it. -/
lemma State.exit_of_stale {s : State κ ι} {i : ℕ} {handler : Handler κ}
    (htask : s.upstreamTasks.lookup handler.key ≠ some i) :
    s.exit i handler = s.setHandler i { handler with phase := .done } := by
  rw [State.exit, if_neg htask]

/-- A task that leaves takes its own entries with it. -/
lemma Managed.exit {s : State κ ι} (h : Managed s) {i : ℕ} {handler : Handler κ}
    (hi : s.handlers[i]? = some handler) : Managed (s.exit i handler) := by
  by_cases htask : s.upstreamTasks.lookup handler.key = some i
  · rw [State.exit_of_registered htask]
    have hlogs := h.logs s.sends (s.closes ++ (s.attached handler.key).map
      fun client => (client, "Upstream disconnected"))
    refine hlogs.dropped hi htask (by rfl) ?_ ?_
    · intro hrun
      have hphase := hrun.2
      dsimp only at hphase
      split at hphase <;> exact absurd hphase (by simp [Phase.beforeExit])
    · intro clientItems hphase
      dsimp only at hphase
      split at hphase <;> exact absurd hphase (by simp)
  · rw [State.exit_of_stale htask]
    exact h.ended hi fun hrun => htask (h.running i handler hi hrun)

/-- A subscription joins a task, or starts one. -/
lemma Managed.subscribe {s : State κ ι} (h : Managed s) (key : κ) (channel : String) :
    Managed (s.subscribe key channel) := by
  unfold State.subscribe
  cases hbucket : s.activeStreams.lookup key with
  | none => exact h.opened channel hbucket
  | some bucket => exact h.joined hbucket

/-- The last client takes the task with it. -/
lemma Managed.unsubscribe {s : State κ ι} (h : Managed s) (key : κ) (clientId : ℕ) :
    Managed (s.unsubscribe key clientId) := by
  unfold State.unsubscribe
  cases hbucket : s.activeStreams.lookup key with
  | none => exact h
  | some bucket =>
    dsimp only
    split
    · -- the last client leaves, and the task of the key is cancelled
      cases htask : s.upstreamTasks.lookup key with
      | none => exact absurd ((h.keys key).mpr htask) (by rw [hbucket]; simp)
      | some i =>
        obtain ⟨handler, hi, rfl, hrun⟩ := h.registered key i htask
        have hi' : (s.drop handler.key).handlers[i]? = some handler := hi
        simp only [State.cancel, hi']
        exact h.dropped hi htask (by rfl) (fun hrun' => by simpa using hrun'.1) fun _ hphase => hphase
    · next hne => exact h.thinned hbucket List.erase_sublist hne

/-- A task begins to stream. -/
lemma Managed.start {s : State κ ι} (h : Managed s) {i : ℕ} {handler : Handler κ}
    (hi : s.handlers[i]? = some handler) (hphase : handler.phase = .created) :
    Managed (s.start i handler) := by
  unfold State.start
  split
  · apply h.progress hi
    · simp [Handler.Running, hphase, Phase.beforeExit]
    · intro clientItems hsending
      exact absurd hsending (by simp)
  · exact h.exit hi

/-- A running handler at an item fans it out: its bucket is under its key. -/
lemma Managed.item_eq {s : State κ ι} (h : Managed s) {i : ℕ} {handler : Handler κ}
    (hi : s.handlers[i]? = some handler) (hrun : handler.Running) (item : ι) :
    s.item i handler item = { s with
      sends := s.sends ++ (s.attached handler.key).map fun client => (client, item) }.setHandler i
      { handler with phase := .sending (s.attached handler.key) } := by
  obtain ⟨bucket, hbucket, hne⟩ := h.bucket hi hrun
  have hattached : s.attached handler.key = bucket := by rw [State.attached, hbucket]; rfl
  rw [State.item, hattached, if_neg hne]

/-- An item goes to the clients that the task has. -/
lemma Managed.item {s : State κ ι} (h : Managed s) {i : ℕ} {handler : Handler κ}
    (hi : s.handlers[i]? = some handler) (hrun : handler.Running) (item : ι) :
    Managed (s.item i handler item) := by
  rw [h.item_eq hi hrun]
  have hlogs := h.logs (s.sends ++ (s.attached handler.key).map fun client => (client, item))
    s.closes
  apply hlogs.progress hi
  · exact iff_of_true ⟨hrun.1, rfl⟩ hrun
  · intro clientItems hphase c hc
    rw [← Phase.sending.inj hphase] at hc
    rw [← h.running i handler hi hrun]
    exact h.client hc

/-- The dead clients of a running handler leave its bucket, which is dropped when it has no
other. -/
lemma Managed.sent {s : State κ ι} (h : Managed s) {i : ℕ} {handler : Handler κ}
    (hi : s.handlers[i]? = some handler) (hrun : handler.Running) (clientItems failed : List ℕ) :
    Managed (s.sent i handler clientItems failed) := by
  have hnext : ({ handler with phase := .streaming } : Handler κ).Running ↔ handler.Running :=
    iff_of_true ⟨hrun.1, rfl⟩ hrun
  obtain ⟨bucket, hbucket, -⟩ := h.bucket hi hrun
  have hlogs := h.logs s.sends (s.closes ++ (clientItems.filter (· ∈ failed)).map
    fun client => (client, "Send timeout"))
  unfold State.sent
  dsimp only
  split
  · exact h.progress hi .streaming hnext fun _ hphase => absurd hphase (by simp)
  · unfold State.dropDead
    simp only [hbucket]
    split
    · -- the key is gone by now, so the `finally` only ends the task
      rw [if_pos rfl]
      have htask := h.running i handler hi hrun
      rw [State.exit_of_stale (by simp [State.drop])]
      refine hlogs.dropped hi htask (by rfl) ?_ fun _ hphase => absurd hphase (by simp)
      intro hrun'
      simpa [Phase.beforeExit] using hrun'.2
    · next hne =>
      rw [if_neg (by simp)]
      exact (hlogs.thinned hbucket List.filter_sublist hne).progress hi .streaming hnext
        fun _ hphase => absurd hphase (by simp)

/-- A task that was cancelled leaves the tables alone. -/
lemma Managed.cancelled {s : State κ ι} (h : Managed s) {i : ℕ} {handler : Handler κ}
    (hi : s.handlers[i]? = some handler) (hcancelled : handler.cancelled = true) :
    Managed (s.cancelled i handler) := by
  unfold State.cancelled
  split
  · exact h.ended hi fun hrun => by simpa [hcancelled] using hrun.1
  · exact h.exit hi

/-- Every step keeps the manager's tables and tasks together. -/
theorem Managed.preserved {s s' : State κ ι} (h : Managed s) (e : Event κ ι)
    (hstep : step s e = some s') : Managed s' := by
  cases e with
  | subscribe key channel =>
    rw [← Option.some.inj hstep]
    exact h.subscribe key channel
  | unsubscribe key clientId =>
    rw [← Option.some.inj hstep]
    exact h.unsubscribe key clientId
  | start i =>
    obtain ⟨handler, hi, ⟨hphase, -⟩, rfl⟩ := step_start hstep
    exact h.start hi hphase
  | item i item =>
    obtain ⟨handler, hi, hrun, rfl⟩ := step_item hstep
    exact h.item hi hrun item
  | upstreamEnds i =>
    obtain ⟨handler, hi, -, rfl⟩ := step_upstreamEnds hstep
    exact h.exit hi
  | sent i failed =>
    obtain ⟨handler, clientItems, hi, -, hrun, rfl⟩ := step_sent hstep
    exact h.sent hi hrun clientItems failed
  | cancelled i =>
    obtain ⟨handler, hi, hcancelled, rfl⟩ := step_cancelled hstep
    exact h.cancelled hi hcancelled
  | closed i =>
    obtain ⟨handler, hi, hphase, rfl⟩ := step_closed hstep
    exact h.ended hi fun hrun => by simpa [hphase, Phase.beforeExit] using hrun.2

/-- The invariant holds in every run. -/
theorem managed_of_run {s : State κ ι} {es : List (Event κ ι)}
    (hrun : Transition.run step {} es = some s) : Managed s :=
  Transition.invariant_of_run (fun _ e _ h hstep => h.preserved e hstep) Managed.init hrun

/-! ## What a step sends, detaches and closes -/

lemma attached_drop (s : State κ ι) (key k : κ) :
    (s.drop key).attached k = if k = key then [] else s.attached k := by
  simp only [State.drop, State.attached, Dict.lookup_erase]
  split <;> rfl

lemma attached_insert (s : State κ ι) (key k : κ) (bucket : List ℕ) :
    ({ s with activeStreams := s.activeStreams.insert key bucket } : State κ ι).attached k =
      if k = key then bucket else s.attached k := by
  simp only [State.attached, Dict.lookup_insert]
  split <;> rfl

/-- The clients that a step of handler `i` takes out of a bucket or closes were attached to
it. -/
structure OwnClients (s s' : State κ ι) (i : ℕ) : Prop where
  detached : ∀ key c, c ∈ s.attached key → c ∉ s'.attached key →
    s.clients[c]? = some ⟨key, some i⟩
  closed : ∃ new, s'.closes = s.closes ++ new ∧
    ∀ entry ∈ new, ∃ key, s.clients[entry.1]? = some ⟨key, some i⟩

/-- A step that touches no bucket and closes nothing. -/
lemma OwnClients.of_eq {s s' : State κ ι} (i : ℕ) (hactive : s'.activeStreams = s.activeStreams)
    (hcloses : s'.closes = s.closes) : OwnClients s s' i where
  detached := by
    intro key c hc hc'
    rw [State.attached, hactive] at hc'
    exact absurd hc hc'
  closed := ⟨[], by rw [hcloses, List.append_nil], by simp⟩

/-- A task that leaves closes the clients that were attached to it. -/
lemma Managed.exit_own {s : State κ ι} (h : Managed s) (i : ℕ) (handler : Handler κ) :
    OwnClients s (s.exit i handler) i := by
  by_cases htask : s.upstreamTasks.lookup handler.key = some i
  · have hown : ∀ c ∈ s.attached handler.key, s.clients[c]? = some ⟨handler.key, some i⟩ := by
      intro c hc
      rw [← htask]
      exact h.client hc
    rw [State.exit_of_registered htask]
    refine ⟨fun key c hc hc' => ?_, _, rfl, ?_⟩
    · have hkey : key = handler.key := by
        by_contra hne
        have hsame := attached_drop s handler.key key
        rw [if_neg hne] at hsame
        exact hc' (hsame.symm ▸ hc)
      rw [hkey] at hc ⊢
      exact hown c hc
    · intro entry hentry
      obtain ⟨c, hc, rfl⟩ := List.mem_map.mp hentry
      exact ⟨_, hown c hc⟩
  · rw [State.exit_of_stale htask]
    exact OwnClients.of_eq i rfl rfl

/-- A send that ends detaches and closes clients of its own task only. -/
lemma Managed.sent_own {s : State κ ι} (h : Managed s) {i : ℕ} {handler : Handler κ}
    (hi : s.handlers[i]? = some handler) {clientItems : List ℕ}
    (hphase : handler.phase = .sending clientItems) (hrun : handler.Running) (failed : List ℕ) :
    OwnClients s (s.sent i handler clientItems failed) i := by
  have hown := h.sending i handler clientItems hi hphase
  have htask := h.running i handler hi hrun
  obtain ⟨bucket, hbucket, -⟩ := h.bucket hi hrun
  have hattached : s.attached handler.key = bucket := by rw [State.attached, hbucket]; rfl
  unfold State.sent
  dsimp only
  split
  · exact OwnClients.of_eq i rfl rfl
  have hclosed : ∀ entry ∈ (clientItems.filter (· ∈ failed)).map
      fun client => (client, "Send timeout"),
      ∃ key, s.clients[entry.1]? = some ⟨key, some i⟩ := by
    intro entry hentry
    obtain ⟨c, hc, rfl⟩ := List.mem_map.mp hentry
    exact ⟨_, hown c (List.mem_of_mem_filter hc)⟩
  -- whoever leaves was under the handler's key, so it was attached to the handler
  have hleave : ∀ key c, c ∈ s.attached key → key = handler.key →
      s.clients[c]? = some ⟨key, some i⟩ := by
    intro key c hc hkey
    rw [hkey, ← htask]
    exact h.client (hkey ▸ hc)
  unfold State.dropDead
  simp only [hbucket]
  split
  · rw [if_pos rfl, State.exit_of_stale (by simp [State.drop])]
    refine ⟨fun key c hc hc' => hleave key c hc ?_, _, rfl, hclosed⟩
    by_contra hne
    have hsame := attached_drop s handler.key key
    rw [if_neg hne] at hsame
    exact hc' (hsame.symm ▸ hc)
  · rw [if_neg (by simp)]
    refine ⟨fun key c hc hc' => hleave key c hc ?_, _, rfl, hclosed⟩
    by_contra hne
    have hsame := attached_insert s handler.key key
      (bucket.filter (· ∉ clientItems.filter (· ∈ failed)))
    rw [if_neg hne] at hsame
    exact hc' (hsame.symm ▸ hc)

lemma Managed.start_own {s : State κ ι} (h : Managed s) (i : ℕ) (handler : Handler κ) :
    OwnClients s (s.start i handler) i := by
  unfold State.start
  split
  · exact OwnClients.of_eq i rfl rfl
  · exact h.exit_own i handler

lemma Managed.cancelled_own {s : State κ ι} (h : Managed s) (i : ℕ) (handler : Handler κ) :
    OwnClients s (s.cancelled i handler) i := by
  unfold State.cancelled
  split
  · exact OwnClients.of_eq i rfl rfl
  · exact h.exit_own i handler

/-- A handler detaches and closes clients of its own only. -/
theorem Managed.own {s s' : State κ ι} (h : Managed s) {e : Event κ ι} {i : ℕ}
    (hhandler : e.handler? = some i) (hstep : step s e = some s') : OwnClients s s' i := by
  cases e with
  | subscribe key channel => exact absurd hhandler (by simp [Event.handler?])
  | unsubscribe key clientId => exact absurd hhandler (by simp [Event.handler?])
  | start j =>
    obtain ⟨handler, -, -, rfl⟩ := step_start hstep
    rw [← Option.some.inj hhandler]
    exact h.start_own j handler
  | item j x =>
    obtain ⟨handler, hj, hrun, rfl⟩ := step_item hstep
    rw [h.item_eq hj hrun]
    exact OwnClients.of_eq i rfl rfl
  | upstreamEnds j =>
    obtain ⟨handler, -, -, rfl⟩ := step_upstreamEnds hstep
    rw [← Option.some.inj hhandler]
    exact h.exit_own j handler
  | sent j failed =>
    obtain ⟨handler, clientItems, hj, hphase, hrun, rfl⟩ := step_sent hstep
    rw [← Option.some.inj hhandler]
    exact h.sent_own hj hphase hrun failed
  | cancelled j =>
    obtain ⟨handler, -, -, rfl⟩ := step_cancelled hstep
    rw [← Option.some.inj hhandler]
    exact h.cancelled_own j handler
  | closed j =>
    obtain ⟨handler, -, -, rfl⟩ := step_closed hstep
    exact OwnClients.of_eq i rfl rfl

/-- An `unsubscribe` closes no client and detaches none but its own. -/
lemma unsubscribe_own (s : State κ ι) (key : κ) (clientId : ℕ) :
    (s.unsubscribe key clientId).closes = s.closes ∧
      ∀ k c, c ∈ s.attached k → k = key ∧ c = clientId ∨
        c ∈ (s.unsubscribe key clientId).attached k := by
  unfold State.unsubscribe
  cases hbucket : s.activeStreams.lookup key with
  | none => exact ⟨rfl, fun k c hc => Or.inr hc⟩
  | some bucket =>
    have hattached : s.attached key = bucket := by rw [State.attached, hbucket]; rfl
    dsimp only
    split
    · next hnil =>
      have hcancel : ((s.drop key).cancel (s.upstreamTasks.lookup key)).closes = s.closes ∧
          ((s.drop key).cancel (s.upstreamTasks.lookup key)).activeStreams =
            (s.drop key).activeStreams := by
        unfold State.cancel
        split
        · exact ⟨rfl, rfl⟩
        · split <;> exact ⟨rfl, rfl⟩
      refine ⟨hcancel.1, fun k c hc => ?_⟩
      by_cases hk : k = key
      · rw [hk, hattached] at hc
        -- a bucket that is empty without the client held the client alone
        have hone : c = clientId := by
          by_contra hne
          have := (List.mem_erase_of_ne hne).mpr hc
          rw [hnil] at this
          exact absurd this (by simp)
        exact Or.inl ⟨hk, hone⟩
      · right
        have hsame := attached_drop s key k
        rw [if_neg hk] at hsame
        rw [State.attached, hcancel.2]
        show c ∈ (s.drop key).attached k
        rw [hsame]
        exact hc
    · refine ⟨rfl, fun k c hc => ?_⟩
      rw [attached_insert]
      by_cases hk : k = key
      · rw [if_pos hk]
        rw [hk, hattached] at hc
        by_cases hone : c = clientId
        · exact Or.inl ⟨hk, hone⟩
        · exact Or.inr ((List.mem_erase_of_ne hone).mpr hc)
      · rw [if_neg hk]
        exact Or.inr hc

/-- Only an item of a stream is sent. -/
lemma Managed.sends {s s' : State κ ι} (h : Managed s) {e : Event κ ι}
    (hstep : step s e = some s') (hitem : ∀ i x, e ≠ .item i x) : s'.sends = s.sends := by
  have hexit : ∀ (t : State κ ι) i handler, (t.exit i handler).sends = t.sends := by
    intro t i handler
    unfold State.exit
    split <;> rfl
  cases e with
  | subscribe key channel =>
    rw [← Option.some.inj hstep, State.subscribe]
    split <;> rfl
  | unsubscribe key clientId =>
    rw [← Option.some.inj hstep, State.unsubscribe]
    split
    · rfl
    · dsimp only
      split
      · unfold State.cancel
        split
        · rfl
        · split <;> rfl
      · rfl
  | start i =>
    obtain ⟨handler, -, -, rfl⟩ := step_start hstep
    unfold State.start
    split
    · rfl
    · exact hexit s i handler
  | item i x => exact absurd rfl (hitem i x)
  | upstreamEnds i =>
    obtain ⟨handler, -, -, rfl⟩ := step_upstreamEnds hstep
    exact hexit s i handler
  | sent i failed =>
    obtain ⟨handler, clientItems, hi, -, hrun, rfl⟩ := step_sent hstep
    obtain ⟨bucket, hbucket, -⟩ := h.bucket hi hrun
    unfold State.sent
    dsimp only
    split
    · rfl
    unfold State.dropDead
    simp only [hbucket]
    split
    · rw [if_pos rfl, hexit]
      rfl
    · rfl
  | cancelled i =>
    obtain ⟨handler, -, -, rfl⟩ := step_cancelled hstep
    unfold State.cancelled
    split
    · rfl
    · exact hexit s i handler
  | closed i =>
    obtain ⟨handler, -, -, rfl⟩ := step_closed hstep
    rfl

/-! ## Every run -/

/-- At every point of every run: a key has a bucket if and only if it has a task; no bucket is
empty; at most one handler of a key runs, a handler at its `finally` or past it being one that
runs no more; every client is under a key whose registered task runs; an item goes to the
clients under the handler's key, once each, and nothing else is sent; a handler detaches and
closes clients of its own only; and an `unsubscribe` detaches its own client only and closes
none. -/
theorem buckets_of_every_run (es : List (Event κ ι)) (s : State κ ι)
    (hrun : Transition.run step {} es = some s) :
    (∀ key, key ∈ s.activeStreams ↔ key ∈ s.upstreamTasks) ∧
    (∀ key bucket, s.activeStreams.lookup key = some bucket → bucket ≠ []) ∧
    (∀ (i j : ℕ) (h h' : Handler κ), s.handlers[i]? = some h → s.handlers[j]? = some h' →
      h.Running → h'.Running → h.key = h'.key → i = j) ∧
    (∀ key, ∀ c ∈ s.attached key, ∃ i h, s.upstreamTasks.lookup key = some i ∧
      s.handlers[i]? = some h ∧ h.key = key ∧ h.Running) ∧
    (∀ i x s', step s (.item i x) = some s' → ∃ h, s.handlers[i]? = some h ∧
      (s.attached h.key).Nodup ∧
      s'.sends = s.sends ++ (s.attached h.key).map fun client => (client, x)) ∧
    (∀ e s', step s e = some s' → (∀ i x, e ≠ .item i x) → s'.sends = s.sends) ∧
    (∀ e i s', e.handler? = some i → step s e = some s' → OwnClients s s' i) ∧
    (∀ key clientId s', step s (.unsubscribe key clientId) = some s' → s'.closes = s.closes ∧
      ∀ k, ∀ c ∈ s.attached k, k = key ∧ c = clientId ∨ c ∈ s'.attached k) := by
  have hmanaged := managed_of_run hrun
  refine ⟨?_, hmanaged.nonempty, ?_, ?_, ?_, fun e s' hstep => hmanaged.sends hstep,
    fun e i s' => hmanaged.own, ?_⟩
  · intro key
    rw [← AList.lookup_isSome, ← AList.lookup_isSome, Option.isSome_iff_ne_none,
      Option.isSome_iff_ne_none]
    exact not_congr (hmanaged.keys key)
  · intro i j h h' hi hj hrunning hrunning' hkey
    have htask := hmanaged.running i h hi hrunning
    rw [hkey, hmanaged.running j h' hj hrunning', Option.some.injEq] at htask
    exact htask.symm
  · intro key c hc
    have hclient := hmanaged.client hc
    cases htask : s.upstreamTasks.lookup key with
    | none =>
      rw [State.attached, (hmanaged.keys key).mpr htask] at hc
      exact absurd hc (by simp)
    | some i =>
      obtain ⟨h, hi, hkey, hrunning⟩ := hmanaged.registered key i htask
      exact ⟨i, h, rfl, hi, hkey, hrunning⟩
  · intro i x s' hstep
    obtain ⟨h, hi, hrunning, rfl⟩ := step_item hstep
    obtain ⟨bucket, hbucket, -⟩ := hmanaged.bucket hi hrunning
    refine ⟨h, hi, ?_, by rw [hmanaged.item_eq hi hrunning]; rfl⟩
    rw [State.attached, hbucket]
    exact (hmanaged.members _ _ hbucket).1
  · intro key clientId s' hstep
    rw [← Option.some.inj hstep]
    exact unsubscribe_own s key clientId

/-- Two clients of a key, one of which goes while the handler sends. -/
theorem buckets_of_every_run_fan_out :
    ∃ s, Transition.run step ({} : State String ℕ)
        [.subscribe "k" "ticker", .start 0, .subscribe "k" "ticker", .item 0 7,
          .unsubscribe "k" 0, .sent 0 [0]] = some s ∧
      s.attached "k" = [1] ∧ s.sends = [(0, 7), (1, 7)] ∧
      ∀ c ∈ s.attached "k", ∃ i h, s.upstreamTasks.lookup "k" = some i ∧
        s.handlers[i]? = some h ∧ h.key = "k" ∧ h.Running :=
  ⟨_, rfl, by decide, by decide, (buckets_of_every_run
    [.subscribe "k" "ticker", .start 0, .subscribe "k" "ticker", .item 0 7,
      .unsubscribe "k" 0, .sent 0 [0]] _ rfl).2.2.2.1 "k"⟩

/-- No two handlers of one key that have not ended are both uncancelled. -/
def OneUncancelled (s : State κ ι) : Prop :=
  ∀ (i j : ℕ) (h h' : Handler κ), s.handlers[i]? = some h → s.handlers[j]? = some h' →
    h.phase ≠ .done → h'.phase ≠ .done → h.cancelled = false → h'.cancelled = false →
    h.key = h'.key → i = j

/-- A stream ends, and while its handler closes the client it detached, a new client of the key
gets a handler of its own: neither is cancelled, and neither has ended. -/
theorem not_oneUncancelled :
    ∃ s, Transition.run step ({} : State String ℕ)
        [.subscribe "k" "ticker", .start 0, .upstreamEnds 0, .subscribe "k" "ticker",
          .start 1] = some s ∧ ¬ OneUncancelled s := by
  refine ⟨_, rfl, fun hone => ?_⟩
  have heq := hone 0 1 ⟨"k", "ticker", false, .closing⟩ ⟨"k", "ticker", false, .streaming⟩
    (by decide) (by decide) (by decide) (by decide) rfl rfl rfl
  exact absurd heq (by decide)

end StreamManager
end ExchangeRouter
