import ExchangeRouter.Lib.Dict
import ExchangeRouter.LocalRouter

/-!
# The registry of a closed router

Every call asks `_check_open` before it asks the backend, with no await between them, so on a
closed router it changes nothing (`Gated`). The loop of `warm` asks the backend again after each
await and does not ask `_check_open` again. So the registry that `close` emptied stays empty
exactly in the runs where no `warm` takes up a further name then, and no second `close` returns
before the first has come to its end (`registry_empty_iff`).
-/

namespace ExchangeRouter
namespace LocalRouter

open Effect SchemaGate Transition

/-! ## The registry -/

lemma register_ne_nil (registry : Registry) (adapter : Adapter) :
    register registry adapter ≠ [] := by
  unfold register
  split
  · next hany =>
    intro hnil
    rw [List.map_eq_nil_iff.mp hnil] at hany
    exact absurd hany (by simp)
  · exact List.append_ne_nil_of_right_ne_nil _ (List.cons_ne_nil _ _)

/-- Only a package without adapters loads none. -/
lemma loadExchanges_eq_nil {installed : List Adapter} :
    loadExchanges installed [] = [] ↔ installed = [] := by
  constructor
  · intro hload
    rcases List.eq_nil_or_concat installed with hnil | ⟨rest, adapter, hconcat⟩
    · exact hnil
    · rw [hconcat, List.concat_eq_append] at hload
      unfold loadExchanges at hload
      rw [List.foldl_append] at hload
      exact absurd hload (register_ne_nil _ _)
  · intro hnil
    rw [hnil]
    rfl

/-- What a call does to the fields: it may load the adapters into an empty registry. -/
structure Loads (installed : List Adapter) (c c' : Core) : Prop where
  closed : c'.closed = c.closed
  completed : c'.completed = c.completed
  warmTask : c'.warmTask = c.warmTask
  cancelled : c'.cancelled = c.cancelled
  registry : c'.registry = c.registry ∨ c.registry = [] ∧ c'.registry = loadExchanges installed []

namespace Loads

variable {installed : List Adapter}

lemma refl (c : Core) : Loads installed c c := ⟨rfl, rfl, rfl, rfl, Or.inl rfl⟩

/-- Two calls one after the other load at most once. -/
lemma trans {c c' c'' : Core} (h : Loads installed c c') (h' : Loads installed c' c'') :
    Loads installed c c'' where
  closed := h'.closed.trans h.closed
  completed := h'.completed.trans h.completed
  warmTask := h'.warmTask.trans h.warmTask
  cancelled := h'.cancelled.trans h.cancelled
  registry := by
    rcases h'.registry with hsame | ⟨hempty, hload⟩
    · rw [hsame]
      exact h.registry
    · refine Or.inr ⟨?_, hload⟩
      rcases h.registry with hsame | ⟨hbefore, -⟩
      · rw [← hsame, hempty]
      · exact hbefore

/-- A registry that holds adapters is left alone. -/
lemma of_ne_nil {c c' : Core} (h : Loads installed c c') (hne : c.registry ≠ []) :
    c'.registry = c.registry := by
  rcases h.registry with hsame | ⟨hempty, -⟩
  · exact hsame
  · exact absurd hempty hne

end Loads

/-! ## What a call does -/

section

variable (installed : List Adapter)

/-- What runs one after the other keeps what both keep. -/
lemma loads_bind {α β : Type} {m : Sync α} {f : α → Sync β} (hm : Keeps (Loads installed) m)
    (hf : ∀ a, Keeps (Loads installed) (f a)) : Keeps (Loads installed) (m >>= f) :=
  keeps_bind (R := Loads installed) (fun _ _ _ => Loads.trans) hm hf

lemma loads_pure {α : Type} (a : α) : Keeps (Loads installed) (pure a : Sync α) :=
  keeps_pure Loads.refl a

lemma loads_throw {α : Type} (e : Raised) : Keeps (Loads installed) (throw e : Sync α) :=
  keeps_throw Loads.refl e

lemma loads_get : Keeps (Loads installed) (get : Sync Core) := keeps_get Loads.refl

/-- `_check_open` changes nothing. -/
lemma checkOpen_loads : Keeps (Loads installed) checkOpen := by
  apply loads_bind installed (loads_get installed)
  intro core
  split
  · exact loads_throw installed _
  · exact loads_pure installed _

/-- `_ensure_loaded` reads the entry points at most. -/
lemma ensureLoaded_loads : Keeps (Loads installed) (ensureLoaded installed) := by
  apply keeps_modify
  intro core
  split
  · next hempty =>
    refine ⟨rfl, rfl, rfl, rfl, Or.inr ⟨hempty, ?_⟩⟩
    show loadExchanges installed core.registry = _
    rw [hempty]
  · exact Loads.refl core

/-- An exchange that is looked for may have the entry points read. -/
lemma adapterOf_loads (exchange : String) (marketType : Option MarketType) :
    Keeps (Loads installed) (adapterOf installed exchange marketType) := by
  apply loads_bind installed (ensureLoaded_loads installed)
  intro _
  apply loads_bind installed (loads_get installed)
  intro core
  unfold checkAdapter
  repeat' split
  all_goals first | exact loads_throw installed _ | exact loads_pure installed _

lemma marketTypeOf_loads (marketType : String) :
    Keeps (Loads installed) (marketTypeOf marketType) := by
  unfold marketTypeOf
  split
  · exact loads_pure installed _
  · exact loads_throw installed _

/-- The check of an interval changes nothing. -/
lemma checkInterval_loads (adapter : Adapter) (marketType : MarketType) (route : String)
    (interval : Option (String × String)) :
    Keeps (Loads installed) (checkInterval adapter marketType route interval) := by
  cases interval with
  | none => exact loads_pure installed _
  | some labelled =>
    show Keeps _ (ite _ _ _)
    split
    · show Keeps _ (ite _ _ _)
      split
      · exact loads_throw installed _
      · exact loads_pure installed _
    · exact loads_pure installed _

/-- A fetch of the backend changes no more than the registry. -/
lemma backendFetch_loads (route exchange : String) (marketType : Option String)
    (interval : Option (String × String)) :
    Keeps (Loads installed) (backendFetch installed route exchange marketType interval) := by
  unfold backendFetch
  split
  · unfold dispatch
    split
    · exact loads_pure installed _
    split
    · exact loads_bind installed (ensureLoaded_loads installed) fun _ => loads_pure installed _
    · apply loads_bind installed (adapterOf_loads installed exchange none)
      intro _
      split
      · exact loads_pure installed _
      · exact loads_pure installed _
  · next name =>
    apply loads_bind installed (marketTypeOf_loads installed name)
    intro marketType
    apply loads_bind installed (adapterOf_loads installed exchange (some marketType))
    intro adapter
    split
    · exact loads_pure installed _
    apply loads_bind installed (checkInterval_loads installed adapter marketType route interval)
    intro _
    split
    · exact loads_pure installed _
    · exact loads_throw installed _

/-- The warming of each name does no more than its read. -/
lemma warmFrom_loads (quiet : Bool) (problems : List Raised) (names : List String) :
    Keeps (Loads installed) (warmFrom installed quiet problems names) := by
  induction names with
  | nil =>
    show Keeps _ (warmResult problems)
    unfold warmResult
    repeat' split
    all_goals first | exact loads_throw installed _ | exact loads_pure installed _
  | cons name left ih =>
    apply loads_bind installed (adapterOf_loads installed name none)
    intro adapter
    split
    · exact ih
    · exact loads_pure installed _

/-- A stream of the backend changes no more than the registry. -/
lemma backendStream_loads (sub : Subscription) (reconnect : Bool) :
    Keeps (Loads installed) (backendStream installed sub reconnect) := by
  apply loads_bind installed (marketTypeOf_loads installed _)
  intro marketType
  apply loads_bind installed (adapterOf_loads installed _ _)
  intro adapter
  split
  · exact loads_throw installed _
  · exact loads_pure installed _

/-- `_ensure_capabilities` changes no more than the registry. -/
lemma ensureCapabilities_loads (exchange : String) (quiet : Bool) :
    Keeps (Loads installed) (ensureCapabilities installed exchange quiet) := by
  apply loads_bind installed (checkOpen_loads installed)
  intro _
  apply loads_bind installed (loads_get installed)
  intro core
  split
  · exact loads_pure installed _
  apply keeps_tryCatch (R := Loads installed) fun _ _ _ => Loads.trans
  · apply loads_bind installed (adapterOf_loads installed exchange none)
    intro adapter
    exact keeps_modify fun core => ⟨rfl, rfl, rfl, rfl, Or.inl rfl⟩
  · intro e
    split
    · exact loads_pure installed _
    · exact loads_throw installed _

lemma preflight_loads (exchange marketType route : String) (interval : Option (String × String)) :
    Keeps (Loads installed) (preflight installed exchange marketType route interval) := by
  apply loads_bind installed (ensureCapabilities_loads installed exchange true)
  intro _
  apply loads_bind installed (loads_get installed)
  intro core
  show Keeps _ (ite _ _ _)
  split
  · exact loads_throw installed _
  cases interval with
  | none => exact loads_pure installed _
  | some labelled =>
    show Keeps _ (ite _ _ _)
    split
    · exact loads_throw installed _
    · exact loads_pure installed _

lemma fetch_loads (route exchange : String) (marketType : Option String)
    (interval : Option (String × String)) :
    Keeps (Loads installed) (fetch installed route exchange marketType interval) :=
  loads_bind installed (checkOpen_loads installed) fun _ =>
    backendFetch_loads installed route exchange marketType interval

/-- `warm` changes no more than the registry. -/
lemma warm_loads (exchange : Option String) (quiet : Bool) :
    Keeps (Loads installed) (warm installed exchange quiet) := by
  apply loads_bind installed (checkOpen_loads installed)
  intro _
  apply loads_bind installed (loads_get installed)
  intro core
  exact warmFrom_loads installed quiet [] _

/-- A closed router says so. -/
lemma checkOpen_closed {core : Core} (hclosed : core.closed = true) :
    exec checkOpen core = (.error closedError, core) := by
  show exec (get >>= _) core = _
  rw [exec_bind_ok (exec_get core), if_pos hclosed]
  rfl

/-- A closed router is refused before anything is read. -/
lemma ensureCapabilities_closed {core : Core} (hclosed : core.closed = true) (exchange : String)
    (quiet : Bool) :
    exec (ensureCapabilities installed exchange quiet) core = (.error closedError, core) :=
  exec_bind_error (checkOpen_closed hclosed) _

lemma preflight_closed {core : Core} (hclosed : core.closed = true)
    (exchange marketType route : String) (interval : Option (String × String)) :
    exec (preflight installed exchange marketType route interval) core =
      (.error closedError, core) :=
  exec_bind_error (ensureCapabilities_closed installed hclosed exchange true) _

lemma warm_closed {core : Core} (hclosed : core.closed = true) (exchange : Option String)
    (quiet : Bool) : exec (warm installed exchange quiet) core = (.error closedError, core) :=
  exec_bind_error (checkOpen_closed hclosed) _

/-- A call on a closed router raises and changes nothing. Only `fetch_many` looks at an argument
first. -/
theorem enter_closed {core : Core} (hclosed : core.closed = true) (m : Method) :
    ∃ e, exec (enter installed m) core = (.error e, core) ∧
      (e = closedError ∨ ∃ route exchange, m = .fetchMany route exchange ∧ route ∉ seriesRoutes) := by
  cases m with
  | discovery route arguments =>
    exact ⟨_, exec_bind_error (checkOpen_closed hclosed) _, Or.inl rfl⟩
  | getVersion => exact ⟨_, exec_bind_error (checkOpen_closed hclosed) _, Or.inl rfl⟩
  | getCapabilities exchange =>
    exact ⟨_, exec_bind_error (ensureCapabilities_closed installed hclosed exchange false) _,
      Or.inl rfl⟩
  | point route exchange marketType symbol =>
    exact ⟨_, exec_bind_error (preflight_closed installed hclosed _ _ _ _) _, Or.inl rfl⟩
  | getMarginTiers exchange marketType symbol =>
    exact ⟨_, exec_bind_error (ensureCapabilities_closed installed hclosed exchange true) _,
      Or.inl rfl⟩
  | series route exchange marketType symbol interval intervalLabel =>
    exact ⟨_, exec_bind_error (preflight_closed installed hclosed _ _ _ _) _, Or.inl rfl⟩
  | fetchMany route exchange =>
    by_cases hroute : route ∉ seriesRoutes
    · obtain ⟨e, hthrow⟩ : ∃ e, enter installed (.fetchMany route exchange) = throw e :=
        ⟨_, if_pos hroute⟩
      refine ⟨e, ?_, Or.inr ⟨route, exchange, rfl, hroute⟩⟩
      rw [hthrow]
      rfl
    · refine ⟨closedError, ?_, Or.inl rfl⟩
      show exec (ite _ _ _) core = _
      rw [if_neg hroute]
      exact exec_bind_error (ensureCapabilities_closed installed hclosed exchange true) _
  | warm exchange => exact ⟨_, warm_closed installed hclosed exchange false, Or.inl rfl⟩

/-- Every method changes no more than the registry, up to its first await. -/
lemma enter_loads (m : Method) : Keeps (Loads installed) (enter installed m) := by
  cases m with
  | discovery route arguments => exact fetch_loads installed _ _ _ _
  | getVersion => exact fetch_loads installed _ _ _ _
  | getCapabilities exchange =>
    exact loads_bind installed (ensureCapabilities_loads installed exchange false) fun _ =>
      loads_pure installed _
  | point route exchange marketType symbol =>
    exact loads_bind installed (preflight_loads installed _ _ _ _) fun _ =>
      fetch_loads installed _ _ _ _
  | getMarginTiers exchange marketType symbol =>
    exact loads_bind installed (ensureCapabilities_loads installed exchange true) fun _ =>
      loads_bind installed (preflight_loads installed _ _ _ _) fun _ => fetch_loads installed _ _ _ _
  | series route exchange marketType symbol interval intervalLabel =>
    exact loads_bind installed (preflight_loads installed _ _ _ _) fun _ =>
      fetch_loads installed _ _ _ _
  | fetchMany route exchange =>
    show Keeps _ (ite _ _ _)
    split
    · exact loads_throw installed _
    · exact loads_bind installed (ensureCapabilities_loads installed exchange true) fun _ =>
        loads_pure installed _
  | warm exchange => exact warm_loads installed exchange false

/-! ## Where a call comes to wait -/

/-- A read waits for an adapter, or is through. -/
def Stage.IsRead (stage : Stage) : Prop := stage = .reading ∨ stage = .over none

/-- A fetch that does not raise waits for an adapter, or is through. -/
lemma backendFetch_returns (route exchange : String) (marketType : Option String)
    (interval : Option (String × String)) :
    Returns Stage.IsRead (backendFetch installed route exchange marketType interval) := by
  unfold backendFetch
  split
  · unfold dispatch
    split
    · exact returns_pure (Or.inr rfl)
    split
    · exact returns_bind fun _ => returns_pure (Or.inr rfl)
    · apply returns_bind
      intro _
      split
      · exact returns_pure (Or.inl rfl)
      · exact returns_pure (Or.inr rfl)
  · apply returns_bind
    intro marketType
    apply returns_bind
    intro adapter
    split
    · exact returns_pure (Or.inl rfl)
    apply returns_bind
    intro _
    split
    · exact returns_pure (Or.inl rfl)
    · exact returns_throw _

lemma fetch_returns (route exchange : String) (marketType : Option String)
    (interval : Option (String × String)) :
    Returns Stage.IsRead (fetch installed route exchange marketType interval) :=
  returns_bind fun _ => backendFetch_returns installed route exchange marketType interval

/-- Every call but `warm` is a read. -/
lemma enter_returns (m : Method) (hwarm : ∀ exchange, m ≠ .warm exchange) :
    Returns Stage.IsRead (enter installed m) := by
  cases m with
  | discovery route arguments => exact fetch_returns installed _ _ _ _
  | getVersion => exact fetch_returns installed _ _ _ _
  | getCapabilities exchange => exact returns_bind fun _ => returns_pure (Or.inr rfl)
  | point route exchange marketType symbol =>
    exact returns_bind fun _ => fetch_returns installed _ _ _ _
  | getMarginTiers exchange marketType symbol =>
    exact returns_bind fun _ => returns_bind fun _ => fetch_returns installed _ _ _ _
  | series route exchange marketType symbol interval intervalLabel =>
    exact returns_bind fun _ => fetch_returns installed _ _ _ _
  | fetchMany route exchange =>
    show Returns _ (ite _ _ _)
    split
    · exact returns_throw _
    · exact returns_bind fun _ => returns_pure (Or.inl rfl)
  | warm exchange => exact absurd rfl (hwarm exchange)

/-- A stream that does not raise is open. -/
lemma subscribe_returns (sub : Subscription) (reconnect : Bool) :
    Returns (fun stage => stage = .streaming sub reconnect) (subscribe installed sub reconnect) := by
  apply returns_bind
  intro _
  apply returns_bind
  intro marketType
  apply returns_bind
  intro adapter
  split
  · exact returns_throw _
  · exact returns_pure rfl

/-- A `warm` over the names waits for one of them, or is through. -/
def Stage.IsWarm (names : List String) (stage : Stage) : Prop :=
  stage = .over none ∨
    ∃ quiet problems name left, stage = .warming quiet problems left ∧ (name :: left) <:+ names

/-- What `warm` of some names comes to, up to its first await. -/
lemma warmFrom_returns (quiet : Bool) (problems : List Raised) (names : List String) :
    Returns (Stage.IsWarm names) (warmFrom installed quiet problems names) := by
  induction names with
  | nil =>
    show Returns _ (warmResult problems)
    unfold warmResult
    repeat' split
    all_goals first | exact returns_throw _ | exact returns_pure (Or.inl rfl)
  | cons name left ih =>
    apply returns_bind
    intro adapter
    split
    · intro core stage core' hexec
      refine (ih core stage core' hexec).imp_right ?_
      rintro ⟨quiet', problems', name', left', hstage, hsuffix⟩
      exact ⟨quiet', problems', name', left', hstage, hsuffix.trans (List.suffix_cons name left)⟩
    · exact returns_pure (Or.inr ⟨quiet, problems, name, left, rfl, List.suffix_refl _⟩)

/-- With no name left `warm` only raises its problems. -/
lemma warmFrom_nil_exec (quiet : Bool) (problems : List Raised) (core : Core) :
    (exec (warmFrom installed quiet problems []) core).2 = core := by
  show (exec (warmResult problems) core).2 = core
  unfold warmResult
  repeat' split
  all_goals rfl

/-- `warm` after an await takes its next name from a registry that it finds loaded. -/
lemma warmFrom_cons_exec {core : Core} (hempty : core.registry = []) (quiet : Bool)
    (problems : List Raised) (name : String) (left : List String) :
    (exec (warmFrom installed quiet problems (name :: left)) core).2.registry =
      loadExchanges installed [] := by
  set loaded : Core := { core with registry := loadExchanges installed [] }
  have hload : exec (ensureLoaded installed) core = (.ok ⟨⟩, loaded) := by
    show (Except.ok PUnit.unit, ite _ _ _) = _
    rw [if_pos hempty, hempty]
  -- behind the load nothing else writes, unless it loads the same again
  have hrest : exec (warmFrom installed quiet problems (name :: left)) core =
      exec (do
        let adapter ← (do
          let found ← get
          checkAdapter name none (getAdapter found.registry name))
        if adapter.supportedMarketTypes = [] then warmFrom installed quiet problems left
        else return .warming quiet problems left) loaded := by
    show exec ((ensureLoaded installed >>= _) >>= _) core = _
    rw [exec_bind, exec_bind_ok hload, ← exec_bind]
  have hkeeps : Loads installed loaded
      (exec (warmFrom installed quiet problems (name :: left)) core).2 := by
    rw [hrest]
    apply loads_bind installed
    · apply loads_bind installed (loads_get installed)
      intro found
      unfold checkAdapter
      split
      · exact loads_throw installed _
      · exact loads_pure installed _
    · intro adapter
      split
      · exact warmFrom_loads installed quiet problems left
      · exact loads_pure installed _
  rcases hkeeps.registry with hsame | ⟨-, hagain⟩
  · exact hsame
  · exact hagain

/-- Neither the background task nor a `close`. -/
def Stage.Plain : Stage → Prop
  | .scheduled => False
  | .closing _ _ => False
  | _ => True

/-- A call that is to ask for an adapter when it goes on. -/
def Stage.Pending : Stage → Prop
  | .scheduled => True
  | .warming _ _ (_ :: _) => True
  | _ => False

lemma Stage.IsRead.plain {stage : Stage} (h : stage.IsRead) : stage.Plain := by
  rcases h with rfl | rfl
  · trivial
  · trivial

lemma Stage.IsRead.not_pending {stage : Stage} (h : stage.IsRead) : ¬ stage.Pending := by
  rcases h with rfl | rfl
  · exact id
  · exact id

lemma Stage.IsWarm.plain {names : List String} {stage : Stage} (h : stage.IsWarm names) :
    stage.Plain := by
  rcases h with rfl | ⟨_, _, _, _, rfl, -⟩
  · trivial
  · trivial

/-- A call that asks `_check_open` first. -/
structure Gated (m : Sync Stage) : Prop where
  loads : Keeps (Loads installed) m
  still : ∀ core, core.closed = true → (exec m core).2 = core
  plain : Returns Stage.Plain m

/-- `warm` asks `_check_open` first. -/
lemma warm_gated (exchange : Option String) (quiet : Bool) :
    Gated installed (warm installed exchange quiet) where
  loads := warm_loads installed exchange quiet
  still := fun core hclosed => by rw [warm_closed installed hclosed]
  plain := by
    apply returns_bind
    intro _
    apply returns_bind
    intro core found stage core' hexec
    exact (warmFrom_returns installed quiet [] _ found stage core' hexec).plain

/-- So does every method. -/
lemma enter_gated (m : Method) : Gated installed (enter installed m) where
  loads := enter_loads installed m
  still := by
    intro core hclosed
    obtain ⟨e, hexec, -⟩ := enter_closed installed hclosed m
    rw [hexec]
  plain := by
    by_cases hwarm : ∃ exchange, m = .warm exchange
    · obtain ⟨exchange, rfl⟩ := hwarm
      exact (warm_gated installed exchange false).plain
    · intro core stage core' hexec
      have hread := enter_returns installed m (fun exchange h => hwarm ⟨exchange, h⟩)
      exact (hread core stage core' hexec).plain

/-- So does a stream. -/
lemma subscribe_gated (sub : Subscription) (reconnect : Bool) :
    Gated installed (subscribe installed sub reconnect) where
  loads := loads_bind installed (checkOpen_loads installed) fun _ =>
    backendStream_loads installed sub reconnect
  still := fun core hclosed => by
    show (exec (checkOpen >>= _) core).2 = core
    rw [exec_bind_error (checkOpen_closed hclosed)]
  plain := by
    intro core stage core' hexec
    rw [subscribe_returns installed sub reconnect core stage core' hexec]
    trivial

/-- So does the background task. -/
lemma warmQuietly_gated : Gated installed (warmQuietly installed) where
  loads := by
    apply keeps_tryCatch (R := Loads installed) fun _ _ _ => Loads.trans
    · exact warm_loads installed none true
    · intro e
      split
      · exact loads_throw installed _
      · exact loads_pure installed _
  still := fun core hclosed => by
    show (exec (tryCatch _ _) core).2 = core
    rw [exec_tryCatch, warm_closed installed hclosed]
    rfl
  plain := by
    apply returns_tryCatch (warm_gated installed none true).plain
    intro e
    split
    · exact returns_throw _
    · exact returns_pure trivial

/-- The handler of `_warm_quietly` writes nothing. -/
lemma warmOn_exec (quiet : Bool) (problems : List Raised) (left : List String)
    (results : List (Option Raised)) (core : Core) :
    (exec (warmOn installed quiet problems left results) core).2 =
      (exec (warmFrom installed quiet (problems ++ results.filterMap id) left) core).2 := by
  unfold warmOn
  split
  · rw [exec_tryCatch]
    rcases exec (warmFrom installed quiet (problems ++ results.filterMap id) left) core with
      ⟨e | stage, core'⟩
    · cases e with
      | cancelled => rfl
      | router e => rfl
      | other name => rfl
    · rfl
  · rfl

/-- The part of `warm` after a `gather` changes no more than the registry. -/
lemma warmOn_loads (quiet : Bool) (problems : List Raised) (left : List String)
    (results : List (Option Raised)) :
    Keeps (Loads installed) (warmOn installed quiet problems left results) := by
  intro core
  rw [warmOn_exec]
  exact warmFrom_loads installed quiet _ left core

lemma warmOn_returns (quiet : Bool) (problems : List Raised) (left : List String)
    (results : List (Option Raised)) :
    Returns (Stage.IsWarm left) (warmOn installed quiet problems left results) := by
  unfold warmOn
  split
  · apply returns_tryCatch (warmFrom_returns installed quiet _ left)
    intro e
    split
    · exact returns_throw _
    · exact returns_pure (Or.inl rfl)
  · exact warmFrom_returns installed quiet _ left

end

/-! ## `close` -/

/-- A second `close` is over at once. -/
lemma close_closed {core : Core} (hclosed : core.closed = true) :
    exec close core = (.ok (.over none), { core with completed := true }) := by
  show exec (get >>= _) core = _
  rw [exec_bind_ok (exec_get core), if_pos hclosed]
  rfl

/-- The loop goes on while the registry is as large as it began. -/
lemma shutdownFrom_exec (core : Core) {size : ℕ} (left : ℕ)
    (hsize : core.registry.length = size) :
    exec (shutdownFrom size left) core =
      match left with
      | 0 => (.ok (.over none), { core with registry := [], completed := true })
      | left + 1 => (.ok (.closing size left), core) := by
  show exec (get >>= _) core = _
  rw [exec_bind_ok (exec_get core), if_neg (not_not.mpr hsize)]
  cases left with
  | zero => rfl
  | succ left => rfl

/-- What `close` writes before its loop. -/
def Core.shut (core : Core) : Core :=
  { core with
    closed := true
    warmTask := none
    cancelled := core.warmTask.toList ++ core.cancelled }

/-- The first `close` shuts the core, and then the adapters down. -/
lemma close_open {core : Core} (hopen : core.closed = false) :
    exec close core = exec (shutdownFrom core.registry.length core.registry.length) core.shut := by
  show exec (get >>= _) core = _
  rw [exec_bind_ok (exec_get core), if_neg (by rw [hopen]; exact Bool.false_ne_true)]
  exact exec_bind_ok (exec_modify _ core) _

/-! ## What an event does -/

variable {installed : List Adapter}

/-- The condition under which the registry stays as `close` left it: a second `close` finds it
empty, and after a `close` no `warm` that is not being cancelled goes on to a further name, unless
there is nothing to load. -/
def Safe (installed : List Adapter) (s : State) : Event → Prop
  | .close => s.core.closed = true → s.core.registry = []
  | .gathered i _ => ∀ quiet problems name left,
      s.waiting i = some (.warming quiet problems (name :: left)) → s.core.completed = true →
        installed = []
  | _ => True

/-- A call that waits is not one that is to be cancelled. -/
lemma calls_of_waiting {s : State} {i : ℕ} {stage : Stage} (h : s.waiting i = some stage) :
    s.calls[i]? = some stage ∧ i ∉ s.core.cancelled := by
  unfold State.waiting at h
  split at h
  · exact absurd h (by simp)
  · next hnot => exact ⟨h, hnot⟩

/-- What an event does. A call begins or goes on behind `_check_open`; `close` begins; `warm` goes
on from its `gather`; `close` goes on from the shutdown of an adapter; or a call just ends or
sleeps. -/
inductive Does (installed : List Adapter) (s : State) : Event → State → Prop
  | gated {e : Event} (i : ℕ) (calls : List Stage) (m : Sync Stage) (hgated : Gated installed m)
      (hcalls : calls = s.calls ∨ i = s.calls.length ∧ calls = s.calls ++ [.over none])
      (hsafe : Safe installed s e)
      (hpending : (∃ exchange, e = .start (.warm exchange) ∧ m = warm installed exchange) ∨
        s.waiting i = some .scheduled ∨ Returns (fun stage => ¬ stage.Pending) m) :
      Does installed s e (State.resume { s with calls := calls } i m)
  | close : Does installed s .close (s.call close)
  | gathered (i : ℕ) (results : List (Option Raised)) (quiet : Bool) (problems : List Raised)
      (left : List String) (hwaiting : s.waiting i = some (.warming quiet problems left)) :
      Does installed s (.gathered i results)
        (s.resume i (warmOn installed quiet problems left results))
  | closing (i size left : ℕ) (hwaiting : s.waiting i = some (.closing size left)) :
      Does installed s (.answer i none) (s.resume i (shutdownFrom size left))
  | finish {e : Event} (i : ℕ) (stage : Stage) (hplain : stage.Plain) (hcalm : ¬ stage.Pending)
      (hsafe : Safe installed s e) : Does installed s e (s.finish i stage)

lemma subscribe_not_pending (sub : Subscription) (reconnect : Bool) :
    Returns (fun stage => ¬ stage.Pending) (subscribe installed sub reconnect) := by
  intro core stage core' hexec
  rw [subscribe_returns installed sub reconnect core stage core' hexec]
  exact id

/-- One case for each place a call may wait at. -/
lemma does_of_step {s s' : State} {e : Event} (hstep : step installed s e = some s') :
    Does installed s e s' := by
  cases e with
  | start m =>
    obtain rfl := Option.some.inj hstep
    refine .gated _ _ _ (enter_gated installed m) (Or.inr ⟨rfl, rfl⟩) trivial ?_
    by_cases hwarm : ∃ exchange, m = .warm exchange
    · obtain ⟨exchange, rfl⟩ := hwarm
      exact Or.inl ⟨exchange, rfl, rfl⟩
    · refine Or.inr (Or.inr fun core stage core' hexec => ?_)
      have hread := enter_returns installed m (fun exchange h => hwarm ⟨exchange, h⟩)
      exact (hread core stage core' hexec).not_pending
  | stream sub reconnect =>
    obtain rfl := Option.some.inj hstep
    exact .gated _ _ _ (subscribe_gated installed sub reconnect) (Or.inr ⟨rfl, rfl⟩) trivial
      (Or.inr (Or.inr (subscribe_not_pending sub reconnect)))
  | close =>
    obtain rfl := Option.some.inj hstep
    exact .close
  | begin i =>
    simp only [step] at hstep
    split at hstep
    · next hwaiting =>
      obtain rfl := Option.some.inj hstep
      exact .gated _ _ _ (warmQuietly_gated installed) (Or.inl rfl) trivial
        (Or.inr (Or.inl hwaiting))
    · exact absurd hstep (by simp)
  | gathered i results =>
    simp only [step] at hstep
    split at hstep
    · next hwaiting =>
      obtain rfl := Option.some.inj hstep
      exact .gathered i results _ _ _ hwaiting
    · exact absurd hstep (by simp)
  | answer i raised =>
    simp only [step] at hstep
    split at hstep
    · obtain rfl := Option.some.inj hstep
      exact .finish i _ trivial id trivial
    · next hwaiting =>
      cases raised with
      | none =>
        obtain rfl := Option.some.inj hstep
        exact .closing i _ _ hwaiting
      | some e =>
        obtain rfl := Option.some.inj hstep
        exact .finish i _ trivial id trivial
    · exact absurd hstep (by simp)
  | drop i e retryable =>
    simp only [step] at hstep
    split at hstep
    · obtain rfl := Option.some.inj hstep
      split
      · exact .finish i _ trivial id trivial
      · exact .finish i _ trivial id trivial
    · exact absurd hstep (by simp)
  | finish i =>
    simp only [step] at hstep
    split at hstep
    · obtain rfl := Option.some.inj hstep
      exact .gated _ _ _ (subscribe_gated installed _ _) (Or.inl rfl) trivial
        (Or.inr (Or.inr (subscribe_not_pending _ _)))
    · obtain rfl := Option.some.inj hstep
      exact .finish i _ trivial id trivial
    · exact absurd hstep (by simp)
  | wake i =>
    simp only [step] at hstep
    split at hstep
    · obtain rfl := Option.some.inj hstep
      exact .gated _ _ _ (subscribe_gated installed _ _) (Or.inl rfl) trivial
        (Or.inr (Or.inr (subscribe_not_pending _ _)))
    · exact absurd hstep (by simp)
  | cancel i =>
    simp only [step] at hstep
    split at hstep
    · exact absurd hstep (by simp)
    · obtain rfl := Option.some.inj hstep
      exact .finish i _ trivial id trivial
    · exact absurd hstep (by simp)

/-- Where a call waits after call `i` went on. -/
lemma resume_get {s : State} {i j : ℕ} {m : Sync Stage} {stage : Stage}
    (h : (s.resume i m).calls[j]? = some stage) :
    (j = i ∧ stage = stageOf (exec m s.core).1) ∨ (j ≠ i ∧ s.calls[j]? = some stage) :=
  Dict.of_get_set h

/-- Only the call that ends has a new stage. -/
lemma finish_get {s : State} {i j : ℕ} {stage stage' : Stage}
    (h : (s.finish i stage).calls[j]? = some stage') :
    (j = i ∧ stage' = stage) ∨ (j ≠ i ∧ s.calls[j]? = some stage') :=
  Dict.of_get_set h

/-- A new call has the next number. -/
lemma append_get {calls : List Stage} {j : ℕ} {stage : Stage} (hne : j ≠ calls.length)
    (h : (calls ++ [.over none])[j]? = some stage) : calls[j]? = some stage := by
  rwa [Dict.get_append, if_neg hne] at h

/-- The same where the call is a new one, or was there. -/
lemma gated_get {s : State} {i j : ℕ} {calls : List Stage} {m : Sync Stage} {stage : Stage}
    (hcalls : calls = s.calls ∨ i = s.calls.length ∧ calls = s.calls ++ [.over none])
    (h : (State.resume { s with calls := calls } i m).calls[j]? = some stage) :
    (j = i ∧ stage = stageOf (exec m s.core).1) ∨ (j ≠ i ∧ s.calls[j]? = some stage) := by
  refine (resume_get h).imp_right fun ⟨hne, hget⟩ => ⟨hne, ?_⟩
  rcases hcalls with rfl | ⟨rfl, rfl⟩
  · exact hget
  · exact append_get hne hget

/-- Where a call waits after a stretch that returns only such places. -/
lemma stageOf_of_returns {Q : Stage → Prop} {m : Sync Stage} (h : Returns Q m)
    (hover : ∀ e, Q (.over (some e))) (core : Core) : Q (stageOf (exec m core).1) := by
  rcases hexec : exec m core with ⟨e | stage, core'⟩
  · exact hover e
  · exact h core stage core' hexec

/-! ## What holds in every run -/

/-- A `close` under way is the only one, and the registry that it iterates is as it found it. -/
structure Consistent (s : State) : Prop where
  completed : s.core.completed = true → s.core.closed = true
  closing : ∀ (i size left : ℕ), s.calls[i]? = some (Stage.closing size left) →
    s.core.closed = true ∧ s.core.registry.length = size ∧ left < size
  unique : ∀ (i j size left size' left' : ℕ), s.calls[i]? = some (Stage.closing size left) →
    s.calls[j]? = some (Stage.closing size' left') → i = j

lemma Consistent.start (registry : Registry) (scope : List String) (running : Bool) :
    Consistent (start registry scope running) := by
  have hcalls : ∀ (i size left : ℕ),
      (LocalRouter.start registry scope running).calls[i]? ≠ some (Stage.closing size left) := by
    intro i size left hget
    unfold LocalRouter.start at hget
    split at hget
    · have hmem := List.mem_of_getElem? hget
      rw [List.mem_singleton] at hmem
      exact absurd hmem (by simp)
    · exact absurd hget (by simp)
  refine ⟨fun hcompleted => ?_, fun i size left hget => absurd hget (hcalls i size left),
    fun i j size left size' left' hget => absurd hget (hcalls i size left)⟩
  unfold LocalRouter.start at hcompleted
  split at hcompleted
  · exact absurd hcompleted Bool.false_ne_true
  · exact absurd hcompleted Bool.false_ne_true

/-- With the flag still down no `close` has begun. -/
lemma Consistent.none_closing {s : State} (h : Consistent s) (hopen : s.core.closed = false)
    {i size left : ℕ} : s.calls[i]? ≠ some (Stage.closing size left) := by
  intro hget
  exact absurd (h.closing i size left hget).1 (by rw [hopen]; exact Bool.false_ne_true)

/-- A step after which the calls that are closing were so before, and that kept what they rely
on. -/
lemma Consistent.of_frame {s s' : State} (h : Consistent s)
    (hcompleted : s'.core.completed = true → s'.core.closed = true)
    (hget : ∀ (j size left : ℕ), s'.calls[j]? = some (Stage.closing size left) →
      s.calls[j]? = some (Stage.closing size left))
    (hclosed : s.core.closed = true → s'.core.closed = true)
    (hregistry : ∀ (j size left : ℕ), s'.calls[j]? = some (Stage.closing size left) →
      s'.core.registry = s.core.registry) : Consistent s' := by
  refine ⟨hcompleted, fun j size left hj => ?_, fun i j size left size' left' hi hj =>
    h.unique i j size left size' left' (hget i size left hi) (hget j size' left' hj)⟩
  have hbefore := h.closing j size left (hget j size left hj)
  rw [hregistry j size left hj]
  exact ⟨hclosed hbefore.1, hbefore.2⟩

/-- After a step to a place that is no `close` under way, the ones that are were so before. -/
lemma closing_of_plain {s : State} {i j size left : ℕ} {stage : Stage} (hplain : stage.Plain)
    (h : (j = i ∧ Stage.closing size left = stage) ∨
      (j ≠ i ∧ s.calls[j]? = some (Stage.closing size left))) :
    s.calls[j]? = some (Stage.closing size left) := by
  rcases h with ⟨-, hstage⟩ | ⟨-, hbefore⟩
  · rw [← hstage] at hplain
    exact absurd hplain id
  · exact hbefore

/-- A closed router without a `close` under way. -/
lemma Consistent.of_none {s : State} (hclosed : s.core.closed = true)
    (hnone : ∀ (j size left : ℕ), s.calls[j]? ≠ some (Stage.closing size left)) :
    Consistent s where
  completed := fun _ => hclosed
  closing := fun j size left hj => absurd hj (hnone j size left)
  unique := fun j _ size left _ _ hj => absurd hj (hnone j size left)

/-- A closed router with one, which has a name left to shut down. -/
lemma Consistent.of_one {s : State} {i size left : ℕ} (hclosed : s.core.closed = true)
    (hlength : s.core.registry.length = size) (hlt : left < size)
    (hone : ∀ (j size' left' : ℕ), s.calls[j]? = some (Stage.closing size' left') →
      j = i ∧ Stage.closing size' left' = Stage.closing size left) : Consistent s where
  completed := fun _ => hclosed
  closing := fun j size' left' hj => by
    obtain ⟨rfl, rfl⟩ := Stage.closing.inj (hone j size' left' hj).2
    exact ⟨hclosed, hlength, hlt⟩
  unique := fun j k _ _ _ _ hj hk => (hone j _ _ hj).1.trans (hone k _ _ hk).1.symm

/-- A second `close` only notes that it returned. -/
lemma Consistent.close_again {s : State} (h : Consistent s) (hclosed : s.core.closed = true) :
    Consistent (s.call LocalRouter.close) := by
  have hcore : (s.call LocalRouter.close).core = { s.core with completed := true } := by
    show (exec LocalRouter.close s.core).2 = _
    rw [close_closed hclosed]
  have hstage : stageOf (exec LocalRouter.close s.core).1 = .over none := by
    rw [close_closed hclosed]
    rfl
  refine h.of_frame (fun _ => by rw [hcore]; exact hclosed) (fun j size left hj => ?_)
    (fun _ => by rw [hcore]; exact hclosed) (fun _ _ _ _ => by rw [hcore])
  have hplain : (stageOf (exec LocalRouter.close s.core).1).Plain := by
    rw [hstage]
    trivial
  exact closing_of_plain hplain (gated_get (Or.inr ⟨rfl, rfl⟩) hj)

/-- The first `close` is the only one, and begins its loop unless the registry is empty. -/
lemma Consistent.close_first {s : State} (h : Consistent s) (hopen : s.core.closed = false) :
    Consistent (s.call LocalRouter.close) := by
  have hexec := (close_open hopen).trans (shutdownFrom_exec s.core.shut _ rfl)
  have hnew : ∀ (j size left : ℕ),
      (s.call LocalRouter.close).calls[j]? = some (Stage.closing size left) →
        j = s.calls.length ∧
          Stage.closing size left = stageOf (exec LocalRouter.close s.core).1 := by
    intro j size left hj
    rcases gated_get (Or.inr ⟨rfl, rfl⟩) hj with hhere | ⟨-, hbefore⟩
    · exact hhere
    · exact absurd hbefore (h.none_closing hopen)
  cases hsize : s.core.registry.length with
  | zero =>
    rw [hsize] at hexec
    have hcore : (s.call LocalRouter.close).core =
        { s.core.shut with registry := [], completed := true } := congrArg Prod.snd hexec
    refine .of_none (by rw [hcore]; rfl) fun j size left hj => ?_
    have hstage := (hnew j size left hj).2
    rw [hexec] at hstage
    exact absurd hstage (by simp [stageOf])
  | succ n =>
    rw [hsize] at hexec
    have hcore : (s.call LocalRouter.close).core = s.core.shut := congrArg Prod.snd hexec
    have hlength : (s.call LocalRouter.close).core.registry.length = n + 1 := by
      rw [hcore]
      exact hsize
    have hone : ∀ (j size left : ℕ),
        (s.call LocalRouter.close).calls[j]? = some (Stage.closing size left) →
          j = s.calls.length ∧ Stage.closing size left = Stage.closing (n + 1) n := by
      intro j size left hj
      have hhere := hnew j size left hj
      rw [hexec] at hhere
      exact hhere
    exact .of_one (by rw [hcore]; rfl) hlength (Nat.lt_succ_self n) hone

/-- The loop of `close` goes on, or comes to its end. -/
lemma Consistent.shutdown {s : State} (h : Consistent s) {i size left : ℕ}
    (hwaiting : s.waiting i = some (.closing size left)) :
    Consistent (s.resume i (shutdownFrom size left)) := by
  have hat := (calls_of_waiting hwaiting).1
  obtain ⟨hclosed, hlength, hlt⟩ := h.closing i size left hat
  have hexec := shutdownFrom_exec s.core left hlength
  have hnew : ∀ (j size' left' : ℕ),
      (s.resume i (shutdownFrom size left)).calls[j]? = some (Stage.closing size' left') →
        j = i ∧ Stage.closing size' left' = stageOf (exec (shutdownFrom size left) s.core).1 := by
    intro j size' left' hj
    rcases resume_get hj with hhere | ⟨hne, hbefore⟩
    · exact hhere
    · exact absurd (h.unique j i size' left' size left hbefore hat) hne
  cases left with
  | zero =>
    have hcore : (s.resume i (shutdownFrom size 0)).core =
        { s.core with registry := [], completed := true } := congrArg Prod.snd hexec
    refine .of_none (by rw [hcore]; exact hclosed) fun j size' left' hj => ?_
    have hstage := (hnew j size' left' hj).2
    rw [hexec] at hstage
    exact absurd hstage (by simp [stageOf])
  | succ left =>
    have hcore : (s.resume i (shutdownFrom size (left + 1))).core = s.core :=
      congrArg Prod.snd hexec
    have hsame : (s.resume i (shutdownFrom size (left + 1))).core.registry.length = size := by
      rw [hcore]
      exact hlength
    have hone : ∀ (j size' left' : ℕ),
        (s.resume i (shutdownFrom size (left + 1))).calls[j]? =
          some (Stage.closing size' left') →
            j = i ∧ Stage.closing size' left' = Stage.closing size left := by
      intro j size' left' hj
      have hhere := hnew j size' left' hj
      rw [hexec] at hhere
      exact hhere
    exact .of_one (by rw [hcore]; exact hclosed) hsame (by omega) hone

/-- Every step keeps the core and its calls consistent. -/
lemma Consistent.step {s s' : State} {e : Event} (h : Consistent s)
    (hstep : step installed s e = some s') : Consistent s' := by
  cases does_of_step hstep with
  | gated i calls m hgated hcalls hsafe hpending =>
    have hloads := hgated.loads s.core
    have hplain := stageOf_of_returns hgated.plain (fun _ => trivial) s.core
    have hget : ∀ (j size left : ℕ),
        (State.resume { s with calls := calls } i m).calls[j]? = some (Stage.closing size left) →
          s.calls[j]? = some (Stage.closing size left) :=
      fun j size left hj => closing_of_plain hplain (gated_get hcalls hj)
    refine h.of_frame ?_ hget (fun hclosed => hloads.closed.trans hclosed) ?_
    · intro hcompleted
      exact hloads.closed.trans (h.completed (hloads.completed.symm.trans hcompleted))
    · intro j size left hj
      have hclosed := (h.closing j size left (hget j size left hj)).1
      exact congrArg Core.registry (hgated.still s.core hclosed)
  | close =>
    by_cases hclosed : s.core.closed = true
    · exact h.close_again hclosed
    · exact h.close_first (Bool.eq_false_iff.mpr hclosed)
  | gathered i results quiet problems left hwaiting =>
    have hloads := warmOn_loads installed quiet problems left results s.core
    have hplain : (stageOf (exec (warmOn installed quiet problems left results) s.core).1).Plain := by
      refine stageOf_of_returns ?_ (fun _ => trivial) s.core
      intro core stage core' hexec
      exact (warmOn_returns installed quiet problems left results core stage core' hexec).plain
    have hget : ∀ (j size left' : ℕ),
        (s.resume i (warmOn installed quiet problems left results)).calls[j]? =
          some (Stage.closing size left') → s.calls[j]? = some (Stage.closing size left') :=
      fun j size left' hj => closing_of_plain hplain (resume_get hj)
    refine h.of_frame ?_ hget (fun hclosed => hloads.closed.trans hclosed) ?_
    · intro hcompleted
      exact hloads.closed.trans (h.completed (hloads.completed.symm.trans hcompleted))
    · -- the registry that is being iterated has a name left, so nothing is loaded into it
      intro j size left' hj
      obtain ⟨-, hlength, hlt⟩ := h.closing j size left' (hget j size left' hj)
      apply hloads.of_ne_nil
      intro hnil
      rw [hnil, List.length_nil] at hlength
      omega
  | closing i size left hwaiting => exact h.shutdown hwaiting
  | finish i stage hplain hcalm hsafe =>
    exact h.of_frame h.completed (fun _ _ _ hj => closing_of_plain hplain (finish_get hj)) id
      fun _ _ _ _ => rfl

/-- In every run, a `close` that goes on finds the registry as large as it began: its loop does
not raise. -/
theorem closing_size (registry : Registry) (scope : List String) (running : Bool)
    (events : List Event) (s : State)
    (hrun : run (LocalRouter.step installed) (LocalRouter.start registry scope running) events =
      some s) (i size left : ℕ) (hcall : s.calls[i]? = some (Stage.closing size left)) :
    s.core.registry.length = size := by
  have h : Consistent s := invariant_of_run (fun _ _ _ h hstep => h.step hstep)
    (Consistent.start registry scope running) hrun
  exact (h.closing i size left hcall).2.1

/-! ## The closed router -/

/-- After a `close()` has returned, the registry is empty. -/
def State.Emptied (s : State) : Prop := s.core.completed = true → s.core.registry = []

/-- Only the core counts. -/
lemma emptied_of_core {s s' : State} (h : s.Emptied) (hcore : s'.core = s.core) : s'.Emptied := by
  unfold State.Emptied
  rw [hcore]
  exact h

lemma emptied_of_not_completed {s : State} (h : s.core.completed ≠ true) : s.Emptied :=
  fun hcompleted => absurd hcompleted h

/-- Before the first `close` none has returned. -/
lemma Consistent.not_completed {s : State} (h : Consistent s) (hopen : s.core.closed = false) :
    s.core.completed ≠ true := by
  intro hcompleted
  exact absurd (h.completed hcompleted) (by rw [hopen]; exact Bool.false_ne_true)

/-- A `close` returns with an empty registry, or has not returned yet. -/
lemma shutdownFrom_emptied (core : Core) {size : ℕ} (left : ℕ)
    (hsize : core.registry.length = size) (h : core.completed = true → core.registry = []) :
    (exec (shutdownFrom size left) core).2.completed = true →
      (exec (shutdownFrom size left) core).2.registry = [] := by
  rw [shutdownFrom_exec core left hsize]
  cases left with
  | zero => exact fun _ => rfl
  | succ left => exact h

/-- One event, from a router whose registry is as `close` left it. -/
lemma emptied_step_iff {s s' : State} {e : Event} (hs : Consistent s) (hempty : s.Emptied)
    (hstep : step installed s e = some s') : s'.Emptied ↔ Safe installed s e := by
  cases does_of_step hstep with
  | gated i calls m hgated hcalls hsafe hpending =>
    refine iff_of_true ?_ hsafe
    cases hclosed : s.core.closed with
    | true => exact emptied_of_core hempty (hgated.still s.core hclosed)
    | false =>
      apply emptied_of_not_completed
      rw [show (State.resume { s with calls := calls } i m).core.completed = s.core.completed from
        (hgated.loads s.core).completed]
      exact hs.not_completed hclosed
  | close =>
    cases hclosed : s.core.closed with
    | true =>
      have hcore : (s.call LocalRouter.close).core = { s.core with completed := true } := by
        show (exec LocalRouter.close s.core).2 = _
        rw [close_closed hclosed]
      unfold State.Emptied
      rw [hcore]
      exact ⟨fun h _ => h rfl, fun h _ => h hclosed⟩
    | false =>
      refine iff_of_true ?_ fun h => absurd h (by rw [hclosed]; exact Bool.false_ne_true)
      show (exec LocalRouter.close s.core).2.completed = true →
        (exec LocalRouter.close s.core).2.registry = []
      rw [close_open hclosed]
      exact shutdownFrom_emptied s.core.shut _ rfl fun hcompleted =>
        absurd hcompleted (hs.not_completed hclosed)
  | gathered i results quiet problems left hwaiting =>
    have hloads := warmOn_loads installed quiet problems left results s.core
    cases left with
    | nil =>
      refine iff_of_true ?_ fun quiet' problems' name left hcons => ?_
      · apply emptied_of_core hempty
        show (exec _ s.core).2 = _
        rw [warmOn_exec, warmFrom_nil_exec]
      · rw [hwaiting] at hcons
        exact absurd hcons (by simp)
    | cons name left =>
      have hloaded : s.core.completed = true →
          (s.resume i (warmOn installed quiet problems (name :: left) results)).core.registry =
            loadExchanges installed [] := by
        intro hcompleted
        show (exec _ s.core).2.registry = _
        rw [warmOn_exec]
        exact warmFrom_cons_exec installed (hempty hcompleted) quiet _ name left
      constructor
      · intro h quiet' problems' name' left' _ hcompleted
        apply loadExchanges_eq_nil.mp
        rw [← hloaded hcompleted]
        exact h (hloads.completed.trans hcompleted)
      · intro h hcompleted
        have hbefore := hloads.completed.symm.trans hcompleted
        rw [hloaded hbefore]
        exact loadExchanges_eq_nil.mpr (h quiet problems name left hwaiting hbefore)
  | closing i size left hwaiting =>
    refine iff_of_true ?_ trivial
    have hlength := (hs.closing i size left (calls_of_waiting hwaiting).1).2.1
    exact shutdownFrom_emptied s.core left hlength hempty
  | finish i stage hplain hcalm hsafe => exact iff_of_true (emptied_of_core hempty rfl) hsafe

/-- An event that cannot happen is safe. -/
lemma safe_of_step_none {s : State} {e : Event} (hstep : step installed s e = none) :
    Safe installed s e := by
  cases e with
  | close => exact absurd hstep (by simp [step])
  | gathered i results =>
    intro quiet problems name left hwaiting
    simp only [step, hwaiting] at hstep
    exact absurd hstep (by simp)
  | _ => trivial

lemma start_emptied (registry : Registry) (scope : List String) (running : Bool) :
    (start registry scope running).Emptied := by
  apply emptied_of_not_completed
  apply (Consistent.start registry scope running).not_completed
  unfold start
  split
  · rfl
  · rfl

/-- Whatever was in flight, the registry is empty from the first return of a `close` on, exactly
when no `warm` goes on to a further name after it, and no second `close` came too early. -/
theorem registry_empty_iff (installed : List Adapter) (registry : Registry) (scope : List String)
    (running : Bool) (events : List Event) :
    Meets (step installed) (Safe installed) (start registry scope running) events ↔
      ∀ part, part <+: events → ∀ s, run (step installed) (start registry scope running) part =
        some s → s.core.completed = true → s.core.registry = [] := by
  have hbase : ∀ s e s', Consistent s → step installed s e = some s' → Consistent s' :=
    fun s e s' hs hstep => hs.step hstep
  have hiff : ∀ s e s', Consistent s → s.Emptied → step installed s e = some s' →
      (s'.Emptied ↔ Safe installed s e) :=
    fun s e s' hs hempty hstep => emptied_step_iff hs hempty hstep
  exact meets_iff_throughout hbase hiff (fun s e hnone => safe_of_step_none hnone)
    (Consistent.start registry scope running) (start_emptied registry scope running) events

/-- Two adapters, as the package builds them, for a run. -/
def twoAdapters : List Adapter :=
  [{ name := "hyperliquid", supportedMarketTypes := [.spot, .linear] },
    { name := "okx", supportedMarketTypes := [.spot, .linear, .inverse] }]

/-- `warm()` waits for the first exchange while `close()` shuts both down and comes back; then its
`gather` is through, and it goes on to the second. -/
theorem warm_revives_registry :
    ∃ s s', run (step twoAdapters) (start twoAdapters ["hyperliquid", "okx"] false)
        [.start (.warm none), .close, .answer 1 none, .answer 1 none] = some s ∧
      s.core.completed = true ∧ s.core.registry = [] ∧
      step twoAdapters s (.gathered 0 [some (.other "RuntimeError"), some (.other "RuntimeError")]) =
        some s' ∧ s'.core.registry ≠ [] :=
  ⟨_, _, rfl, rfl, rfl, rfl, by decide⟩

/-! ## Runs without a `warm` of several names -/

/-- The names that `warm` goes over. -/
def namesOf (core : Core) : Option String → List String
  | some name => [name]
  | none => core.scope

/-- The caller warms at most one exchange in a call, and closes the router once. -/
def Single (s : State) : Event → Prop
  | .start (.warm exchange) => (namesOf s.core exchange).length ≤ 1
  | .close => s.core.closed = false
  | _ => True

/-- `warm` waits for one of the names that it goes over. -/
lemma warm_isWarm {core core' : Core} {exchange : Option String} {quiet : Bool} {stage : Stage}
    (hexec : exec (warm installed exchange quiet) core = (.ok stage, core')) :
    stage.IsWarm (namesOf core exchange) := by
  cases hclosed : core.closed with
  | true =>
    rw [warm_closed installed hclosed] at hexec
    exact absurd (congrArg Prod.fst hexec) (by simp)
  | false =>
    have hopen : exec checkOpen core = (.ok ⟨⟩, core) := by
      show exec (get >>= _) core = _
      rw [exec_bind_ok (exec_get core), if_neg (by rw [hclosed]; exact Bool.false_ne_true)]
      rfl
    have hnames : exec (warm installed exchange quiet) core =
        exec (warmFrom installed quiet [] (namesOf core exchange)) core := by
      show exec (checkOpen >>= _) core = _
      rw [exec_bind_ok hopen]
      cases exchange with
      | none => rfl
      | some name => rfl
    rw [hnames] at hexec
    exact warmFrom_returns installed quiet [] _ core stage core' hexec

/-- A `warm` of one name has no other to ask for. -/
lemma Stage.IsWarm.not_pending {names : List String} {stage : Stage} (h : stage.IsWarm names)
    (hone : names.length ≤ 1) : ¬ stage.Pending := by
  rcases h with rfl | ⟨quiet, problems, name, left, rfl, hsuffix⟩
  · exact id
  · have hle := hsuffix.length_le
    rw [List.length_cons] at hle
    have hleft : left = [] := List.length_eq_zero_iff.mp (by omega)
    rw [hleft]
    exact id

/-- The call is the background task: `close` cancels it, or has. -/
def Core.Owns (core : Core) (i : ℕ) : Prop :=
  i ∈ core.cancelled ∨ core.warmTask = some i ∧ core.closed = false

lemma Loads.owns {c c' : Core} (h : Loads installed c c') {i : ℕ} (howns : c.Owns i) :
    c'.Owns i := by
  unfold Core.Owns
  rw [h.cancelled, h.warmTask, h.closed]
  exact howns

/-- A shut core has cancelled its background task. -/
lemma Core.Owns.shut {core : Core} {i : ℕ} (h : core.Owns i) : i ∈ core.shut.cancelled := by
  show i ∈ core.warmTask.toList ++ core.cancelled
  rcases h with hcancelled | ⟨htask, -⟩
  · exact List.mem_append_right _ hcancelled
  · rw [htask]
    exact List.mem_append_left _ (List.mem_singleton.mpr rfl)

/-- Only the background task has more to ask for. -/
def State.Background (s : State) : Prop :=
  ∀ (i : ℕ) (stage : Stage), s.calls[i]? = some stage → stage.Pending → s.core.Owns i

lemma start_background (registry : Registry) (scope : List String) (running : Bool) :
    (start registry scope running).Background := by
  intro i stage hget hpending
  unfold start at hget ⊢
  split at hget
  · next hwarm =>
    rw [if_pos hwarm]
    obtain rfl : i = 0 := by
      have hlt := (List.getElem?_eq_some_iff.mp hget).1
      rw [List.length_singleton] at hlt
      omega
    exact Or.inr ⟨rfl, rfl⟩
  · exact absurd hget (by simp)

/-- The loop of `close` never waits for a name to ask for. -/
lemma shutdownFrom_calm (core : Core) {size : ℕ} (left : ℕ)
    (hsize : core.registry.length = size) :
    ¬ (stageOf (exec (shutdownFrom size left) core).1).Pending := by
  rw [shutdownFrom_exec core left hsize]
  cases left with
  | zero => exact id
  | succ left => exact id

/-- The shutdown of the adapters leaves the background task alone. -/
lemma shutdownFrom_owns (core : Core) {size : ℕ} (left : ℕ)
    (hsize : core.registry.length = size) {i : ℕ} (howns : core.Owns i) :
    (exec (shutdownFrom size left) core).2.Owns i := by
  rw [shutdownFrom_exec core left hsize]
  cases left with
  | zero => exact howns
  | succ left => exact howns

/-- A `warm` that goes on from its last name asks for no other. -/
lemma warmOn_pending {quiet : Bool} {problems : List Raised} {left : List String}
    {results : List (Option Raised)} {core : Core}
    (h : (stageOf (exec (warmOn installed quiet problems left results) core).1).Pending) :
    (Stage.warming quiet problems left).Pending := by
  cases left with
  | nil =>
    have hcalm : Returns (fun stage => ¬ stage.Pending)
        (warmOn installed quiet problems [] results) := fun core found core' hexec =>
      (warmOn_returns installed quiet problems [] results core found core' hexec).not_pending
        (Nat.zero_le 1)
    exact absurd h (stageOf_of_returns hcalm (fun _ => id) core)
  | cons name left => trivial

/-- Where the caller warms one exchange in a call and closes the router once, only the background
task ever has more to ask for. -/
lemma background_step {s s' : State} {e : Event} (hs : Consistent s) (hback : s.Background)
    (hsingle : Single s e) (hstep : step installed s e = some s') : s'.Background := by
  cases does_of_step hstep with
  | gated i calls m hgated hcalls hsafe hpending =>
    intro j stage hget hstage
    apply (hgated.loads s.core).owns
    rcases gated_get hcalls hget with ⟨rfl, hhere⟩ | ⟨-, hbefore⟩
    · rcases hpending with ⟨exchange, rfl, rfl⟩ | hscheduled | hreturns
      · -- a `warm` of one name leaves none for later
        rcases hexec : exec (warm installed exchange) s.core with ⟨e | found, core'⟩
        · rw [hexec] at hhere
          rw [hhere] at hstage
          exact absurd hstage id
        · rw [hexec] at hhere
          rw [hhere] at hstage
          exact absurd hstage ((warm_isWarm hexec).not_pending hsingle)
      · exact hback j _ (calls_of_waiting hscheduled).1 trivial
      · have hcalm := stageOf_of_returns hreturns (fun _ => id) s.core
        rw [hhere] at hstage
        exact absurd hstage hcalm
    · exact hback j stage hbefore hstage
  | close =>
    have hexec := close_open hsingle
    intro j stage hget hstage
    rcases gated_get (Or.inr ⟨rfl, rfl⟩) hget with ⟨-, hhere⟩ | ⟨-, hbefore⟩
    · rw [hhere, hexec] at hstage
      exact absurd hstage (shutdownFrom_calm s.core.shut _ rfl)
    · -- the task is cancelled before the loop
      have howns := (hback j stage hbefore hstage).shut
      show (exec LocalRouter.close s.core).2.Owns j
      rw [hexec]
      exact shutdownFrom_owns s.core.shut _ rfl (Or.inl howns)
  | gathered i results quiet problems left hwaiting =>
    intro j stage hget hstage
    apply (warmOn_loads installed quiet problems left results s.core).owns
    rcases resume_get hget with ⟨rfl, hhere⟩ | ⟨-, hbefore⟩
    · rw [hhere] at hstage
      exact hback j _ (calls_of_waiting hwaiting).1 (warmOn_pending hstage)
    · exact hback j stage hbefore hstage
  | closing i size left hwaiting =>
    have hlength := (hs.closing i size left (calls_of_waiting hwaiting).1).2.1
    intro j stage hget hstage
    rcases resume_get hget with ⟨-, hhere⟩ | ⟨-, hbefore⟩
    · rw [hhere] at hstage
      exact absurd hstage (shutdownFrom_calm s.core left hlength)
    · exact shutdownFrom_owns s.core left hlength (hback j stage hbefore hstage)
  | finish i stage hplain hcalm hsafe =>
    intro j stage' hget hstage
    rcases finish_get hget with ⟨-, rfl⟩ | ⟨-, hbefore⟩
    · exact absurd hstage hcalm
    · exact hback j stage' hbefore hstage

/-- The background task is cancelled with the `close`, so it is not among the unsafe calls. -/
lemma safe_of_single {s : State} {e : Event} (hs : Consistent s) (hback : s.Background)
    (hsingle : Single s e) : Safe installed s e := by
  cases e with
  | close => exact fun hclosed => absurd (hsingle.symm.trans hclosed) Bool.false_ne_true
  | gathered i results =>
    intro quiet problems name left hwaiting hcompleted
    obtain ⟨hget, hnot⟩ := calls_of_waiting hwaiting
    rcases hback i _ hget trivial with hcancelled | ⟨-, hopen⟩
    · exact absurd hcancelled hnot
    · exact absurd hcompleted (hs.not_completed hopen)
  | _ => trivial

/-- Reads, streams, the background task and `warm`s of one exchange never bring the registry
back. -/
theorem registry_empty_of_single (installed : List Adapter) (registry : Registry)
    (scope : List String) (running : Bool) (events : List Event) (s : State)
    (hsingle : Meets (step installed) Single (start registry scope running) events)
    (hrun : run (step installed) (start registry scope running) events = some s) :
    s.core.completed = true → s.core.registry = [] := by
  have hpres : ∀ s e s', (Consistent s ∧ s.Emptied ∧ s.Background) → Single s e →
      step installed s e = some s' → (Consistent s' ∧ s'.Emptied ∧ s'.Background) := by
    intro s e s' ⟨hs, hempty, hback⟩ hone hstep
    exact ⟨hs.step hstep, (emptied_step_iff hs hempty hstep).mpr (safe_of_single hs hback hone),
      background_step hs hback hone hstep⟩
  have hinit : Consistent (start registry scope running) ∧ (start registry scope running).Emptied ∧
      (start registry scope running).Background :=
    ⟨Consistent.start registry scope running, start_emptied registry scope running,
      start_background registry scope running⟩
  exact (invariant_of_meets hpres hinit hsingle hrun).2.1

end LocalRouter
end ExchangeRouter
