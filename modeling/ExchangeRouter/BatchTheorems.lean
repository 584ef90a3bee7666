import ExchangeRouter.Batch
import ExchangeRouter.Lib.Fallible

/-!
# What a batch makes of its symbols

In whatever order the calls end, what is gathered names the symbols in the order of the request,
and a symbol is in the dictionaries that its outcomes go to. One symbol, one outcome: the request
is partitioned. A symbol that was asked for twice is counted twice.
-/

namespace ExchangeRouter
namespace Batch

variable {φ ε : Type}

/-! ## The calls -/

/-- What a step does: a call enters, or a call that runs ends. -/
theorem step_cases {maxConcurrent : ℕ} {calls calls' : Calls φ ε} {e : Event φ ε}
    (h : step maxConcurrent calls e = some calls') :
    (∃ i symbol, e = .enter i ∧ calls[i]? = some (symbol, .waiting) ∧
      running calls < maxConcurrent ∧ calls' = calls.set i (symbol, .running)) ∨
    (∃ i symbol outcome, e = .finish i outcome ∧ calls[i]? = some (symbol, .running) ∧
      calls' = calls.set i (symbol, .done outcome)) := by
  cases e with
  | enter i =>
    simp only [step] at h
    split at h
    · next symbol hi =>
      split at h
      · next hfree => exact .inl ⟨i, symbol, rfl, hi, hfree, (Option.some.inj h).symm⟩
      · contradiction
    · contradiction
  | finish i outcome =>
    simp only [step] at h
    split at h
    · next symbol hi => exact .inr ⟨i, symbol, outcome, rfl, hi, (Option.some.inj h).symm⟩
    · contradiction

/-- A call that goes on stays under its symbol. -/
theorem symbols_set {calls : Calls φ ε} {i : ℕ} {symbol : String} {was : Call φ ε}
    (hi : calls[i]? = some (symbol, was)) (is : Call φ ε) :
    (calls.set i (symbol, is)).map Prod.fst = calls.map Prod.fst := by
  obtain ⟨hlt, hget⟩ := List.getElem?_eq_some_iff.mp hi
  have hlt' : i < (calls.map Prod.fst).length := by rwa [List.length_map]
  have hfst : (calls.map Prod.fst)[i] = symbol := by
    rw [List.getElem_map, hget]
  rw [List.map_set]
  show (calls.map Prod.fst).set i symbol = _
  rw [← hfst, List.set_getElem_self]

theorem symbols_step {maxConcurrent : ℕ} {calls calls' : Calls φ ε} {e : Event φ ε}
    (h : step maxConcurrent calls e = some calls') :
    calls'.map Prod.fst = calls.map Prod.fst := by
  rcases step_cases h with ⟨i, symbol, -, hi, -, rfl⟩ | ⟨i, symbol, outcome, -, hi, rfl⟩
  · exact symbols_set hi _
  · exact symbols_set hi _

/-- However the calls interleave, they are the calls for the symbols of the request. -/
theorem symbols_run {maxConcurrent : ℕ} {symbols : List String} {events : List (Event φ ε)}
    {calls : Calls φ ε}
    (hrun : Transition.run (step maxConcurrent) (start symbols) events = some calls) :
    calls.map Prod.fst = symbols := by
  have hinit : (start symbols : Calls φ ε).map Prod.fst = symbols := by
    simp [start, Function.comp_def]
  have hkeeps : ∀ (s : Calls φ ε) e s', s.map Prod.fst = symbols →
      step maxConcurrent s e = some s' → s'.map Prod.fst = symbols := by
    intro s e s' hs hstep
    rw [symbols_step hstep, hs]
  exact Transition.invariant_of_run hkeeps hinit hrun

theorem running_set_le (calls : Calls φ ε) (i : ℕ) (c : String × Call φ ε) :
    running (calls.set i c) ≤ running calls + 1 := by
  unfold running
  by_cases hi : i < calls.length
  · rw [List.countP_set hi]
    have hone : (if c.2.isRunning = true then 1 else 0) ≤ 1 := by
      split <;> decide
    omega
  · rw [List.set_eq_of_length_le (Nat.le_of_not_lt hi)]
    exact Nat.le_succ _

theorem running_finish_le (calls : Calls φ ε) (i : ℕ) (symbol : String) (outcome : Outcome φ ε) :
    running (calls.set i (symbol, .done outcome)) ≤ running calls := by
  unfold running
  by_cases hi : i < calls.length
  · -- a call that is done is not counted
    have hdone : ¬ (Call.done outcome).isRunning = true := by simp [Call.isRunning]
    rw [List.countP_set hi, if_neg hdone]
    exact Nat.sub_le _ _
  · rw [List.set_eq_of_length_le (Nat.le_of_not_lt hi)]

/-- No more calls run at a time than `max_concurrent`. -/
theorem running_le {maxConcurrent : ℕ} {symbols : List String} {events : List (Event φ ε)}
    {calls : Calls φ ε}
    (hrun : Transition.run (step maxConcurrent) (start symbols) events = some calls) :
    running calls ≤ maxConcurrent := by
  have hinit : running (start symbols : Calls φ ε) ≤ maxConcurrent := by
    have hstart : running (start symbols : Calls φ ε) = 0 := by
      unfold running start
      rw [List.countP_map, List.countP_eq_zero]
      intro symbol _
      simp [Call.isRunning]
    omega
  have hkeeps : ∀ (s : Calls φ ε) e s', running s ≤ maxConcurrent →
      step maxConcurrent s e = some s' → running s' ≤ maxConcurrent := by
    intro s e s' hs hstep
    rcases step_cases hstep with ⟨i, symbol, -, -, hfree, rfl⟩ | ⟨i, symbol, outcome, -, -, rfl⟩
    · have hset := running_set_le s i (symbol, .running)
      omega
    · exact (running_finish_le s i symbol outcome).trans hs
  exact Transition.invariant_of_run hkeeps hinit hrun

/-- What is gathered is in the order of the symbols. -/
theorem symbols_gathered {calls : Calls φ ε} {g : List (String × Outcome φ ε)}
    (h : gathered calls = some g) : g.map Prod.fst = calls.map Prod.fst := by
  unfold gathered at h
  induction calls generalizing g with
  | nil =>
    rw [← Option.some.inj h]
    rfl
  | cons c calls ih =>
    obtain ⟨o, g', ho, hg', rfl⟩ := Fallible.mapM_some_cons.mp h
    have hfst : o.1 = c.1 := by
      obtain ⟨symbol, call⟩ := c
      cases call with
      | done outcome =>
        rw [← Option.some.inj ho]
      | waiting => contradiction
      | running => contradiction
    rw [List.map_cons, List.map_cons, hfst, ih hg']

/-! ## The dictionaries -/

/-- The three dictionaries of a `BatchResult`. -/
inductive Place where
  | ok
  | degraded
  | failed
deriving DecidableEq

/-- Where an outcome goes. -/
def Outcome.place (warnings : φ → List String) : Outcome φ ε → Place
  | raised _ => .failed
  | frame df => if warnings df ≠ [] then .degraded else .ok

namespace BatchResult

/-- The symbol is in the dictionary. -/
def Holds (r : BatchResult φ ε) (symbol : String) : Place → Prop
  | .ok => symbol ∈ r.ok
  | .degraded => symbol ∈ r.degraded
  | .failed => symbol ∈ r.failed

/-- An outcome puts its symbol in one dictionary. -/
theorem holds_add (warnings : φ → List String) (r : BatchResult φ ε) (symbol s : String)
    (o : Outcome φ ε) (p : Place) :
    (r.add warnings (symbol, o)).Holds s p ↔ (s = symbol ∧ o.place warnings = p) ∨ r.Holds s p := by
  cases o with
  | raised error => cases p <;> simp [add, Holds, Outcome.place, AList.mem_insert]
  | frame df =>
    by_cases h : warnings df = []
    · cases p <;> simp [add, Holds, Outcome.place, h, AList.mem_insert]
    · cases p <;> simp [add, Holds, Outcome.place, h, AList.mem_insert]

theorem requested_add (warnings : φ → List String) (r : BatchResult φ ε)
    (c : String × Outcome φ ε) : (r.add warnings c).requested = r.requested := by
  obtain ⟨symbol, o⟩ := c
  cases o with
  | raised error => rfl
  | frame df =>
    simp only [add]
    split <;> rfl

/-- A dictionary after a loop of assignments. -/
theorem mem_foldl_insert {β : Type} (xs : List (Σ _ : String, β × List String))
    (d : AList fun _ : String => β) (s : String) :
    s ∈ xs.foldl (fun merged e => merged.insert e.1 e.2.1) d ↔ s ∈ d ∨ s ∈ xs.map Sigma.fst := by
  induction xs generalizing d with
  | nil => simp
  | cons e xs ih =>
    rw [List.foldl_cons, ih, AList.mem_insert, List.map_cons, List.mem_cons]
    tauto

/-- `data()` holds what is not failed. -/
theorem mem_data (r : BatchResult φ ε) (s : String) :
    s ∈ r.data ↔ r.Holds s .ok ∨ r.Holds s .degraded := by
  unfold data
  rw [mem_foldl_insert]
  rfl

/-- The keys of the three dictionaries. -/
def keys (r : BatchResult φ ε) : List String := r.ok.keys ++ r.degraded.keys ++ r.failed.keys

theorem mem_keys (r : BatchResult φ ε) (s : String) : s ∈ r.keys ↔ ∃ p, r.Holds s p := by
  unfold keys
  rw [List.mem_append, List.mem_append, ← AList.mem_keys, ← AList.mem_keys, ← AList.mem_keys]
  constructor
  · rintro ((h | h) | h)
    · exact ⟨.ok, h⟩
    · exact ⟨.degraded, h⟩
    · exact ⟨.failed, h⟩
  · rintro ⟨p, h⟩
    cases p with
    | ok => exact .inl (.inl h)
    | degraded => exact .inl (.inr h)
    | failed => exact .inr h

/-- A symbol that is in one dictionary only is one key. -/
theorem nodup_keys {r : BatchResult φ ε}
    (h : ∀ s p q, r.Holds s p → r.Holds s q → p = q) : r.keys.Nodup := by
  unfold keys
  refine List.Nodup.append (List.Nodup.append r.ok.keys_nodup r.degraded.keys_nodup ?_)
    r.failed.keys_nodup ?_
  · intro s hok hdegraded
    have := h s .ok .degraded (AList.mem_keys.mpr hok) (AList.mem_keys.mpr hdegraded)
    contradiction
  · intro s hdata hfailed
    rcases List.mem_append.mp hdata with hok | hdegraded
    · have := h s .ok .failed (AList.mem_keys.mpr hok) (AList.mem_keys.mpr hfailed)
      contradiction
    · have := h s .degraded .failed (AList.mem_keys.mpr hdegraded) (AList.mem_keys.mpr hfailed)
      contradiction

end BatchResult

/-- Every outcome is where it belongs, and nothing else is. -/
theorem holds_collect (warnings : φ → List String) (symbols : List String)
    (g : List (String × Outcome φ ε)) (s : String) (p : Place) :
    (collect warnings symbols g).Holds s p ↔ ∃ o, (s, o) ∈ g ∧ o.place warnings = p := by
  have hfold : ∀ r : BatchResult φ ε, (g.foldl (BatchResult.add warnings) r).Holds s p ↔
      (∃ o, (s, o) ∈ g ∧ o.place warnings = p) ∨ r.Holds s p := by
    induction g with
    | nil => simp
    | cons c g ih =>
      intro r
      obtain ⟨symbol, o⟩ := c
      rw [List.foldl_cons, ih, BatchResult.holds_add]
      constructor
      · rintro (⟨o', ho', hp⟩ | ⟨rfl, hp⟩ | h)
        · exact .inl ⟨o', List.mem_cons_of_mem _ ho', hp⟩
        · exact .inl ⟨o, by simp, hp⟩
        · exact .inr h
      · rintro (⟨o', ho', hp⟩ | h)
        · rcases List.mem_cons.mp ho' with heq | hmem
          · injection heq with hs ho
            exact .inr (.inl ⟨hs, ho ▸ hp⟩)
          · exact .inl ⟨o', hmem, hp⟩
        · exact .inr (.inr h)
  have hempty : ¬ (⟨∅, ∅, ∅, symbols.length⟩ : BatchResult φ ε).Holds s p := by
    cases p <;> exact AList.notMem_empty s
  unfold collect
  rw [hfold]
  exact or_iff_left hempty

theorem requested_collect (warnings : φ → List String) (symbols : List String)
    (g : List (String × Outcome φ ε)) :
    (collect warnings symbols g).requested = symbols.length := by
  have hfold : ∀ r : BatchResult φ ε,
      (g.foldl (BatchResult.add warnings) r).requested = r.requested := by
    induction g with
    | nil => exact fun _ => rfl
    | cons c g ih =>
      intro r
      rw [List.foldl_cons, ih, BatchResult.requested_add]
  exact hfold _

/-! ## The partition -/

/-- The result partitions the request. -/
structure Partitions (symbols : List String) (r : BatchResult φ ε) : Prop where
  one : ∀ s ∈ symbols, ∃! p, r.Holds s p
  only : ∀ s p, r.Holds s p → s ∈ symbols
  requested : r.requested = symbols.length
  sizes : r.ok.keys.length + r.degraded.keys.length + r.failed.keys.length = r.requested
  data : ∀ s, s ∈ r.data ↔ r.Holds s .ok ∨ r.Holds s .degraded

/-- The result of a batch partitions the request exactly when no symbol was asked for twice. -/
theorem partitions_collect_iff (warnings : φ → List String) (symbols : List String)
    (g : List (String × Outcome φ ε)) (hg : g.map Prod.fst = symbols) :
    Partitions symbols (collect warnings symbols g) ↔ symbols.Nodup := by
  have hholds := holds_collect warnings symbols g
  have honly : ∀ s p, (collect warnings symbols g).Holds s p → s ∈ symbols := by
    intro s p h
    obtain ⟨o, ho, -⟩ := (hholds s p).mp h
    rw [← hg]
    exact List.mem_map.mpr ⟨(s, o), ho, rfl⟩
  have hplaced : ∀ s ∈ symbols, ∃ p, (collect warnings symbols g).Holds s p := by
    intro s hs
    rw [← hg] at hs
    obtain ⟨⟨s', o⟩, ho, rfl⟩ := List.mem_map.mp hs
    exact ⟨o.place warnings, (hholds s' _).mpr ⟨o, ho, rfl⟩⟩
  have hmem : ∀ s, s ∈ (collect warnings symbols g).keys ↔ s ∈ symbols := by
    intro s
    rw [BatchResult.mem_keys]
    exact ⟨fun ⟨p, h⟩ => honly s p h, hplaced s⟩
  have hrequested := requested_collect warnings symbols g
  have hlength : (collect warnings symbols g).keys.length =
      (collect warnings symbols g).ok.keys.length +
        (collect warnings symbols g).degraded.keys.length +
        (collect warnings symbols g).failed.keys.length := by
    unfold BatchResult.keys
    rw [List.length_append, List.length_append]
  constructor
  · intro h
    -- as many keys as symbols, and no key twice
    have hnodup : (collect warnings symbols g).keys.Nodup :=
      BatchResult.nodup_keys fun s p q hp hq => (h.one s (h.only s p hp)).unique hp hq
    have hsubperm : (collect warnings symbols g).keys.Subperm symbols :=
      hnodup.subperm fun s hs => (hmem s).mp hs
    have hcount : symbols.length ≤ (collect warnings symbols g).keys.length := by
      rw [hlength, h.sizes, hrequested]
    exact (hsubperm.perm_of_length_le hcount).nodup_iff.mp hnodup
  · intro h
    have hunique : ∀ s p q, (collect warnings symbols g).Holds s p →
        (collect warnings symbols g).Holds s q → p = q := by
      intro s p q hp hq
      obtain ⟨o, ho, rfl⟩ := (hholds s p).mp hp
      obtain ⟨o', ho', rfl⟩ := (hholds s q).mp hq
      rw [← hg] at h
      have heq := List.inj_on_of_nodup_map h ho ho' rfl
      rw [(Prod.mk.inj heq).2]
    have hperm := (List.perm_ext_iff_of_nodup (BatchResult.nodup_keys hunique) h).mpr hmem
    refine ⟨?_, honly, hrequested, ?_, BatchResult.mem_data _⟩
    · intro s hs
      obtain ⟨p, hp⟩ := hplaced s hs
      exact ⟨p, hp, fun q hq => hunique s q p hq hp⟩
    · rw [← hlength, hperm.length_eq, hrequested]

/-- `fetch_many` returns what it collects of the gathered outcomes. -/
theorem fetchMany_eq_ok {warnings : φ → List String} {route : String}
    {ensureCapabilities : Except RouterError Unit} {symbols : List String} {calls : Calls φ ε}
    {result : BatchResult φ ε}
    (h : fetchMany warnings route ensureCapabilities symbols calls = some (.ok result)) :
    ∃ g, gathered calls = some g ∧ collect warnings symbols g = result := by
  unfold fetchMany at h
  split at h
  · cases h
  · cases ensureCapabilities with
    | error e => cases h
    | ok _ =>
      obtain ⟨g, hg, hcollect⟩ := Option.map_eq_some_iff.mp h
      injection hcollect with hcollect
      exact ⟨g, hg, hcollect⟩

/-- However the calls of a batch interleave and end, its result partitions the request exactly
when no symbol was asked for twice. -/
theorem fetchMany_partitions_iff (warnings : φ → List String) (route : String)
    (ensureCapabilities : Except RouterError Unit) (symbols : List String) (maxConcurrent : ℕ)
    (events : List (Event φ ε)) (calls : Calls φ ε) (result : BatchResult φ ε)
    (hrun : Transition.run (step maxConcurrent) (start symbols) events = some calls)
    (hresult : fetchMany warnings route ensureCapabilities symbols calls = some (.ok result)) :
    Partitions symbols result ↔ symbols.Nodup := by
  obtain ⟨g, hg, rfl⟩ := fetchMany_eq_ok hresult
  apply partitions_collect_iff
  rw [symbols_gathered hg, symbols_run hrun]

/-- Two symbols whose calls end in the other order, one with warnings and one with an error. -/
theorem fetchMany_partitions_two :
    let result : BatchResult (List String) String := collect id ["BTCUSDT", "ETHUSDT"]
      [("BTCUSDT", .frame ["2 rows have usd=NaN"]), ("ETHUSDT", .raised "timeout")]
    Partitions ["BTCUSDT", "ETHUSDT"] result ↔ ["BTCUSDT", "ETHUSDT"].Nodup :=
  fetchMany_partitions_iff id "candles" (.ok ()) ["BTCUSDT", "ETHUSDT"] 8
    [.enter 0, .enter 1, .finish 1 (.raised "timeout"), .finish 0 (.frame ["2 rows have usd=NaN"])]
    [("BTCUSDT", .done (.frame ["2 rows have usd=NaN"])), ("ETHUSDT", .done (.raised "timeout"))]
    _ rfl rfl

/-- A symbol asked for twice, whose first call ends in a frame and whose second one raises. -/
theorem fetchMany_not_partitions :
    ¬ ∀ (symbols : List String) (events : List (Event (List String) String))
      (calls : Calls (List String) String) (result : BatchResult (List String) String),
      Transition.run (step 8) (start symbols) events = some calls →
      fetchMany id "candles" (.ok ()) symbols calls = some (.ok result) →
      Partitions symbols result := by
  intro h
  let g : List (String × Outcome (List String) String) :=
    [("BTCUSDT", .frame []), ("BTCUSDT", .raised "timeout")]
  have hpartitions := h ["BTCUSDT", "BTCUSDT"]
    [.enter 0, .enter 1, .finish 0 (.frame []), .finish 1 (.raised "timeout")]
    [("BTCUSDT", .done (.frame [])), ("BTCUSDT", .done (.raised "timeout"))]
    (collect id ["BTCUSDT", "BTCUSDT"] g) rfl rfl
  have hholds := holds_collect id ["BTCUSDT", "BTCUSDT"] g "BTCUSDT"
  have hok := (hholds .ok).mpr ⟨.frame [], by simp [g], rfl⟩
  have hfailed := (hholds .failed).mpr ⟨.raised "timeout", by simp [g], rfl⟩
  have heq := (hpartitions.one "BTCUSDT" (by simp)).unique hok hfailed
  contradiction

end Batch
end ExchangeRouter
