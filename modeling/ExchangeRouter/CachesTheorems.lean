import ExchangeRouter.Caches
import Mathlib.Tactic.Linarith

/-!
# What the caches of an adapter keep

`Coherent` relates the log of a run to the store, the stamps and the fetches under way. Every
event keeps it, for any lawful store; the two caches of `base.py` are lawful.
-/

namespace ExchangeRouter
namespace Caches

variable {σ κ ℓ ρ α : Type}

/-! ## Stores -/

section Stores

variable [DecidableEq κ]

/-- What the writes of a store leave to be read. -/
structure Store.Lawful (S : Store σ κ ρ α) : Prop where
  cached_commit : ∀ d key now value,
    S.cached (S.commit d key now value) = Function.update (S.cached d) key (some value)
  stamp_commit : ∀ d key now value,
    S.stamp (S.commit d key now value) = Function.update (S.stamp d) key now
  cached_postpone : ∀ d key now value, S.cached d key = some value →
    S.cached (S.postpone d key now value) = S.cached d
  stamp_postpone : ∀ d key now value, S.stamp (S.postpone d key now value) =
    Function.update (S.stamp d) key (now - infoRefresh + infoRetry)

/-- The margin cache is a store in the sense of the model. -/
lemma marginCache_lawful : (marginCache : Store (κ → Option (ℚ × ρ × ℤ)) κ ρ _).Lawful := by
  refine ⟨fun d key now value => ?_, fun d key now value => ?_, fun d key now value h => ?_,
    fun d key now value => ?_⟩
  all_goals
    ext1 key'
    by_cases hkey : key' = key
    · subst hkey
      simp_all [marginCache]
    · simp [marginCache, hkey]

/-- So is the cache of exchange infos. -/
lemma infoCache_lawful {ι : Type} (symbol : ι → String) :
    (infoCache symbol : Store (InfoDicts κ ι) κ (List ι) _).Lawful := by
  refine ⟨fun d key now value => ?_, fun d key now value => ?_, fun d key now value h => ?_,
    fun d key now value => ?_⟩
  all_goals
    ext1 key'
    by_cases hkey : key' = key
    · subst hkey
      simp [infoCache]
    · simp [infoCache, hkey]

end Stores

/-! ## The log -/

/-- Each entry of a log, against what came before it. -/
def EachEntry (good : List (Entry κ ρ α) → Entry κ ρ α → Prop) : List (Entry κ ρ α) → Prop
  | [] => True
  | entry :: earlier => good earlier entry ∧ EachEntry good earlier

lemma EachEntry.of_append {good : List (Entry κ ρ α) → Entry κ ρ α → Prop}
    {log later earlier : List (Entry κ ρ α)} {entry : Entry κ ρ α} (h : EachEntry good log)
    (hlog : log = later ++ entry :: earlier) : good earlier entry := by
  subst hlog
  induction later with
  | nil => exact h.1
  | cons e later ih => exact ih h.2

section Log

variable [DecidableEq κ]

/-- What may be said of an entry when it is made. -/
def Good (S : Store σ κ ρ α) (earlier : List (Entry κ ρ α)) : Entry κ ρ α → Prop
  | .hit _ key time value => lastSuccess S key earlier = some value ∧
    ∀ call start finish result wall, .succeeded call key start finish result wall ∈ earlier →
      time < start + infoRefresh → value = S.record result wall
  | .started _ key start => flight key earlier = none ∧
    (∀ call start' finish result wall, .succeeded call key start' finish result wall ∈ earlier →
      start' + infoRefresh ≤ start) ∧
    ∀ call start' value, .failed call key start' (some value) ∈ earlier →
      start' + infoRetry ≤ start
  | .failed _ key _ value => value = lastSuccess S key earlier
  | _ => True

/-- A key that has a success keeps one. -/
lemma lastSuccess_isSome_cons {S : Store σ κ ρ α} {key : κ} {log : List (Entry κ ρ α)}
    (entry : Entry κ ρ α) (h : (lastSuccess S key log).isSome) :
    (lastSuccess S key (entry :: log)).isSome := by
  cases entry with
  | succeeded call key' start finish result wall =>
    unfold lastSuccess
    split
    · rfl
    · exact h
  | _ => exact h

/-- A key with a success in the log has a last one. -/
lemma lastSuccess_isSome_of_mem {S : Store σ κ ρ α} {key : κ} {log : List (Entry κ ρ α)}
    {call : ℕ} {start finish wall : ℚ} {result : ρ}
    (h : .succeeded call key start finish result wall ∈ log) :
    (lastSuccess S key log).isSome := by
  induction log with
  | nil => simp at h
  | cons entry log ih =>
    rcases List.mem_cons.mp h with heq | hmem
    · rw [← heq]
      simp [lastSuccess]
    · exact lastSuccess_isSome_cons entry (ih hmem)

/-- Entries that are neither a success nor the failure of a refresh. -/
def Entry.quiet : Entry κ ρ α → Prop
  | .succeeded .. => False
  | .failed _ _ _ (some _) => False
  | _ => True

/-- Other entries leave the last success as it was. -/
lemma lastSuccess_cons_quiet (S : Store σ κ ρ α) (key : κ) {entry : Entry κ ρ α}
    (h : entry.quiet) (log : List (Entry κ ρ α)) :
    lastSuccess S key (entry :: log) = lastSuccess S key log := by
  cases entry with
  | succeeded => exact absurd h id
  | _ => rfl

end Log

/-! ## The invariant -/

section Invariant

variable [DecidableEq κ]

/-- The log of a state, its store and its fetches. -/
structure Coherent (S : Store σ κ ρ α) (lockOf : κ → ℓ) (s : State σ κ ℓ ρ α) : Prop where
  good : EachEntry (Good S) s.log
  tables : ∀ key, S.cached s.store key = lastSuccess S key s.log
  /-- A success is never younger than the stamp of its key. -/
  stamped : ∀ call key start finish result wall,
    .succeeded call key start finish result wall ∈ s.log → start ≤ S.stamp s.store key
  postponed : ∀ call key start value, .failed call key start (some value) ∈ s.log →
    (lastSuccess S key s.log).isSome ∧ start + infoRetry ≤ S.stamp s.store key + infoRefresh
  /-- A success is the last one of its key, or its period is over. -/
  outdated : ∀ call key start finish result wall,
    .succeeded call key start finish result wall ∈ s.log →
      lastSuccess S key s.log = some (S.record result wall) ∨ start + infoRefresh ≤ s.now
  /-- A fetch under way: its lock, its locals, and that its refresh was due. -/
  fetches : ∀ l f, (s.locks l).fetching = some f → lockOf f.key = l ∧
    f.cached = S.cached s.store f.key ∧ f.start ≤ s.now ∧
    ∀ value, f.cached = some value → S.stamp s.store f.key + infoRefresh ≤ f.start
  idle : ∀ key, (∀ f, (s.locks (lockOf key)).fetching = some f → f.key ≠ key) →
    flight key s.log = none

variable {S : Store σ κ ρ α} {lockOf : κ → ℓ}

/-- Before the first call. -/
lemma coherent_init {now : ℚ} {store : σ} (hstore : ∀ key, S.cached store key = none) :
    Coherent S lockOf { now := now, store := store } := by
  refine ⟨trivial, fun key => ?_, ?_, ?_, ?_, ?_, fun _ _ => rfl⟩
  · rw [hstore key]
    rfl
  all_goals intros; simp_all

/-- The invariant reads neither the waiters nor the number of calls, and time may go by. -/
lemma Coherent.of_same {s s' : State σ κ ℓ ρ α} (h : Coherent S lockOf s) (hnow : s.now ≤ s'.now)
    (hstore : s'.store = s.store) (hlog : s'.log = s.log)
    (hfetching : ∀ l, (s'.locks l).fetching = (s.locks l).fetching) : Coherent S lockOf s' where
  good := hlog ▸ h.good
  tables := hlog ▸ hstore ▸ h.tables
  stamped := hlog ▸ hstore ▸ h.stamped
  postponed := hlog ▸ hstore ▸ h.postponed
  outdated := by
    intro call key start finish result wall hmem
    rw [hlog] at hmem ⊢
    apply (h.outdated call key start finish result wall hmem).imp_right
    intro hle
    exact le_trans hle hnow
  fetches := by
    intro l f hf
    obtain ⟨hlock, hcached, hstart, hdue⟩ := h.fetches l f (hfetching l ▸ hf)
    rw [hstore]
    exact ⟨hlock, hcached, le_trans hstart hnow, hdue⟩
  idle := by
    intro key hidle
    rw [hlog]
    exact h.idle key fun f hf => hidle f (hfetching _ ▸ hf)

/-- A quiet entry, with the fetches that there are after it. -/
lemma Coherent.of_quiet {s s' : State σ κ ℓ ρ α} (h : Coherent S lockOf s)
    {entry : Entry κ ρ α} (hquiet : entry.quiet) (hgood : Good S s.log entry)
    (hnow : s'.now = s.now) (hstore : s'.store = s.store) (hlog : s'.log = entry :: s.log)
    (hfetches : ∀ l f, (s'.locks l).fetching = some f → lockOf f.key = l ∧
      f.cached = S.cached s.store f.key ∧ f.start ≤ s.now ∧
      ∀ value, f.cached = some value → S.stamp s.store f.key + infoRefresh ≤ f.start)
    (hidle : ∀ key, (∀ f, (s'.locks (lockOf key)).fetching = some f → f.key ≠ key) →
      flight key (entry :: s.log) = none) : Coherent S lockOf s' where
  good := by
    rw [hlog]
    exact ⟨hgood, h.good⟩
  tables := by
    intro key
    rw [hlog, hstore, lastSuccess_cons_quiet S key hquiet, h.tables key]
  stamped := by
    intro call key start finish result wall hmem
    rw [hlog] at hmem
    rw [hstore]
    rcases List.mem_cons.mp hmem with heq | hmem
    · rw [← heq] at hquiet
      exact absurd hquiet id
    · exact h.stamped call key start finish result wall hmem
  postponed := by
    intro call key start value hmem
    rw [hlog] at hmem
    rw [hstore, hlog, lastSuccess_cons_quiet S key hquiet]
    rcases List.mem_cons.mp hmem with heq | hmem
    · rw [← heq] at hquiet
      exact absurd hquiet id
    · exact h.postponed call key start value hmem
  outdated := by
    intro call key start finish result wall hmem
    rw [hlog] at hmem
    rw [hlog, hnow, lastSuccess_cons_quiet S key hquiet]
    rcases List.mem_cons.mp hmem with heq | hmem
    · rw [← heq] at hquiet
      exact absurd hquiet id
    · exact h.outdated call key start finish result wall hmem
  fetches := by
    rw [hstore, hnow]
    exact hfetches
  idle := by
    rw [hlog]
    exact hidle

/-- What waits or is served from the cache leaves the fetches alone. -/
lemma Coherent.note {s : State σ κ ℓ ρ α} (h : Coherent S lockOf s) {entry : Entry κ ρ α}
    (hquiet : entry.quiet) (hgood : Good S s.log entry)
    (hflight : ∀ key, flight key (entry :: s.log) = flight key s.log) :
    Coherent S lockOf (s.note entry) :=
  h.of_quiet hquiet hgood rfl rfl rfl h.fetches fun key hidle => by
    rw [hflight key]
    exact h.idle key hidle

/-- An entry made after another one. -/
lemma good_of_later {s : State σ κ ℓ ρ α} (h : Coherent S lockOf s)
    {later earlier : List (Entry κ ρ α)} {old entry : Entry κ ρ α}
    (hlog : s.log = later ++ old :: earlier) (hmem : entry ∈ later) :
    ∃ before, old ∈ before ∧ Good S before entry := by
  obtain ⟨after, between, rfl⟩ := List.append_of_mem hmem
  refine ⟨between ++ old :: earlier, by simp, ?_⟩
  have hsplit : s.log = after ++ entry :: (between ++ old :: earlier) := by
    rw [hlog, List.append_assoc, List.cons_append]
  exact h.good.of_append hsplit

end Invariant

/-! ## The events -/

section Events

variable [DecidableEq ℓ]

lemma fetching_setFetching (s : State σ κ ℓ ρ α) (l l' : ℓ) (f : Option (Fetch κ α)) :
    ((s.setFetching l f).locks l').fetching = if l' = l then f else (s.locks l').fetching := by
  by_cases hl : l' = l
  · subst hl
    simp [State.setFetching]
  · simp [State.setFetching, hl]

lemma fetching_setWaiting (s : State σ κ ℓ ρ α) (l l' : ℓ) (waiting : List (ℕ × κ)) :
    ((s.setWaiting l waiting).locks l').fetching = (s.locks l').fetching := by
  by_cases hl : l' = l
  · subst hl
    simp [State.setWaiting]
  · simp [State.setWaiting, hl]

lemma waiting_setFetching (s : State σ κ ℓ ρ α) (l l' : ℓ) (f : Option (Fetch κ α)) :
    ((s.setFetching l f).locks l').waiting = (s.locks l').waiting := by
  by_cases hl : l' = l
  · subst hl
    simp [State.setFetching]
  · simp [State.setFetching, hl]

lemma waiting_setWaiting (s : State σ κ ℓ ρ α) (l l' : ℓ) (waiting : List (ℕ × κ)) :
    ((s.setWaiting l waiting).locks l').waiting =
      if l' = l then waiting else (s.locks l').waiting := by
  by_cases hl : l' = l
  · subst hl
    simp [State.setWaiting]
  · simp [State.setWaiting, hl]

/-- The fetches that are left when the one of lock `l` has ended. -/
lemma fetching_ended {s : State σ κ ℓ ρ α} {l l' : ℓ} {f : Fetch κ α}
    (hf : ((s.setFetching l none).locks l').fetching = some f) :
    l' ≠ l ∧ (s.locks l').fetching = some f := by
  rw [fetching_setFetching] at hf
  split at hf
  · exact absurd hf (by simp)
  · next hl => exact ⟨hl, hf⟩

/-! ### The waiters -/

section Waiters

variable {S : Store σ κ ρ α} {lockOf : κ → ℓ}

/-- A call that comes in writes nothing. -/
lemma store_enter (s : State σ κ ℓ ρ α) (call : ℕ) (key : κ) :
    (s.enter S lockOf call key).store = s.store := by
  unfold State.enter
  split
  · split <;> rfl
  · rfl

/-- A call waits for the lock of its key. -/
def Queued (lockOf : κ → ℓ) (s : State σ κ ℓ ρ α) : Prop :=
  ∀ l w, w ∈ (s.locks l).waiting → lockOf w.2 = l

lemma waiting_enter (s : State σ κ ℓ ρ α) (call : ℕ) (key : κ) (l : ℓ) :
    ((s.enter S lockOf call key).locks l).waiting = (s.locks l).waiting := by
  unfold State.enter
  split
  · split
    · rfl
    · exact waiting_setFetching s _ l _
  · exact waiting_setFetching s _ l _

lemma waiting_finish (s : State σ κ ℓ ρ α) (l l' : ℓ) (f : Fetch κ α) (outcome : Outcome ρ) :
    ((s.finish S l f outcome).locks l').waiting = (s.locks l').waiting := by
  cases outcome with
  | fetched result wall => exact waiting_setFetching s l l' none
  | cancelled => exact waiting_setFetching s l l' none
  | failed =>
    unfold State.finish
    cases f.cached <;> exact waiting_setFetching s l l' none

/-- A queue of one lock is replaced by another of it. -/
lemma Queued.setWaiting {s : State σ κ ℓ ρ α} (h : Queued lockOf s) {l : ℓ}
    {waiting : List (ℕ × κ)} (hwaiting : ∀ w ∈ waiting, lockOf w.2 = l) :
    Queued lockOf (s.setWaiting l waiting) := by
  intro l' w hw
  rw [waiting_setWaiting] at hw
  split at hw
  · next hl =>
    rw [hl]
    exact hwaiting w hw
  · exact h l' w hw

/-- Who waits for a lock has a key of it. -/
lemma Queued.preserved {s s' : State σ κ ℓ ρ α} (h : Queued lockOf s) {e : Event κ ℓ ρ}
    (hstep : step S lockOf s e = some s') : Queued lockOf s' := by
  cases e with
  | call key =>
    simp only [step] at hstep
    split at hstep
    · rw [Option.some.injEq] at hstep
      rw [← hstep]
      intro l w hw
      rw [waiting_enter] at hw
      exact h l w hw
    · next waiting heq _ =>
      rw [Option.some.injEq] at hstep
      rw [← hstep]
      apply Queued.setWaiting (s := { s with calls := s.calls + 1 }) h
      intro w hw
      rcases List.mem_append.mp hw with hw | hw
      · exact h _ w hw
      · rw [List.mem_singleton.mp hw]
  | turn l =>
    simp only [step] at hstep
    split at hstep
    · next call key waiting hfree hwaiting =>
      rw [Option.some.injEq] at hstep
      rw [← hstep]
      have hrest : Queued lockOf (s.setWaiting l waiting) :=
        h.setWaiting fun w hw => h l w (by rw [hwaiting]; exact List.mem_cons_of_mem _ hw)
      intro l' w hw
      rw [waiting_enter] at hw
      exact hrest l' w hw
    · exact absurd hstep (by simp)
  | ends l outcome =>
    simp only [step] at hstep
    split at hstep
    · rw [Option.some.injEq] at hstep
      rw [← hstep]
      intro l' w hw
      rw [waiting_finish] at hw
      exact h l' w hw
    · exact absurd hstep (by simp)
  | cancel l call =>
    simp only [step, Option.some.injEq] at hstep
    rw [← hstep]
    exact h.setWaiting fun w hw => h l w (List.mem_of_mem_filter hw)
  | tick now =>
    simp only [step] at hstep
    split at hstep
    · rw [Option.some.injEq] at hstep
      rw [← hstep]
      exact h
    · exact absurd hstep (by simp)

end Waiters

/-! ### The invariant of the log -/

variable [DecidableEq κ] {S : Store σ κ ρ α} {lockOf : κ → ℓ}

lemma Coherent.setWaiting {s : State σ κ ℓ ρ α} (h : Coherent S lockOf s) (l : ℓ)
    (waiting : List (ℕ × κ)) : Coherent S lockOf (s.setWaiting l waiting) :=
  h.of_same le_rfl rfl rfl (fetching_setWaiting s l · waiting)

/-- A fetch that begins under a free lock, when it is due. -/
lemma Coherent.begin {s : State σ κ ℓ ρ α} (h : Coherent S lockOf s) {key : κ}
    (hfree : (s.locks (lockOf key)).fetching = none)
    (hdue : ∀ value, S.cached s.store key = some value →
      S.stamp s.store key + infoRefresh ≤ s.now) (call : ℕ) :
    Coherent S lockOf (s.begin lockOf call key (S.cached s.store key)) := by
  have hgood : Good S s.log (.started call key s.now) := by
    refine ⟨h.idle key fun f hf => by simp [hfree] at hf, ?_, ?_⟩
    · intro call' start finish result wall hmem
      obtain ⟨value, hvalue⟩ := Option.isSome_iff_exists.mp (lastSuccess_isSome_of_mem (S := S) hmem)
      have hstamp := h.stamped call' key start finish result wall hmem
      have hnow := hdue value (by rw [h.tables, hvalue])
      linarith
    · intro call' start value hmem
      obtain ⟨hsome, hstamp⟩ := h.postponed call' key start value hmem
      obtain ⟨value', hvalue⟩ := Option.isSome_iff_exists.mp hsome
      have hnow := hdue value' (by rw [h.tables, hvalue])
      linarith
  have hquiet : (.started call key s.now : Entry κ ρ α).quiet := trivial
  refine h.of_quiet hquiet hgood rfl rfl rfl ?_ ?_
  · intro l f hf
    have hf' : ((s.setFetching (lockOf key) _).locks l).fetching = some f := hf
    rw [fetching_setFetching] at hf'
    split at hf'
    · next hl =>
      rw [Option.some.injEq] at hf'
      subst hf'
      exact ⟨hl.symm, rfl, le_rfl, hdue⟩
    · exact h.fetches l f hf'
  · intro key' hidle
    have hidle' : ∀ f, ((s.setFetching (lockOf key) _).locks (lockOf key')).fetching = some f →
        f.key ≠ key' := hidle
    unfold flight
    split
    · next hkey =>
      subst hkey
      exact absurd rfl (hidle' _ (by rw [fetching_setFetching, if_pos rfl]))
    · apply h.idle
      intro f hf
      by_cases hl : lockOf key' = lockOf key
      · rw [hl, hfree] at hf
        exact absurd hf (by simp)
      · exact hidle' f (by rw [fetching_setFetching, if_neg hl, hf])

/-- The body under a free lock. -/
lemma Coherent.enter {s : State σ κ ℓ ρ α} (h : Coherent S lockOf s) {key : κ}
    (hfree : (s.locks (lockOf key)).fetching = none) (call : ℕ) :
    Coherent S lockOf (s.enter S lockOf call key) := by
  unfold State.enter
  split
  · next value hvalue =>
    split
    · have hlast : lastSuccess S key s.log = some value := by rw [← h.tables, hvalue]
      have hquiet : (.hit call key s.now value : Entry κ ρ α).quiet := trivial
      refine h.note hquiet ⟨hlast, ?_⟩ fun _ => rfl
      intro call' start finish result wall hmem htime
      rcases h.outdated call' key start finish result wall hmem with hlast' | hover
      · rw [hlast, Option.some.injEq] at hlast'
        exact hlast'
      · exact absurd htime (not_lt.mpr hover)
    · next hstale =>
      rw [← hvalue]
      apply h.begin hfree
      intro _ _
      linarith
  · next hnone =>
    rw [← hnone]
    apply h.begin hfree
    intro value hvalue
    simp [hnone] at hvalue

/-- No fetch for a key is under way once the one that had its lock has ended. -/
lemma Coherent.flight_ended {s : State σ κ ℓ ρ α} (h : Coherent S lockOf s) {l : ℓ}
    {f : Fetch κ α} (hf : (s.locks l).fetching = some f) {key : κ} (hkey : f.key ≠ key)
    (hidle : ∀ f', ((s.setFetching l none).locks (lockOf key)).fetching = some f' →
      f'.key ≠ key) : flight key s.log = none := by
  apply h.idle
  intro f' hf'
  by_cases hl : lockOf key = l
  · rw [hl, hf, Option.some.injEq] at hf'
    rwa [← hf']
  · exact hidle f' (by rw [fetching_setFetching, if_neg hl, hf'])

/-- A fetch that ends with nothing written. -/
lemma Coherent.ended {s : State σ κ ℓ ρ α} (h : Coherent S lockOf s) {l : ℓ} {f : Fetch κ α}
    (hf : (s.locks l).fetching = some f) {entry : Entry κ ρ α} (hquiet : entry.quiet)
    (hgood : Good S s.log entry)
    (hflight : ∀ key, flight key (entry :: s.log) =
      if f.key = key then none else flight key s.log) :
    Coherent S lockOf ((s.setFetching l none).note entry) := by
  refine h.of_quiet hquiet hgood rfl rfl rfl ?_ ?_
  · intro l' f' hf'
    exact h.fetches l' f' (fetching_ended hf').2
  · intro key hidle
    rw [hflight key]
    split
    · rfl
    · next hkey => exact h.flight_ended hf hkey hidle

/-- The other fetches, when what is written is for the key of the one that ended. -/
lemma Coherent.fetches_other {s : State σ κ ℓ ρ α} (h : Coherent S lockOf s) {l l' : ℓ}
    {f f' : Fetch κ α} (hf : (s.locks l).fetching = some f)
    (hf' : ((s.setFetching l none).locks l').fetching = some f') : f'.key ≠ f.key := by
  obtain ⟨hl, hold⟩ := fetching_ended hf'
  intro hkey
  have hlock' := (h.fetches l' f' hold).1
  have hlock := (h.fetches l f hf).1
  rw [hkey, hlock] at hlock'
  exact hl hlock'.symm

/-- A fetch that has read a value. -/
lemma Coherent.fetched {s : State σ κ ℓ ρ α} (hS : S.Lawful) (h : Coherent S lockOf s) {l : ℓ}
    {f : Fetch κ α} (hf : (s.locks l).fetching = some f) (result : ρ) (wall : ℚ) :
    Coherent S lockOf (s.finish S l f (.fetched result wall)) := by
  obtain ⟨hlock, hcached, hstart, hdue⟩ := h.fetches l f hf
  -- a success for the key is older than this fetch by the refresh period
  have hold : ∀ call start finish result wall,
      .succeeded call f.key start finish result wall ∈ s.log →
      S.stamp s.store f.key + infoRefresh ≤ f.start := by
    intro call start finish result wall hmem
    obtain ⟨value, hvalue⟩ := Option.isSome_iff_exists.mp (lastSuccess_isSome_of_mem (S := S) hmem)
    exact hdue value (by rw [hcached, h.tables, hvalue])
  refine ⟨⟨trivial, h.good⟩, fun key => ?_, ?_, ?_, ?_, ?_, ?_⟩
  · show S.cached (S.commit _ _ _ _) key = lastSuccess S key (_ :: s.log)
    rw [hS.cached_commit]
    unfold lastSuccess
    by_cases hkey : key = f.key
    · rw [hkey, Function.update_self, if_pos rfl]
    · rw [Function.update_of_ne hkey, if_neg (Ne.symm hkey), h.tables]
  · intro call key start finish result' wall' hmem
    show start ≤ S.stamp (S.commit _ _ _ _) key
    rw [hS.stamp_commit]
    rcases List.mem_cons.mp hmem with heq | hmem
    · simp only [Entry.succeeded.injEq] at heq
      rw [heq.2.1, heq.2.2.1, Function.update_self]
    · have hstamp := h.stamped call key start finish result' wall' hmem
      by_cases hkey : key = f.key
      · subst hkey
        have hdue' := hold call start finish result' wall' hmem
        rw [Function.update_self]
        unfold infoRefresh at hdue'
        linarith
      · rwa [Function.update_of_ne hkey]
  · intro call key start value hmem
    have hmem' : .failed call key start (some value) ∈ s.log := by
      rcases List.mem_cons.mp hmem with heq | hmem
      · exact absurd heq (by simp)
      · exact hmem
    obtain ⟨hsome, hstamp⟩ := h.postponed call key start value hmem'
    refine ⟨lastSuccess_isSome_cons _ hsome, ?_⟩
    show start + infoRetry ≤ S.stamp (S.commit _ _ _ _) key + infoRefresh
    rw [hS.stamp_commit]
    by_cases hkey : key = f.key
    · subst hkey
      obtain ⟨value', hvalue'⟩ := Option.isSome_iff_exists.mp hsome
      have hdue' := hdue value' (by rw [hcached, h.tables, hvalue'])
      rw [Function.update_self]
      unfold infoRefresh at *
      linarith
    · rwa [Function.update_of_ne hkey]
  · intro call key start finish result' wall' hmem
    show lastSuccess S key (_ :: s.log) = _ ∨ start + infoRefresh ≤ s.now
    unfold lastSuccess
    rcases List.mem_cons.mp hmem with heq | hmem
    · simp only [Entry.succeeded.injEq] at heq
      left
      rw [if_pos heq.2.1.symm, heq.2.2.2.2.1, heq.2.2.2.2.2]
    · split
      · next hkey =>
        subst hkey
        have hdue' := hold call start finish result' wall' hmem
        have hstamp := h.stamped call _ start finish result' wall' hmem
        right
        linarith
      · exact h.outdated call key start finish result' wall' hmem
  · intro l' f' hf'
    have hkey : f'.key ≠ f.key := h.fetches_other hf hf'
    show lockOf f'.key = l' ∧ f'.cached = S.cached (S.commit _ _ _ _) f'.key ∧ f'.start ≤ s.now ∧
      ∀ value, f'.cached = some value → S.stamp (S.commit _ _ _ _) f'.key + infoRefresh ≤ f'.start
    rw [hS.cached_commit, hS.stamp_commit, Function.update_of_ne hkey, Function.update_of_ne hkey]
    exact h.fetches l' f' (fetching_ended hf').2
  · intro key hidle
    show flight key (_ :: s.log) = none
    unfold flight
    split
    · rfl
    · next hkey => exact h.flight_ended hf hkey hidle

/-- A failed refresh of a key that was due moves its stamp forward, and no other. -/
lemma stamp_le_postpone (hS : S.Lawful) {store : σ} {key : κ} {now : ℚ}
    (hdue : S.stamp store key + infoRefresh ≤ now) (value : α) (key' : κ) :
    S.stamp store key' ≤ S.stamp (S.postpone store key now value) key' := by
  rw [hS.stamp_postpone]
  by_cases hkey : key' = key
  · rw [hkey, Function.update_self]
    have hretry : 0 ≤ infoRetry := by norm_num [infoRetry]
    linarith
  · rw [Function.update_of_ne hkey]

/-- A refresh that failed. -/
lemma Coherent.refreshFailed {s : State σ κ ℓ ρ α} (hS : S.Lawful) (h : Coherent S lockOf s)
    {l : ℓ} {f : Fetch κ α} (hf : (s.locks l).fetching = some f) {value : α}
    (hvalue : f.cached = some value) : Coherent S lockOf (s.finish S l f .failed) := by
  obtain ⟨hlock, hcached, hstart, hdue⟩ := h.fetches l f hf
  have htable : S.cached s.store f.key = some value := by rw [← hcached, hvalue]
  have hlast : lastSuccess S f.key s.log = some value := by rw [← h.tables, htable]
  have hmoves := stamp_le_postpone hS (hdue value hvalue) value
  -- the entry of the failure is that of no success
  have hsuccess : ∀ {call key start finish result wall},
      Entry.succeeded call key start finish result wall ∈
        Entry.failed f.call f.key f.start (some value) :: s.log →
      Entry.succeeded call key start finish result wall ∈ s.log := by
    intro call key start finish result wall hmem
    rcases List.mem_cons.mp hmem with heq | hmem
    · exact absurd heq (by simp)
    · exact hmem
  unfold State.finish
  rw [hvalue]
  refine ⟨⟨hlast.symm, h.good⟩, fun key => ?_, ?_, ?_, ?_, ?_, ?_⟩
  · show S.cached (S.postpone _ _ _ _) key = lastSuccess S key s.log
    rw [hS.cached_postpone _ _ _ _ htable, h.tables]
  · intro call key start finish result wall hmem
    show start ≤ S.stamp (S.postpone _ _ _ _) key
    exact (h.stamped call key start finish result wall (hsuccess hmem)).trans (hmoves key)
  · intro call key start value' hmem
    show (lastSuccess S key s.log).isSome ∧
      start + infoRetry ≤ S.stamp (S.postpone _ _ _ _) key + infoRefresh
    rcases List.mem_cons.mp hmem with heq | hmem
    · simp only [Entry.failed.injEq] at heq
      rw [heq.2.1, heq.2.2.1, hS.stamp_postpone, Function.update_self, hlast]
      exact ⟨rfl, by linarith⟩
    · obtain ⟨hsome, hstamp⟩ := h.postponed call key start value' hmem
      exact ⟨hsome, hstamp.trans (add_le_add_left (hmoves key) infoRefresh)⟩
  · intro call key start finish result wall hmem
    exact h.outdated call key start finish result wall (hsuccess hmem)
  · intro l' f' hf'
    have hkey : f'.key ≠ f.key := h.fetches_other hf hf'
    show lockOf f'.key = l' ∧ f'.cached = S.cached (S.postpone _ _ _ _) f'.key ∧ f'.start ≤ s.now ∧
      ∀ v, f'.cached = some v → S.stamp (S.postpone _ _ _ _) f'.key + infoRefresh ≤ f'.start
    rw [hS.cached_postpone _ _ _ _ htable, hS.stamp_postpone, Function.update_of_ne hkey]
    exact h.fetches l' f' (fetching_ended hf').2
  · intro key hidle
    show flight key (_ :: s.log) = none
    unfold flight
    split
    · rfl
    · next hkey => exact h.flight_ended hf hkey hidle

/-- The end of a fetch, whatever its outcome. -/
lemma Coherent.finish {s : State σ κ ℓ ρ α} (hS : S.Lawful) (h : Coherent S lockOf s) {l : ℓ}
    {f : Fetch κ α} (hf : (s.locks l).fetching = some f) (outcome : Outcome ρ) :
    Coherent S lockOf (s.finish S l f outcome) := by
  cases outcome with
  | fetched result wall => exact h.fetched hS hf result wall
  | cancelled =>
    have hquiet : (.cancelled f.call f.key : Entry κ ρ α).quiet := trivial
    exact h.ended hf hquiet trivial fun _ => rfl
  | failed =>
    cases hcached : f.cached with
    | some value => exact h.refreshFailed hS hf hcached
    | none =>
      have hquiet : (.failed f.call f.key f.start none : Entry κ ρ α).quiet := trivial
      have hlast : none = lastSuccess S f.key s.log := by
        rw [← h.tables, ← (h.fetches l f hf).2.1, hcached]
      unfold State.finish
      rw [hcached]
      exact h.ended hf hquiet hlast fun _ => rfl

/-- Every event keeps the invariant. -/
theorem Coherent.preserved {s s' : State σ κ ℓ ρ α} (hS : S.Lawful) (h : Coherent S lockOf s)
    (hqueued : Queued lockOf s) {e : Event κ ℓ ρ} (hstep : step S lockOf s e = some s') :
    Coherent S lockOf s' := by
  cases e with
  | call key =>
    have hcalls : Coherent S lockOf { s with calls := s.calls + 1 } :=
      h.of_same le_rfl rfl rfl fun _ => rfl
    simp only [step] at hstep
    split at hstep
    · next hfree _ =>
      rw [Option.some.injEq] at hstep
      rw [← hstep]
      exact hcalls.enter hfree _
    · next waiting _ _ =>
      rw [Option.some.injEq] at hstep
      rw [← hstep]
      have hquiet : (.waits s.calls key : Entry κ ρ α).quiet := trivial
      exact (hcalls.setWaiting _ _).note hquiet trivial fun _ => rfl
  | turn l =>
    simp only [step] at hstep
    split at hstep
    · next call key waiting hfree hwaiting =>
      rw [Option.some.injEq] at hstep
      rw [← hstep]
      have hlock : lockOf key = l :=
        hqueued l (call, key) (by rw [hwaiting]; exact List.mem_cons_self)
      refine (h.setWaiting l waiting).enter ?_ call
      rw [fetching_setWaiting, hlock, hfree]
    · exact absurd hstep (by simp)
  | ends l outcome =>
    simp only [step] at hstep
    split at hstep
    · next f hf =>
      rw [Option.some.injEq] at hstep
      rw [← hstep]
      exact h.finish hS hf outcome
    · exact absurd hstep (by simp)
  | cancel l call =>
    simp only [step, Option.some.injEq] at hstep
    rw [← hstep]
    exact h.setWaiting _ _
  | tick now =>
    simp only [step] at hstep
    split at hstep
    · next hle =>
      rw [Option.some.injEq] at hstep
      rw [← hstep]
      exact h.of_same hle rfl rfl fun _ => rfl
    · exact absurd hstep (by simp)

/-- What a run from an adapter's start keeps. -/
theorem coherent_of_run (hS : S.Lawful) {now : ℚ} {store : σ}
    (hstore : ∀ key, S.cached store key = none) {es : List (Event κ ℓ ρ)} {s : State σ κ ℓ ρ α}
    (hrun : Transition.run (step S lockOf) { now := now, store := store } es = some s) :
    Coherent S lockOf s ∧ Queued lockOf s := by
  have hpres : ∀ s e s', Coherent S lockOf s ∧ Queued lockOf s → step S lockOf s e = some s' →
      Coherent S lockOf s' ∧ Queued lockOf s' :=
    fun s e s' h hstep => ⟨h.1.preserved hS h.2 hstep, h.2.preserved hstep⟩
  exact Transition.invariant_of_run hpres
    ⟨coherent_init hstore, fun l w hw => by simp at hw⟩ hrun

/-! ## What a run promises -/

/-- What one event writes: nothing, or what a fetch that ends writes for its key. -/
lemma store_of_step {s s' : State σ κ ℓ ρ α} (h : Coherent S lockOf s) {e : Event κ ℓ ρ}
    (hstep : step S lockOf s e = some s') :
    s'.store = s.store ∨ ∃ f : Fetch κ α, s.keyOf e = some f.key ∧
      ((∃ value, s'.store = S.commit s.store f.key f.start value) ∨
        ∃ value, S.cached s.store f.key = some value ∧
          s'.store = S.postpone s.store f.key f.start value) := by
  cases e with
  | call key =>
    simp only [step] at hstep
    split at hstep
    · rw [Option.some.injEq] at hstep
      rw [← hstep, store_enter]
      exact Or.inl rfl
    · rw [Option.some.injEq] at hstep
      rw [← hstep]
      exact Or.inl rfl
  | turn l =>
    simp only [step] at hstep
    split at hstep
    · rw [Option.some.injEq] at hstep
      rw [← hstep, store_enter]
      exact Or.inl rfl
    · exact absurd hstep (by simp)
  | ends l outcome =>
    simp only [step] at hstep
    split at hstep
    · next f hf =>
      rw [Option.some.injEq] at hstep
      rw [← hstep]
      have hkey : s.keyOf (.ends l outcome) = some f.key := by simp [State.keyOf, hf]
      cases outcome with
      | cancelled => exact Or.inl rfl
      | fetched result wall => exact Or.inr ⟨f, hkey, Or.inl ⟨_, rfl⟩⟩
      | failed =>
        unfold State.finish
        cases hcached : f.cached with
        | none => exact Or.inl rfl
        | some value =>
          have htable : S.cached s.store f.key = some value := by
            rw [← (h.fetches l f hf).2.1, hcached]
          exact Or.inr ⟨f, hkey, Or.inr ⟨value, htable, rfl⟩⟩
    · exact absurd hstep (by simp)
  | cancel l call =>
    simp only [step, Option.some.injEq] at hstep
    rw [← hstep]
    exact Or.inl rfl
  | tick now =>
    simp only [step] at hstep
    split at hstep
    · rw [Option.some.injEq] at hstep
      rw [← hstep]
      exact Or.inl rfl
    · exact absurd hstep (by simp)

/-- A table that is there stays there. -/
lemma cached_isSome_of_step (hS : S.Lawful) {s s' : State σ κ ℓ ρ α} (h : Coherent S lockOf s)
    {e : Event κ ℓ ρ} (hstep : step S lockOf s e = some s') {key : κ}
    (hkey : (S.cached s.store key).isSome) : (S.cached s'.store key).isSome := by
  rcases store_of_step h hstep with heq | ⟨f, -, ⟨value, heq⟩ | ⟨value, hvalue, heq⟩⟩
  · rwa [heq]
  · rw [heq, hS.cached_commit]
    by_cases hf : key = f.key
    · rw [hf, Function.update_self]
      rfl
    · rwa [Function.update_of_ne hf]
  · rwa [heq, hS.cached_postpone _ _ _ _ hvalue]

/-- What is written is for the key of the event. -/
lemma store_other_of_step (hS : S.Lawful) {s s' : State σ κ ℓ ρ α} (h : Coherent S lockOf s)
    {e : Event κ ℓ ρ} (hstep : step S lockOf s e = some s') {key : κ}
    (hkey : s.keyOf e ≠ some key) :
    S.cached s'.store key = S.cached s.store key ∧ S.stamp s'.store key = S.stamp s.store key := by
  rcases store_of_step h hstep with heq | ⟨f, hf, hwritten⟩
  · rw [heq]
    exact ⟨rfl, rfl⟩
  · have hne : key ≠ f.key := fun hk => hkey (by rw [hf, hk])
    rcases hwritten with ⟨value, heq⟩ | ⟨value, hvalue, heq⟩
    · rw [heq, hS.cached_commit, hS.stamp_commit, Function.update_of_ne hne,
        Function.update_of_ne hne]
      exact ⟨rfl, rfl⟩
    · rw [heq, hS.cached_postpone _ _ _ _ hvalue, hS.stamp_postpone, Function.update_of_ne hne]
      exact ⟨rfl, rfl⟩

/-- What every run of a lawful store keeps. -/
theorem kept_of_run (hS : S.Lawful) {now : ℚ} {store : σ}
    (hstore : ∀ key, S.cached store key = none) {es : List (Event κ ℓ ρ)} {s : State σ κ ℓ ρ α}
    (hrun : Transition.run (step S lockOf) { now := now, store := store } es = some s) :
    Kept S (step S lockOf) s := by
  obtain ⟨h, hqueued⟩ := coherent_of_run hS hstore hrun
  refine ⟨?_, ?_, ?_, ?_, ?_, ?_, h.tables, ?_, ?_, ?_⟩
  · intro later earlier call key time value hlog
    exact (h.good.of_append hlog).1
  · intro later earlier call key start value hlog
    exact h.good.of_append hlog
  · intro later earlier call key start hlog
    exact (h.good.of_append hlog).2.1
  · intro later earlier call key start hlog
    exact (h.good.of_append hlog).2.2
  · intro later earlier call key start hlog
    exact (h.good.of_append hlog).1
  · intro later earlier call key start finish result wall hlog
    constructor
    · intro call' start' hmem
      obtain ⟨before, hold, hgood⟩ := good_of_later h hlog hmem
      exact hgood.2.1 call start finish result wall hold
    · intro call' time value hmem htime
      obtain ⟨before, hold, hgood⟩ := good_of_later h hlog hmem
      exact hgood.2 call start finish result wall hold htime
  · intro es' s' hrun' key hkey
    have hpres : ∀ s e s', (Coherent S lockOf s ∧ Queued lockOf s) ∧
        (S.cached s.store key).isSome → step S lockOf s e = some s' →
        (Coherent S lockOf s' ∧ Queued lockOf s') ∧ (S.cached s'.store key).isSome :=
      fun s e s' hs hstep => ⟨⟨hs.1.1.preserved hS hs.1.2 hstep, hs.1.2.preserved hstep⟩,
        cached_isSome_of_step hS hs.1.1 hstep hs.2⟩
    exact (Transition.invariant_of_run hpres ⟨⟨h, hqueued⟩, hkey⟩ hrun').2
  · intro l f s' hf hnone hstep
    have hcached : f.cached = none := by rw [(h.fetches l f hf).2.1, hnone]
    simp only [step, hf, State.finish, hcached, Option.some.injEq] at hstep
    rw [← hstep]
    exact ⟨rfl, rfl⟩
  · intro e s' hstep key hkey
    exact store_other_of_step hS h hstep hkey

end Events

/-! ## The two caches of `base.py` -/

/-- The adapter's dictionaries before its first call. -/
def marginStart {ρ : Type} (now : ℚ) : State (κ → Option (ℚ × ρ × ℤ)) κ κ ρ (ρ × ℤ) :=
  { now := now, store := fun _ => none }

/-- The same before the first call of `get_exchange_info_cached`. -/
def infoStart {ι : Type} (now : ℚ) :
    State (InfoDicts MarketType ι) MarketType Unit (List ι) (String → Option ι) :=
  { now := now, store := {} }

/-- Two calls of which the second waits, and a day later a refresh that fails. -/
def refreshFails : List (Event String String ℕ) :=
  [.call "linear BTCUSDT", .call "linear BTCUSDT", .tick 1,
    .ends "linear BTCUSDT" (.fetched 7 (1 / 2)), .turn "linear BTCUSDT", .tick 86400,
    .call "linear BTCUSDT", .ends "linear BTCUSDT" .failed]

/-- Three calls of `_ensure_info_cache`: the third waits on the first one's fetch of one second,
and behind the second one's, of another market type, for a day. -/
def dayLong : List (Event MarketType Unit (List String)) :=
  [.call .spot, .call .linear, .call .spot, .tick 1, .ends () (.fetched ["BTCUSDT"] 0), .turn (),
    .tick 86401, .ends () (.fetched [] 0), .turn ()]

lemma log_dayLong : (Transition.run (ensureInfoCache id) (infoStart 0) dayLong).map State.log =
    some ([.started 2 .spot 86401, .succeeded 1 .linear 1 86401 [] 0, .started 1 .linear 1] ++
      .succeeded 0 .spot 0 1 ["BTCUSDT"] 0 ::
        ([] ++ .waits 2 .spot :: [.waits 1 .linear, .started 0 .spot 0])) := by
  with_unfolding_all rfl

end Caches
end ExchangeRouter
