import ExchangeRouter.Lib.Transition
import Mathlib.Algebra.Order.Group.Unbundled.Basic
import Mathlib.Algebra.Order.Ring.Rat
import Mathlib.Data.List.Perm.Basic
import Mathlib.Order.WithBot

/-!
# A value that one caller loads for all

Any number of callers want a value that a request gives. What was loaded last is served while it is
usable and younger than a time to live; else a caller takes a lock, looks again and makes the
request, with the others waiting for the lock in order. A caller may look before it takes the lock
(`quick`).

An event is what runs between two awaits, and reads the clock at most once. `log` is newest first
and is what the theorems are about; no step reads it.
-/

namespace SingleFlight

variable {α : Type*}

/-- When a loaded value is served: while it is usable and younger than `ttl`. -/
structure Policy (α : Type*) where
  ttl : WithTop ℚ
  usable : α → Bool := fun _ => true
  quick : Bool := true

/-- What happened, with the number of the caller and the time. A `hit` is served what was loaded
at `stamp`; `loaded` returns what its own request gave. -/
inductive Entry (α : Type*) where
  | hit (call : ℕ) (time stamp : ℚ) (value : α)
  | started (call : ℕ) (time : ℚ)
  | loaded (call : ℕ) (time : ℚ) (value : α)
  | raised (call : ℕ)
  | cancelled (call : ℕ)
deriving DecidableEq, Repr

/-- The last loaded value with its time, the caller whose request is under way, those that wait for
the lock, the number of callers, and the clock as it was last read. -/
structure Cell (α : Type*) where
  now : ℚ
  entry : Option (ℚ × α) := none
  flying : Option ℕ := none
  waiting : List ℕ := []
  calls : ℕ := 0
  log : List (Entry α) := []
deriving DecidableEq, Repr

/-- A caller comes; the first that waits has the lock; the request under way gives a value, or
raises or is cancelled; a caller that waits is cancelled. -/
inductive Event (α : Type*) where
  | call (now : ℚ)
  | turn (now : ℚ)
  | loaded (now : ℚ) (value : α)
  | raised
  | cancel (call : ℕ)
deriving DecidableEq, Repr

section

variable (P : Policy α)

/-- The entry may be served, and is younger than the time to live. -/
def Policy.fresh (now : ℚ) (entry : ℚ × α) : Bool :=
  P.usable entry.2 && decide (((now - entry.1 : ℚ) : WithTop ℚ) < P.ttl)

/-- What is there to be served. -/
def Cell.look (s : Cell α) : Option (ℚ × α) := s.entry.filter (P.fresh s.now)

/-- What a caller does with the lock, up to its request. -/
def Cell.enter (s : Cell α) (call : ℕ) : Cell α :=
  match s.look P with
  | some entry => { s with log := .hit call s.now entry.1 entry.2 :: s.log }
  | none => { s with flying := some call, log := .started call s.now :: s.log }

/-- A caller, up to its request or its wait. A lock that is held or waited for is waited for. -/
def Cell.call (s : Cell α) : Cell α :=
  let s' := { s with calls := s.calls + 1 }
  match if P.quick then s.look P else none with
  | some entry => { s' with log := .hit s.calls s.now entry.1 entry.2 :: s.log }
  | none =>
    if s.flying = none ∧ s.waiting = [] then s'.enter P s.calls
    else { s' with waiting := s.waiting ++ [s.calls] }

/-- A step of the cell, `none` where the event cannot happen. -/
def step (s : Cell α) : Event α → Option (Cell α)
  | .call now => if s.now ≤ now then some ({ s with now := now }.call P) else none
  | .turn now =>
    match s.flying, s.waiting with
    | none, call :: waiting =>
      if s.now ≤ now then some ({ s with now := now, waiting := waiting }.enter P call) else none
    | _, _ => none
  | .loaded now value =>
    match s.flying with
    | some call =>
      if s.now ≤ now then
        some { s with
          now := now
          entry := some (now, value)
          flying := none
          log := .loaded call now value :: s.log }
      else none
    | none => none
  | .raised =>
    match s.flying with
    | some call => some { s with flying := none, log := .raised call :: s.log }
    | none => none
  | .cancel call =>
    if call ∈ s.waiting then
      some { s with waiting := s.waiting.erase call, log := .cancelled call :: s.log }
    else none

end

/-! ## Reading the log -/

/-- The last load and its time. -/
def lastLoad : List (Entry α) → Option (ℚ × α)
  | [] => none
  | .loaded _ time value :: _ => some (time, value)
  | _ :: earlier => lastLoad earlier

/-- The caller whose request has begun and not ended. -/
def flight : List (Entry α) → Option ℕ
  | [] => none
  | .started call _ :: _ => some call
  | .loaded .. :: _ => none
  | .raised _ :: _ => none
  | _ :: earlier => flight earlier

/-- The callers that have had an answer. -/
def answered : List (Entry α) → List ℕ
  | [] => []
  | .hit call .. :: earlier => call :: answered earlier
  | .started .. :: earlier => answered earlier
  | .loaded call .. :: earlier => call :: answered earlier
  | .raised call :: earlier => call :: answered earlier
  | .cancelled call :: earlier => call :: answered earlier

/-- What may be said of an entry against what came before it: a hit is the last load, usable and
young; a request begins alone, when every usable load is old; only one under way ends. -/
def Good (P : Policy α) (earlier : List (Entry α)) : Entry α → Prop
  | .hit _ time stamp value => lastLoad earlier = some (stamp, value) ∧ P.usable value = true ∧
    ((time - stamp : ℚ) : WithTop ℚ) < P.ttl
  | .started _ time => flight earlier = none ∧ ∀ call stamp value,
    .loaded call stamp value ∈ earlier → P.usable value = true →
      P.ttl ≤ ((time - stamp : ℚ) : WithTop ℚ)
  | .loaded call _ _ => flight earlier = some call
  | .raised call => flight earlier = some call
  | .cancelled _ => True

/-- The invariant: the log, and what the cell has of it. A usable load is the last one, or its time
is over; it is over for all of them where a request is under way. -/
structure Sound (P : Policy α) (s : Cell α) : Prop where
  good : ∀ later entry earlier, s.log = later ++ entry :: earlier → Good P earlier entry
  entry : s.entry = lastLoad s.log
  flying : s.flying = flight s.log
  past : ∀ call stamp value, .loaded call stamp value ∈ s.log → stamp ≤ s.now
  old : ∀ call stamp value, .loaded call stamp value ∈ s.log → P.usable value = true →
    lastLoad s.log = some (stamp, value) ∨ P.ttl ≤ ((s.now - stamp : ℚ) : WithTop ℚ)
  due : s.flying ≠ none → ∀ call stamp value, .loaded call stamp value ∈ s.log →
    P.usable value = true → P.ttl ≤ ((s.now - stamp : ℚ) : WithTop ℚ)

/-- Every caller has been answered, or waits, or makes the request. -/
def Accounted (s : Cell α) : Prop :=
  (answered s.log ++ (s.waiting ++ s.flying.toList)).Perm (List.range s.calls)

variable {P : Policy α} {s s' : Cell α}

/-- What holds of each entry of a log, and of one more. -/
lemma forall_cons {good : List (Entry α) → Entry α → Prop} {log : List (Entry α)}
    {entry : Entry α} (hentry : good log entry)
    (h : ∀ later e earlier, log = later ++ e :: earlier → good earlier e) :
    ∀ later e earlier, entry :: log = later ++ e :: earlier → good earlier e := by
  intro later e earlier heq
  cases later with
  | nil =>
    obtain ⟨rfl, rfl⟩ := List.cons.inj heq
    exact hentry
  | cons e' later => exact h later e earlier (List.cons.inj heq).2

lemma mem_of_cons {log : List (Entry α)} {entry : Entry α} {call : ℕ} {stamp : ℚ} {value : α}
    (hentry : ∀ call' stamp' value', entry ≠ .loaded call' stamp' value')
    (hmem : .loaded call stamp value ∈ entry :: log) : .loaded call stamp value ∈ log :=
  (List.mem_cons.mp hmem).resolve_left fun heq => hentry _ _ _ heq.symm

lemma lastLoad_mem {log : List (Entry α)} {stamp : ℚ} {value : α}
    (h : lastLoad log = some (stamp, value)) : ∃ call, .loaded call stamp value ∈ log := by
  induction log with
  | nil => exact absurd h (by simp [lastLoad])
  | cons entry log ih =>
    cases entry with
    | loaded call time value' =>
      obtain ⟨rfl, rfl⟩ := Prod.mk.inj (Option.some.inj h)
      exact ⟨call, List.mem_cons_self⟩
    | _ =>
      obtain ⟨call, hmem⟩ := ih h
      exact ⟨call, List.mem_cons_of_mem _ hmem⟩

lemma Sound.init (now : ℚ) : Sound P ({ now := now } : Cell α) := by
  refine ⟨?_, rfl, rfl, ?_, ?_, fun hflying => absurd rfl hflying⟩
  · intro later entry earlier heq
    exact absurd heq (by simp)
  · intro call stamp value hmem
    exact absurd hmem List.not_mem_nil
  · intro call stamp value hmem
    exact absurd hmem List.not_mem_nil

/-- Time goes by. -/
lemma Sound.clock (h : Sound P s) {now : ℚ} (hnow : s.now ≤ now) :
    Sound P { s with now := now } := by
  have hlater : ∀ stamp : ℚ, ((s.now - stamp : ℚ) : WithTop ℚ) ≤ ((now - stamp : ℚ) : WithTop ℚ) :=
    fun stamp => WithTop.coe_le_coe.mpr (sub_le_sub_right hnow stamp)
  refine ⟨h.good, h.entry, h.flying, ?_, ?_, ?_⟩
  · intro call stamp value hmem
    exact (h.past call stamp value hmem).trans hnow
  · intro call stamp value hmem husable
    exact (h.old call stamp value hmem husable).imp_right fun hle => hle.trans (hlater stamp)
  · intro hflying call stamp value hmem husable
    exact (h.due hflying call stamp value hmem husable).trans (hlater stamp)

/-- The callers are no part of the invariant. -/
lemma Sound.callers (h : Sound P s) (waiting : List ℕ) (calls : ℕ) :
    Sound P { s with waiting := waiting, calls := calls } :=
  ⟨h.good, h.entry, h.flying, h.past, h.old, h.due⟩

/-- What is served is the last load, usable and young. -/
lemma look_spec {entry : ℚ × α} (hlook : s.look P = some entry) : s.entry = some entry ∧
    P.usable entry.2 = true ∧ ((s.now - entry.1 : ℚ) : WithTop ℚ) < P.ttl := by
  unfold Cell.look at hlook
  obtain ⟨hentry, hfresh⟩ := Option.filter_eq_some_iff.mp hlook
  unfold Policy.fresh at hfresh
  rw [Bool.and_eq_true, decide_eq_true_eq] at hfresh
  exact ⟨hentry, hfresh⟩

lemma Sound.hit (h : Sound P s) {entry : ℚ × α} (hlook : s.look P = some entry) (call : ℕ) :
    Sound P { s with log := .hit call s.now entry.1 entry.2 :: s.log } := by
  obtain ⟨hentry, husable, hyoung⟩ := look_spec hlook
  have hmem : ∀ call' stamp value, Entry.loaded call' stamp value ∈
      Entry.hit call s.now entry.1 entry.2 :: s.log → .loaded call' stamp value ∈ s.log :=
    fun _ _ _ hmem => mem_of_cons (by simp) hmem
  refine ⟨forall_cons ⟨?_, husable, hyoung⟩ h.good, h.entry, h.flying, ?_, ?_, ?_⟩
  · rw [← h.entry, hentry]
  · exact fun call' stamp value hin => h.past call' stamp value (hmem _ _ _ hin)
  · exact fun call' stamp value hin => h.old call' stamp value (hmem _ _ _ hin)
  · exact fun hflying call' stamp value hin => h.due hflying call' stamp value (hmem _ _ _ hin)

/-- Where nothing can be served, the time of every usable load is over. -/
lemma Sound.over (h : Sound P s) (hlook : s.look P = none) {call : ℕ} {stamp : ℚ} {value : α}
    (hmem : .loaded call stamp value ∈ s.log) (husable : P.usable value = true) :
    P.ttl ≤ ((s.now - stamp : ℚ) : WithTop ℚ) := by
  rcases h.old call stamp value hmem husable with hlast | hold
  · rw [← h.entry] at hlast
    have hstale := Option.filter_eq_none_iff.mp hlook _ hlast
    rw [Policy.fresh, husable, Bool.true_and, decide_eq_true_eq, not_lt] at hstale
    exact hstale
  · exact hold

/-- A caller with the lock is served, or makes the request. -/
lemma Sound.enter (h : Sound P s) (hfree : s.flying = none) (call : ℕ) :
    Sound P (s.enter P call) := by
  unfold Cell.enter
  split
  · next entry hlook => exact h.hit hlook call
  · next hlook =>
    have hmem : ∀ call' stamp value, Entry.loaded call' stamp value ∈
        Entry.started call s.now :: s.log → .loaded call' stamp value ∈ s.log :=
      fun _ _ _ hmem => mem_of_cons (by simp) hmem
    refine ⟨forall_cons ⟨?_, ?_⟩ h.good, h.entry, rfl, ?_, ?_, ?_⟩
    · rw [← h.flying, hfree]
    · exact fun call' stamp value hin husable => h.over hlook hin husable
    · exact fun call' stamp value hin => h.past call' stamp value (hmem _ _ _ hin)
    · exact fun call' stamp value hin => h.old call' stamp value (hmem _ _ _ hin)
    · exact fun _ call' stamp value hin husable => h.over hlook (hmem _ _ _ hin) husable

lemma Sound.call (h : Sound P s) : Sound P (s.call P) := by
  unfold Cell.call
  dsimp only
  split
  · next entry hlook =>
    split at hlook
    · exact (h.hit hlook s.calls).callers s.waiting (s.calls + 1)
    · exact absurd hlook (by simp)
  · split
    · next hfree => exact (h.callers s.waiting (s.calls + 1)).enter hfree.1 s.calls
    · exact h.callers (s.waiting ++ [s.calls]) (s.calls + 1)

/-- The request under way gives a value. -/
lemma Sound.loaded (h : Sound P s) {call : ℕ} (hflying : s.flying = some call) (value : α) :
    Sound P { s with
      entry := some (s.now, value)
      flying := none
      log := .loaded call s.now value :: s.log } := by
  have hgood : Good P s.log (.loaded call s.now value) := h.flying.symm.trans hflying
  refine ⟨forall_cons hgood h.good, rfl, rfl, ?_, ?_, fun hflying => absurd rfl hflying⟩
  · intro call' stamp value' hmem
    rcases List.mem_cons.mp hmem with heq | hmem
    · obtain ⟨-, rfl, -⟩ := Entry.loaded.inj heq
      exact le_rfl
    · exact h.past call' stamp value' hmem
  · intro call' stamp value' hmem husable
    rcases List.mem_cons.mp hmem with heq | hmem
    · obtain ⟨-, rfl, rfl⟩ := Entry.loaded.inj heq
      exact .inl rfl
    · right
      refine h.due ?_ call' stamp value' hmem husable
      rw [hflying]
      simp

/-- An entry that is no load, as the lock is free. -/
lemma Sound.note (h : Sound P s) {entry : Entry α} {flying : Option ℕ}
    (hload : ∀ call stamp value, entry ≠ .loaded call stamp value)
    (hgood : Good P s.log entry) (hlast : lastLoad (entry :: s.log) = lastLoad s.log)
    (hflight : flying = flight (entry :: s.log)) (hfly : flying ≠ none → s.flying ≠ none) :
    Sound P { s with flying := flying, log := entry :: s.log } := by
  refine ⟨forall_cons hgood h.good, h.entry.trans hlast.symm, hflight, ?_, ?_, ?_⟩
  · exact fun call stamp value hin => h.past call stamp value (mem_of_cons hload hin)
  · intro call stamp value hin husable
    show lastLoad (entry :: s.log) = _ ∨ _
    rw [hlast]
    exact h.old call stamp value (mem_of_cons hload hin) husable
  · exact fun hflying call stamp value hin =>
      h.due (hfly hflying) call stamp value (mem_of_cons hload hin)

/-- What one event keeps. -/
lemma Sound.step (h : Sound P s) {e : Event α} (hstep : SingleFlight.step P s e = some s') :
    Sound P s' := by
  cases e with
  | call now =>
    simp only [SingleFlight.step] at hstep
    split at hstep
    · next hnow =>
      rw [← Option.some.inj hstep]
      exact (h.clock hnow).call
    · exact absurd hstep (by simp)
  | turn now =>
    simp only [SingleFlight.step] at hstep
    split at hstep
    · next call waiting hfree hwaiting =>
      split at hstep
      · next hnow =>
        rw [← Option.some.inj hstep]
        exact ((h.clock hnow).callers waiting s.calls).enter hfree call
      · exact absurd hstep (by simp)
    · exact absurd hstep (by simp)
  | loaded now value =>
    simp only [SingleFlight.step] at hstep
    split at hstep
    · next call hflying =>
      split at hstep
      · next hnow =>
        rw [← Option.some.inj hstep]
        exact (h.clock hnow).loaded hflying value
      · exact absurd hstep (by simp)
    · exact absurd hstep (by simp)
  | raised =>
    simp only [SingleFlight.step] at hstep
    split at hstep
    · next call hflying =>
      rw [← Option.some.inj hstep]
      exact h.note (by simp) (h.flying.symm.trans hflying) rfl rfl
        fun hflying => absurd rfl hflying
    · exact absurd hstep (by simp)
  | cancel call =>
    simp only [SingleFlight.step] at hstep
    split at hstep
    · rw [← Option.some.inj hstep]
      have hnote : Sound P { s with flying := s.flying, log := .cancelled call :: s.log } :=
        h.note (by simp) trivial rfl h.flying id
      exact hnote.callers (s.waiting.erase call) s.calls
    · exact absurd hstep (by simp)

/-! ## Every caller -/

lemma Accounted.init (now : ℚ) : Accounted ({ now := now } : Cell α) := List.Perm.refl _

lemma Accounted.enter {waiting : List ℕ} {call calls : ℕ}
    (h : (answered s.log ++ (call :: waiting)).Perm (List.range calls))
    (hfree : s.flying = none) :
    Accounted ({ s with waiting := waiting, calls := calls }.enter P call) := by
  unfold Cell.enter Accounted
  split
  · -- it is answered
    rw [hfree, Option.toList_none, List.append_nil]
    exact List.perm_middle.symm.trans h
  · exact (List.Perm.append_left _ (List.perm_append_singleton call waiting)).trans h

/-- One caller more. -/
lemma perm_range_succ {l : List ℕ} {calls : ℕ} (h : l.Perm (List.range calls)) :
    (l ++ [calls]).Perm (List.range (calls + 1)) := by
  rw [List.range_succ]
  exact h.append_right [calls]

lemma Accounted.call (h : Accounted s) : Accounted (s.call P) := by
  have hmore := perm_range_succ h
  unfold Cell.call
  dsimp only
  split
  · unfold Accounted
    exact (List.perm_append_singleton _ _).symm.trans hmore
  · split
    · next hfree =>
      refine Accounted.enter ?_ hfree.1
      rw [hfree.2]
      rwa [hfree.1, hfree.2, Option.toList_none, List.append_nil, List.append_nil] at hmore
    · unfold Accounted
      have hswap : (s.waiting ++ [s.calls] ++ s.flying.toList).Perm
          (s.waiting ++ s.flying.toList ++ [s.calls]) := by
        rw [List.append_assoc, List.append_assoc]
        exact List.Perm.append_left _ List.perm_append_comm
      refine (hswap.append_left _).trans ?_
      rwa [← List.append_assoc]

/-- The request under way comes to its end, and its caller is answered. -/
lemma Accounted.landed (h : Accounted s) {call : ℕ} (hflying : s.flying = some call) :
    (call :: answered s.log ++ (s.waiting ++ [])).Perm (List.range s.calls) := by
  unfold Accounted at h
  rw [hflying, Option.toList_some, ← List.append_assoc] at h
  rw [List.append_nil]
  exact (List.perm_append_singleton call _).symm.trans h

/-- What one event keeps. -/
lemma Accounted.step (h : Accounted s) {e : Event α} (hstep : SingleFlight.step P s e = some s') :
    Accounted s' := by
  cases e with
  | call now =>
    simp only [SingleFlight.step] at hstep
    split at hstep
    · rw [← Option.some.inj hstep]
      exact Accounted.call (s := { s with now := now }) h
    · exact absurd hstep (by simp)
  | turn now =>
    simp only [SingleFlight.step] at hstep
    split at hstep
    · next call waiting hfree hwaiting =>
      split at hstep
      · rw [← Option.some.inj hstep]
        unfold Accounted at h
        rw [hfree, hwaiting, Option.toList_none, List.append_nil] at h
        exact Accounted.enter (s := { s with now := now }) h hfree
      · exact absurd hstep (by simp)
    · exact absurd hstep (by simp)
  | loaded now value =>
    simp only [SingleFlight.step] at hstep
    split at hstep
    · next call hflying =>
      split at hstep
      · rw [← Option.some.inj hstep]
        exact h.landed hflying
      · exact absurd hstep (by simp)
    · exact absurd hstep (by simp)
  | raised =>
    simp only [SingleFlight.step] at hstep
    split at hstep
    · next call hflying =>
      rw [← Option.some.inj hstep]
      exact h.landed hflying
    · exact absurd hstep (by simp)
  | cancel call =>
    simp only [SingleFlight.step] at hstep
    split at hstep
    · next hin =>
      rw [← Option.some.inj hstep]
      have hperm := (List.perm_cons_erase hin).append_right s.flying.toList
      refine List.perm_middle.symm.trans ?_
      exact (hperm.symm.append_left _).trans h
    · exact absurd hstep (by simp)

/-! ## Every run -/

/-- In every run, whoever comes when and whatever the requests give: what is served from the cell
is the last load, usable and younger than the time to live; a request begins only while no other
is under way, and when every usable load is as old as the time to live; and every caller has been
answered once, or waits, or makes the request. -/
theorem sound_of_run {now : ℚ} {es : List (Event α)}
    (hrun : Transition.run (step P) { now := now } es = some s) : Sound P s ∧ Accounted s :=
  have hkeeps : ∀ s e s', Sound P s ∧ Accounted s → step P s e = some s' →
      Sound P s' ∧ Accounted s' :=
    fun _ _ _ h hstep => ⟨h.1.step hstep, h.2.step hstep⟩
  Transition.invariant_of_run hkeeps ⟨Sound.init now, Accounted.init now⟩ hrun

/-- Where a load is served for ever once it is usable, nothing is requested after it, and whoever
comes is served it. -/
theorem Sound.once (h : Sound P s) (hever : P.ttl = ⊤) {later earlier : List (Entry α)}
    {call : ℕ} {stamp : ℚ} {value : α} (husable : P.usable value = true)
    (hlog : s.log = later ++ .loaded call stamp value :: earlier) :
    s.entry = some (stamp, value) ∧ s.flying = none ∧ ∀ entry ∈ later,
      (∃ call' time, entry = .hit call' time stamp value) ∨ ∃ call', entry = .cancelled call' := by
  have hlast : ∀ part, part <:+ later →
      lastLoad (part ++ .loaded call stamp value :: earlier) = some (stamp, value) ∧
      flight (part ++ .loaded call stamp value :: earlier) = none ∧ ∀ entry ∈ part,
        (∃ call' time, entry = .hit call' time stamp value) ∨
          ∃ call', entry = .cancelled call' := by
    intro part hpart
    induction part with
    | nil => exact ⟨rfl, rfl, fun _ hmem => absurd hmem List.not_mem_nil⟩
    | cons entry part ih =>
      obtain ⟨hload, hflight, hall⟩ := ih ((List.suffix_cons _ _).trans hpart)
      obtain ⟨before, rfl⟩ := hpart
      have hgood := h.good before entry (part ++ .loaded call stamp value :: earlier)
        (by rw [hlog, List.append_assoc, List.cons_append])
      have hin : Entry.loaded call stamp value ∈ part ++ .loaded call stamp value :: earlier :=
        List.mem_append_right _ List.mem_cons_self
      cases entry with
      | hit call' time stamp' value' =>
        obtain ⟨hserved, -, -⟩ := hgood
        rw [hload, Option.some.injEq, Prod.mk.injEq] at hserved
        obtain ⟨rfl, rfl⟩ := hserved
        exact ⟨hload, hflight, List.forall_mem_cons.mpr ⟨.inl ⟨_, _, rfl⟩, hall⟩⟩
      | started call' time =>
        have hover := hgood.2 call stamp value hin husable
        rw [hever, top_le_iff] at hover
        exact absurd hover (WithTop.coe_ne_top)
      | loaded call' time value' =>
        exact absurd (hflight.symm.trans hgood) (by simp)
      | raised call' => exact absurd (hflight.symm.trans hgood) (by simp)
      | cancelled call' =>
        exact ⟨hload, hflight, List.forall_mem_cons.mpr ⟨.inr ⟨_, rfl⟩, hall⟩⟩
  obtain ⟨hload, hflight, hall⟩ := hlast later List.suffix_rfl
  rw [← hlog] at hload hflight
  exact ⟨h.entry.trans hload, h.flying.trans hflight, hall⟩

end SingleFlight
