import Mathlib.Data.Option.Basic

/-!
# Runs of a machine

A machine is a step function that says which state an event leads to, `none` where the
event cannot happen. `run` is the state after a list of events, and `Meets` says of such a
list that every event, in the state it happens in, satisfies a condition. An invariant that
the steps under the condition keep holds wherever a run under it ends.
-/

namespace Transition

variable {σ ε : Type*} (step : σ → ε → Option σ)

/-- The state after the events, `none` when one of them cannot happen. -/
def run : σ → List ε → Option σ
  | s, [] => some s
  | s, e :: es => (step s e).bind fun s' => run s' es

/-- Every event satisfies `C` in the state it happens in. -/
def Meets (C : σ → ε → Prop) : σ → List ε → Prop
  | _, [] => True
  | s, e :: es => C s e ∧
    match step s e with
    | none => True
    | some s' => Meets C s' es

/-- A condition that can be checked on one step can be checked on a run. -/
instance decidableMeets (C : σ → ε → Prop) [∀ s e, Decidable (C s e)] :
    (s : σ) → (es : List ε) → Decidable (Meets step C s es)
  | _, [] => isTrue trivial
  | s, e :: es =>
    have : Decidable (match step s e with
        | none => True
        | some s' => Meets step C s' es) :=
      match step s e with
      | none => isTrue trivial
      | some s' => decidableMeets C s' es
    inferInstanceAs (Decidable (C s e ∧ _))

variable {step}

@[simp] lemma run_nil (s : σ) : run step s [] = some s := rfl

/-- A run that begins with an event makes its step. -/
lemma run_cons {s s'' : σ} {e : ε} {es : List ε} :
    run step s (e :: es) = some s'' ↔ ∃ s', step s e = some s' ∧ run step s' es = some s'' :=
  Option.bind_eq_some_iff

/-- A run in two parts. -/
lemma run_append (s : σ) (es es' : List ε) :
    run step s (es ++ es') = (run step s es).bind fun s' => run step s' es' := by
  induction es generalizing s with
  | nil => rfl
  | cons e es ih =>
    show (step s e).bind (fun t => run step t (es ++ es')) = _
    simp only [ih]
    exact (Option.bind_assoc _ _ _).symm

/-- A run and one step more. -/
lemma run_concat {s t t' : σ} {e : ε} {es : List ε} (hrun : run step s es = some t)
    (hstep : step t e = some t') : run step s (es ++ [e]) = some t' := by
  rw [run_append, hrun, Option.bind_some]
  exact run_cons.mpr ⟨t', hstep, rfl⟩

lemma Meets.tail {C : σ → ε → Prop} {s s' : σ} {e : ε} {es : List ε}
    (h : Meets step C s (e :: es)) (hstep : step s e = some s') : Meets step C s' es := by
  have htail := h.2
  rw [hstep] at htail
  exact htail

/-- A weaker condition is met too. -/
lemma Meets.imp {C D : σ → ε → Prop} (himp : ∀ s e, C s e → D s e) {s : σ} {es : List ε}
    (h : Meets step C s es) : Meets step D s es := by
  induction es generalizing s with
  | nil => trivial
  | cons e es ih =>
    refine ⟨himp s e h.1, ?_⟩
    split
    · trivial
    · next s' hstep => exact ih (h.tail hstep)

/-- The first part of a run that meets a condition meets it. -/
lemma Meets.of_append {C : σ → ε → Prop} {s : σ} {es es' : List ε}
    (h : Meets step C s (es ++ es')) : Meets step C s es := by
  induction es generalizing s with
  | nil => trivial
  | cons e es ih =>
    refine ⟨h.1, ?_⟩
    split
    · trivial
    · next s' hstep => exact ih (h.tail hstep)

/-- A run that meets a condition, and one event more that does. -/
lemma Meets.concat {C : σ → ε → Prop} {s t : σ} {e : ε} {es : List ε} (h : Meets step C s es)
    (hrun : run step s es = some t) (he : C t e) : Meets step C s (es ++ [e]) := by
  induction es generalizing s with
  | nil =>
    rw [run_nil, Option.some.injEq] at hrun
    subst hrun
    refine ⟨he, ?_⟩
    split <;> trivial
  | cons e' es ih =>
    obtain ⟨s', hstep, hrest⟩ := run_cons.mp hrun
    refine ⟨h.1, ?_⟩
    rw [hstep]
    exact ih (h.tail hstep) hrest

/-- Two conditions met are their conjunction met. -/
lemma Meets.and {C D : σ → ε → Prop} {s : σ} {es : List ε} (hC : Meets step C s es)
    (hD : Meets step D s es) : Meets step (fun s e => C s e ∧ D s e) s es := by
  induction es generalizing s with
  | nil => trivial
  | cons e es ih =>
    refine ⟨⟨hC.1, hD.1⟩, ?_⟩
    split
    · trivial
    · next s' hstep => exact ih (hC.tail hstep) (hD.tail hstep)

/-- The invariant rule: by induction on the events. -/
theorem invariant_of_meets {C : σ → ε → Prop} {Inv : σ → Prop}
    (hpres : ∀ s e s', Inv s → C s e → step s e = some s' → Inv s')
    {s s' : σ} {es : List ε} (hinit : Inv s) (hmeets : Meets step C s es)
    (hrun : run step s es = some s') : Inv s' := by
  induction es generalizing s with
  | nil =>
    rw [run_nil, Option.some.injEq] at hrun
    rwa [← hrun]
  | cons e es ih =>
    obtain ⟨t, hstep, hrest⟩ := run_cons.mp hrun
    exact ih (hpres s e t hinit hmeets.1 hstep) (hmeets.tail hstep) hrest

/-- No condition is met by every run. -/
lemma meets_true (s : σ) (es : List ε) : Meets step (fun _ _ => True) s es := by
  induction es generalizing s with
  | nil => trivial
  | cons e es ih =>
    refine ⟨trivial, ?_⟩
    split
    · trivial
    · exact ih _

/-- An invariant that every step keeps needs no condition. -/
theorem invariant_of_run {Inv : σ → Prop} (hpres : ∀ s e s', Inv s → step s e = some s' → Inv s')
    {s s' : σ} {es : List ε} (hinit : Inv s) (hrun : run step s es = some s') : Inv s' :=
  invariant_of_meets (fun s e s' hs _ => hpres s e s' hs) hinit (meets_true s es) hrun

/-- Where one step keeps the invariant exactly when it meets the condition, and a step that
cannot be made meets it, a run is met exactly when the invariant holds after each of its parts.
`Base` is what every step keeps, and `A` what is known of the events. -/
theorem meets_iff_throughout_of {A : ε → Prop} {C : σ → ε → Prop} {Base Inv : σ → Prop}
    (hbase : ∀ s e s', A e → Base s → step s e = some s' → Base s')
    (hiff : ∀ s e s', A e → Base s → Inv s → step s e = some s' → (Inv s' ↔ C s e))
    (hnone : ∀ s e, step s e = none → C s e) {s : σ} (hs : Base s) (hinit : Inv s)
    (es : List ε) (hes : ∀ e ∈ es, A e) :
    Meets step C s es ↔ ∀ part, part <+: es → ∀ s', run step s part = some s' → Inv s' := by
  induction es generalizing s with
  | nil =>
    refine iff_of_true trivial fun part hpart s' hrun => ?_
    rw [List.prefix_nil.mp hpart, run_nil, Option.some.injEq] at hrun
    rwa [← hrun]
  | cons e es ih =>
    obtain ⟨he, hrest⟩ := List.forall_mem_cons.mp hes
    cases hstep : step s e with
    | none =>
      refine iff_of_true ⟨hnone s e hstep, by rw [hstep]; trivial⟩ fun part hpart s' hrun => ?_
      cases part with
      | nil =>
        rw [run_nil, Option.some.injEq] at hrun
        rwa [← hrun]
      | cons e' part =>
        obtain ⟨rfl, -⟩ := List.cons_prefix_cons.mp hpart
        obtain ⟨t, ht, -⟩ := run_cons.mp hrun
        exact absurd (hstep.symm.trans ht) (by simp)
    | some t =>
      have hmeets : Meets step C s (e :: es) ↔ C s e ∧ Meets step C t es := by
        show (C s e ∧ _) ↔ _
        rw [hstep]
      rw [hmeets, ← hiff s e t he hs hinit hstep]
      constructor
      · rintro ⟨ht, hmet⟩ part hpart s' hrun
        cases part with
        | nil =>
          rw [run_nil, Option.some.injEq] at hrun
          rwa [← hrun]
        | cons e' part =>
          obtain ⟨rfl, htail⟩ := List.cons_prefix_cons.mp hpart
          obtain ⟨t', ht', hrun'⟩ := run_cons.mp hrun
          obtain rfl : t = t' := Option.some.inj (hstep.symm.trans ht')
          exact (ih (hbase s e' t he hs hstep) ht hrest).mp hmet part htail s' hrun'
      · intro hall
        have ht : Inv t := hall [e] (List.prefix_append [e] es) t (run_cons.mpr ⟨t, hstep, rfl⟩)
        refine ⟨ht, (ih (hbase s e t he hs hstep) ht hrest).mpr fun part hpart s' hrun => ?_⟩
        exact hall (e :: part) (List.cons_prefix_cons.mpr ⟨rfl, hpart⟩) s'
          (run_cons.mpr ⟨t, hstep, hrun⟩)

/-- The same of events of which nothing is known. -/
theorem meets_iff_throughout {C : σ → ε → Prop} {Base Inv : σ → Prop}
    (hbase : ∀ s e s', Base s → step s e = some s' → Base s')
    (hiff : ∀ s e s', Base s → Inv s → step s e = some s' → (Inv s' ↔ C s e))
    (hnone : ∀ s e, step s e = none → C s e) {s : σ} (hs : Base s) (hinit : Inv s)
    (es : List ε) :
    Meets step C s es ↔ ∀ part, part <+: es → ∀ s', run step s part = some s' → Inv s' :=
  meets_iff_throughout_of (A := fun _ => True) (fun s e s' _ => hbase s e s')
    (fun s e s' _ => hiff s e s') hnone hs hinit es fun _ _ => trivial

/-! ## Families of machines -/

section Family

variable {κ : Type*} [DecidableEq κ]

/-- One machine for each key, an event going to the machine of its key. -/
def family (step : σ → ε → Option σ) (s : κ → σ) (e : κ × ε) : Option (κ → σ) :=
  (step (s e.1) e.2).map (Function.update s e.1)

/-- The events that go to the machine of a key. -/
def eventsOf (k : κ) (es : List (κ × ε)) : List ε :=
  (es.filter fun e => decide (e.1 = k)).map Prod.snd

/-- A run of a family is a run of each of its machines. -/
theorem run_family {s t : κ → σ} {es : List (κ × ε)} (hrun : run (family step) s es = some t)
    (k : κ) : run step (s k) (eventsOf k es) = some (t k) := by
  induction es generalizing s with
  | nil =>
    rw [run_nil, Option.some.injEq] at hrun
    rw [← hrun]
    rfl
  | cons e es ih =>
    obtain ⟨s', hstep, hrest⟩ := run_cons.mp hrun
    obtain ⟨next, hnext, rfl⟩ := Option.map_eq_some_iff.mp hstep
    have htail := ih hrest
    by_cases hk : e.1 = k
    · rw [hk, Function.update_self] at htail
      rw [hk] at hnext
      have hevents : eventsOf k (e :: es) = e.2 :: eventsOf k es := by
        simp [eventsOf, hk]
      rw [hevents]
      exact run_cons.mpr ⟨next, hnext, htail⟩
    · rw [Function.update_of_ne (Ne.symm hk)] at htail
      have hevents : eventsOf k (e :: es) = eventsOf k es := by
        simp [eventsOf, hk]
      rwa [hevents]

end Family

end Transition
