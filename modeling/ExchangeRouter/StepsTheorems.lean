import ExchangeRouter.Lib.Fallible
import ExchangeRouter.Steps

/-!
# When a step is the exact product

Parts that are finite decimals, with no more digits together than the context has and exponents
that stay inside it, are multiplied without rounding. A part of any other kind leaves no step.
-/

namespace ExchangeRouter
namespace Steps

open Decimal (Finite Number Signal Unicode digits)
open Fallible
open MakeRequest (PyFloat)

section

variable (u : Unicode)

theorem finiteOf_eq_some {part : String} {d : Finite} :
    finiteOf u part = some d ↔ u.read part = some (.finite d) := by
  unfold finiteOf
  split
  · next d' h => rw [h, Option.some.injEq, Option.some.injEq, Number.finite.injEq]
  · next h => exact iff_of_false (by simp) fun heq => h d heq

/-- Parts that all read are multiplied as their decimals are. -/
theorem stepOf_of_read {parts : List String} {ns : List Number}
    (h : parts.mapM u.read = some ns) : stepOf u parts = defaultContext.product ns := by
  have hfold : ∀ step : Number,
      parts.foldlM (multiply u) step = ns.foldlM defaultContext.mul step := by
    induction parts generalizing ns with
    | nil =>
      rw [← Option.some.inj h]
      exact fun _ => rfl
    | cons part parts ih =>
      intro step
      obtain ⟨n, ns', hn, hns', rfl⟩ := mapM_some_cons.mp h
      have hmul : multiply u step part = defaultContext.mul step n := by
        unfold multiply
        rw [hn]
      rw [List.foldlM_cons, List.foldlM_cons, hmul]
      cases defaultContext.mul step n with
      | error e => rfl
      | ok step' => exact ih hns' step'
  exact hfold _

theorem stepOf_concat (parts : List String) (part : String) :
    stepOf u (parts ++ [part]) = stepOf u parts >>= fun step => multiply u step part := by
  unfold stepOf
  rw [List.foldlM_append]
  simp [List.foldlM_cons]

theorem multiply_isFinite {before after : Number} {part : String}
    (h : multiply u before part = .ok after) (hafter : after.isFinite = true) :
    before.isFinite = true ∧ (finiteOf u part).isSome = true := by
  unfold multiply at h
  split at h
  · contradiction
  · next n hn =>
    obtain ⟨hbefore, hfinite⟩ := Decimal.Context.mul_isFinite h hafter
    refine ⟨hbefore, ?_⟩
    unfold finiteOf
    cases n with
    | finite d => rw [hn]; rfl
    | infinite negative => contradiction
    | nan signaling => contradiction

/-- A step is finite only of finite parts. -/
theorem finite_of_stepOf {parts : List String} {step : Number} (h : stepOf u parts = .ok step)
    (hstep : step.isFinite = true) : ∀ part ∈ parts, (finiteOf u part).isSome = true := by
  induction parts using List.reverseRecOn generalizing step with
  | nil => simp
  | append_singleton parts last ih =>
    rw [stepOf_concat] at h
    obtain ⟨before, hbefore, hmultiply⟩ := bind_ok h
    obtain ⟨hfinite, hlast⟩ := multiply_isFinite u hmultiply hstep
    intro part hpart
    rcases List.mem_append.mp hpart with hmem | hmem
    · exact ih hbefore hfinite part hmem
    · rw [List.mem_singleton.mp hmem, hlast]

/-- Finite parts, whose digits and exponents the context holds, are multiplied exactly. -/
theorem stepOf_exact {parts : List String} {ds : List Finite}
    (h : parts.mapM (finiteOf u) = some ds) (hdigits : (ds.map fun d => digits d.coeff).sum ≤ 28)
    (hstays : defaultContext.StaysIn ds) :
    ∃ step : Finite, stepOf u parts = .ok (.finite step) ∧
      step.toRat = (ds.map Finite.toRat).prod := by
  have hread : parts.mapM u.read = some (ds.map .finite) := by
    clear hdigits hstays
    induction parts generalizing ds with
    | nil =>
      rw [← Option.some.inj h]
      rfl
    | cons part parts ih =>
      obtain ⟨d, ds', hd, hds', rfl⟩ := mapM_some_cons.mp h
      exact mapM_some_cons.mpr ⟨.finite d, _, (finiteOf_eq_some u).mp hd, ih hds', rfl⟩
  rw [stepOf_of_read u hread]
  exact Decimal.Context.toRat_product hdigits hstays

end

/-! ## The step -/

section

variable (u : Unicode) (toFloat : ℚ → PyFloat)

/-- Without a finite decimal at its end the loop leaves no step. -/
theorem buildStep_of_not_finite {parts : List String}
    (h : ∀ d, stepOf u parts ≠ .ok (.finite d)) : buildStep u toFloat parts = none := by
  unfold buildStep valueOf
  cases hstep : stepOf u parts with
  | error e => rfl
  | ok step =>
    cases step with
    | finite d => exact absurd hstep (h d)
    | infinite negative => cases negative <;> rfl
    | nan signaling => cases signaling <;> rfl

theorem buildStep_of_finite {parts : List String} {d : Finite}
    (h : stepOf u parts = .ok (.finite d)) :
    buildStep u toFloat parts = usable (toFloat d.toRat) := by
  unfold buildStep valueOf
  rw [h]
  rfl

theorem usable_eq_none (x : PyFloat) : usable x = none ↔ ¬ ∃ q, x = .finite q ∧ 0 < q := by
  cases x with
  | finite q =>
    simp only [usable]
    by_cases hq : q ≤ 0
    · simp [hq]
    · simp [hq, lt_of_not_ge hq]
  | inf => simp [usable]
  | negInf => simp [usable]
  | nan => simp [usable]

/-- `build_step` is exact. Of parts whose digits and exponents the context holds, the decimal that
is converted to a float is the product of the parts, and the same in every order whose exponents
the context holds. There is no step exactly when some part is no finite decimal, or the product
has no float that is finite and positive. -/
theorem buildStep_exact (parts : List String)
    (hcontext : ∀ ds, parts.mapM (finiteOf u) = some ds →
      (ds.map fun d => digits d.coeff).sum ≤ 28 ∧ defaultContext.StaysIn ds) :
    (∀ ds, parts.mapM (finiteOf u) = some ds →
      ∃ step : Finite, stepOf u parts = .ok (.finite step) ∧
        step.toRat = (ds.map Finite.toRat).prod ∧
        buildStep u toFloat parts = usable (toFloat (ds.map Finite.toRat).prod) ∧
        ∀ parts' ds', parts'.Perm parts → parts'.mapM (finiteOf u) = some ds' →
          defaultContext.StaysIn ds' →
          ∃ step' : Finite, stepOf u parts' = .ok (.finite step') ∧ step'.toRat = step.toRat) ∧
    (buildStep u toFloat parts = none ↔
      (∃ part ∈ parts, finiteOf u part = none) ∨
      ∃ ds, parts.mapM (finiteOf u) = some ds ∧
        ¬ ∃ q, toFloat (ds.map Finite.toRat).prod = .finite q ∧ 0 < q) := by
  constructor
  · intro ds hds
    obtain ⟨hdigits, hstays⟩ := hcontext ds hds
    obtain ⟨step, hstep, hvalue⟩ := stepOf_exact u hds hdigits hstays
    refine ⟨step, hstep, hvalue, ?_, ?_⟩
    · rw [buildStep_of_finite u toFloat hstep, hvalue]
    · intro parts' ds' hperm hds' hstays'
      have hpermDs : ds'.Perm ds := by
        rw [← filterMap_of_mapM hds, ← filterMap_of_mapM hds']
        exact hperm.filterMap _
      have hdigits' : (ds'.map fun d => digits d.coeff).sum ≤ 28 :=
        (hpermDs.map _).sum_eq.trans_le hdigits
      obtain ⟨step', hstep', hvalue'⟩ := stepOf_exact u hds' hdigits' hstays'
      refine ⟨step', hstep', ?_⟩
      rw [hvalue, hvalue', (hpermDs.map Finite.toRat).prod_eq]
  · rcases exists_none_or_mapM (finiteOf u) parts with ⟨part, hpart, hnone⟩ | ⟨ds, hds⟩
    · -- a part that is no finite decimal leaves no finite step
      refine iff_of_true (buildStep_of_not_finite u toFloat fun d hstep => ?_)
        (.inl ⟨part, hpart, hnone⟩)
      have hfinite := finite_of_stepOf u hstep rfl part hpart
      rw [hnone] at hfinite
      contradiction
    · obtain ⟨hdigits, hstays⟩ := hcontext ds hds
      obtain ⟨step, hstep, hvalue⟩ := stepOf_exact u hds hdigits hstays
      have hread : ¬ ∃ part ∈ parts, finiteOf u part = none := by
        rintro ⟨part, hpart, hnone⟩
        have hfinite := finite_of_stepOf u hstep rfl part hpart
        rw [hnone] at hfinite
        contradiction
      rw [buildStep_of_finite u toFloat hstep, usable_eq_none, hvalue, or_iff_right hread]
      constructor
      · exact fun h => ⟨ds, hds, h⟩
      · rintro ⟨ds', hds', h⟩
        rw [hds] at hds'
        rwa [Option.some.inj hds']

end

/-- A multiplier of a hundredth and a lot of a thousand. -/
theorem buildStep_exact_lot :
    let u : Unicode := ⟨fun _ => none, fun _ => false⟩
    (∃ step : Finite, stepOf u ["0.01", "1000"] = .ok (.finite step) ∧ step.toRat = 10 ∧
      ∃ step' : Finite, stepOf u ["1000", "0.01"] = .ok (.finite step') ∧
        step'.toRat = step.toRat) ∧
    buildStep u .finite ["0.01", "1000"] = some 10 := by
  intro u
  have hread : ["0.01", "1000"].mapM (finiteOf u) = some [⟨false, 1, -2⟩, ⟨false, 1000, 0⟩] := by
    decide
  have hread' : ["1000", "0.01"].mapM (finiteOf u) = some [⟨false, 1000, 0⟩, ⟨false, 1, -2⟩] := by
    decide
  have hprod : ([⟨false, 1, -2⟩, ⟨false, 1000, 0⟩].map Finite.toRat).prod = 10 := by
    norm_num [Finite.toRat, Finite.signed]
  obtain ⟨step, hstep, hvalue, hbuilt, horder⟩ := (buildStep_exact u .finite ["0.01", "1000"]
    (fun ds hds => by
      rw [hread, Option.some.injEq] at hds
      rw [← hds]
      decide)).1 _ hread
  refine ⟨⟨step, hstep, by rw [hvalue, hprod], horder _ _ (List.Perm.swap _ _ _) hread' (by decide)⟩,
    ?_⟩
  rw [hbuilt, hprod]
  rfl

end Steps
end ExchangeRouter
