import Mathlib.Data.List.Basic
import Mathlib.Order.Basic

/-!
# Brackets

A table that says from which bound on each of its rows is in force, and the same table as tiers
that say where they end, the last one open. A position is the bounds that it does not exceed, an
upper set of them: whether it may reach the end of a tier itself is left to it.
-/

namespace Brackets

variable {κ α : Type*}

/-- The rows as tiers: each ends where the next one begins. -/
def tiers : List (κ × α) → List (Option κ × α)
  | [] => []
  | [r] => [(none, r.2)]
  | r :: r' :: rs => (some r'.1, r.2) :: tiers (r' :: rs)

@[simp] lemma length_tiers (rows : List (κ × α)) : (tiers rows).length = rows.length := by
  induction rows with
  | nil => rfl
  | cons r rows ih =>
    cases rows with
    | nil => rfl
    | cons r' rs => exact congrArg (· + 1) ih

/-- The last row that the position is above the bound of. -/
def inForce (upTo : κ → Bool) (rows : List (κ × α)) : Option α :=
  ((rows.filter fun r => !upTo r.1).getLast?).map Prod.snd

/-- The first tier that the position is in. -/
def covering (upTo : κ → Bool) (ts : List (Option κ × α)) : Option α :=
  (ts.find? fun t => t.1.all upTo).map Prod.snd

/-- The tiers and the rows say the same of every position. -/
theorem covering_tiers [Preorder κ] {upTo : κ → Bool}
    (hup : ∀ b b', b ≤ b' → upTo b = true → upTo b' = true) {rows : List (κ × α)}
    (hsorted : rows.Pairwise fun r r' => r.1 ≤ r'.1)
    (hfirst : ∀ r ∈ rows.head?, upTo r.1 = false) :
    covering upTo (tiers rows) = inForce upTo rows := by
  induction rows with
  | nil => rfl
  | cons r rows ih =>
    have hr : upTo r.1 = false := hfirst r rfl
    obtain ⟨hle, htail⟩ := List.pairwise_cons.mp hsorted
    cases rows with
    | nil => simp [covering, inForce, tiers, hr]
    | cons r' rs =>
      cases hnext : upTo r'.1 with
      | true =>
        -- the position ends in this row, and every later one begins above it
        have hnone : (r' :: rs).filter (fun x => !upTo x.1) = [] := by
          refine List.filter_eq_nil_iff.mpr fun x hx => ?_
          have hx' : upTo x.1 = true := by
            rcases List.mem_cons.mp hx with rfl | hrs
            · exact hnext
            · exact hup _ _ ((List.pairwise_cons.mp htail).1 x hrs) hnext
          simp [hx']
        have hforce : inForce upTo (r :: r' :: rs) = some r.2 := by
          unfold inForce
          rw [List.filter_cons_of_pos (by simp [hr]), hnone]
          rfl
        rw [hforce]
        simp [covering, tiers, hnext]
      | false =>
        have hskip : covering upTo (tiers (r :: r' :: rs)) = covering upTo (tiers (r' :: rs)) := by
          simp [covering, tiers, hnext]
        have hforce : inForce upTo (r :: r' :: rs) = inForce upTo (r' :: rs) := by
          unfold inForce
          rw [List.filter_cons_of_pos (by simp [hr]), List.filter_cons_of_pos (by simp [hnext]),
            List.getLast?_cons_cons]
        rw [hskip, hforce]
        refine ih htail fun x hx => ?_
        rw [← Option.some.inj hx]
        exact hnext

/-- Tiers with other bounds, where the position is up to the new bound as to the old one. -/
lemma covering_map {κ' : Type*} {upTo : κ → Bool} {upTo' : κ' → Bool} {f : κ → κ'}
    {ts : List (Option κ × α)} (h : ∀ t ∈ ts, ∀ b ∈ t.1, upTo' (f b) = upTo b) :
    covering upTo' (ts.map fun t => (t.1.map f, t.2)) = covering upTo ts := by
  induction ts with
  | nil => rfl
  | cons t ts ih =>
    have hhead : (t.1.map f).all upTo' = t.1.all upTo := by
      cases hb : t.1 with
      | none => rfl
      | some b => exact h t List.mem_cons_self b hb
    have htail := ih fun t' ht' => h t' (List.mem_cons_of_mem _ ht')
    unfold covering at htail ⊢
    rw [List.map_cons, List.find?_cons, List.find?_cons, hhead]
    cases t.1.all upTo with
    | true => rfl
    | false => exact htail

end Brackets
