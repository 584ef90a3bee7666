import Mathlib.Algebra.BigOperators.Group.List.Basic
import Mathlib.Tactic.Linarith
import Mathlib.Tactic.Ring
import ExchangeRouter.Funding

/-!
# What `funding_paid` adds up to

A row pays an amount of its own, and `funding_paid` is their sum. Over a period that is split in
two, a continuous row pays what it pays over the whole, and a discrete row that settles at the
split pays twice.
-/

namespace ExchangeRouter
namespace Funding

open Frames (Raised Texts)

namespace Settlement

/-- The loop can add the row: no continuous row has a cycle of no length. -/
def Payable (r : Settlement) : Prop := r.discrete = true ∨ r.cycleMs ≠ 0

instance (r : Settlement) : Decidable r.Payable := inferInstanceAs (Decidable (_ ∨ _))

/-- What the row adds. -/
def amount (tOpen tClose : ℤ) (notional : ℚ) (r : Settlement) : ℚ :=
  if r.discrete then if tOpen ≤ r.ts ∧ r.ts ≤ tClose then notional * r.perCycle else 0
  else notional * r.perCycle * (r.overlapMs tOpen tClose / r.cycleMs)

end Settlement

section

variable (tOpen tClose : ℤ) (notional : ℚ)

/-- One pass of the loop. -/
theorem accrue_eq (paid : ℚ) (r : Settlement) :
    accrue tOpen tClose notional paid r =
      if r.Payable then .ok (paid + r.amount tOpen tClose notional) else .error .zeroDivision := by
  unfold accrue Settlement.Payable Settlement.amount
  by_cases hd : r.discrete = true
  · by_cases ht : tOpen ≤ r.ts ∧ r.ts ≤ tClose
    · simp [hd, ht]
    · simp [hd, ht]
  · by_cases hc : r.cycleMs = 0
    · simp [hd, hc]
    · simp [hd, hc]

/-- The loop adds the amounts, unless a row cannot be added. -/
theorem foldlM_accrue (rows : List Settlement) (paid : ℚ) :
    rows.foldlM (accrue tOpen tClose notional) paid =
      if ∀ r ∈ rows, r.Payable then
        .ok (paid + (rows.map (Settlement.amount tOpen tClose notional)).sum)
      else .error .zeroDivision := by
  induction rows generalizing paid with
  | nil => simp [pure, Except.pure]
  | cons r rows ih =>
    rw [List.foldlM_cons, accrue_eq]
    by_cases hr : r.Payable
    · have hstep : ((Except.ok (paid + r.amount tOpen tClose notional) : Except Raised ℚ) >>=
          fun paid => rows.foldlM (accrue tOpen tClose notional) paid) =
          rows.foldlM (accrue tOpen tClose notional) (paid + r.amount tOpen tClose notional) := rfl
      rw [if_pos hr, hstep, ih]
      simp [hr, add_assoc]
    · rw [if_neg hr, if_neg fun h => hr (h r (by simp))]
      rfl

/-- Rows in another order pay the same. -/
theorem foldlM_accrue_perm {rows rows' : List Settlement} (h : rows.Perm rows') (paid : ℚ) :
    rows.foldlM (accrue tOpen tClose notional) paid =
      rows'.foldlM (accrue tOpen tClose notional) paid := by
  have hpayable : (∀ r ∈ rows, r.Payable) ↔ ∀ r ∈ rows', r.Payable := by
    simp only [h.mem_iff]
  have hsum := (h.map (Settlement.amount tOpen tClose notional)).sum_eq
  rw [foldlM_accrue, foldlM_accrue, hsum]
  simp only [hpayable]

theorem fundingPaid_eq {texts : Texts} {rows : Rows} {rs : List Settlement}
    (h : normalizedRows texts rows = .ok rs) :
    fundingPaid texts rows tOpen tClose notional =
      rs.foldlM (accrue tOpen tClose notional) 0 := by
  unfold fundingPaid
  rw [h]
  rfl

theorem fundingPaid_of_cycle_pos {texts : Texts} {rows : Rows} {rs : List Settlement}
    (h : normalizedRows texts rows = .ok rs) (hcycle : ∀ r ∈ rs, 0 < r.cycleMs) :
    fundingPaid texts rows tOpen tClose notional =
      .ok (rs.map (Settlement.amount tOpen tClose notional)).sum := by
  have hpayable : ∀ r ∈ rs, r.Payable := fun r hr => .inr (hcycle r hr).ne'
  rw [fundingPaid_eq tOpen tClose notional h, foldlM_accrue, if_pos hpayable, zero_add]

end

/-! ## Splitting a period -/

section

variable {t₀ t₁ t₂ : ℤ} (h₀₁ : t₀ ≤ t₁) (h₁₂ : t₁ ≤ t₂)

include h₀₁ h₁₂

/-- The part of a window that a period covers, split with the period. -/
theorem overlapMs_split (r : Settlement) :
    r.overlapMs t₀ t₁ + r.overlapMs t₁ t₂ = r.overlapMs t₀ t₂ := by
  unfold Settlement.overlapMs
  have h₀ : (t₀ : ℚ) ≤ t₁ := by exact_mod_cast h₀₁
  have h₁ : (t₁ : ℚ) ≤ t₂ := by exact_mod_cast h₁₂
  generalize (r.ts : ℚ) = s at *
  -- the split lies before the window, inside it, or after it
  rcases le_or_gt (t₁ : ℚ) s with hs | hs
  · have hbefore : min (s + r.cycleMs) (t₁ : ℚ) - max s (t₀ : ℚ) ≤ 0 := by
      have := min_le_right (s + r.cycleMs) (t₁ : ℚ)
      have := le_max_left s (t₀ : ℚ)
      linarith
    rw [max_eq_left hbefore, zero_add, max_eq_left hs, max_eq_left (h₀.trans hs)]
  · rcases le_or_gt (s + r.cycleMs) (t₁ : ℚ) with he | he
    · have hafter : min (s + r.cycleMs) (t₂ : ℚ) - max s (t₁ : ℚ) ≤ 0 := by
        have := min_le_left (s + r.cycleMs) (t₂ : ℚ)
        have := le_max_right s (t₁ : ℚ)
        linarith
      rw [max_eq_left hafter, add_zero, min_eq_left he, min_eq_left (he.trans h₁)]
    · have hfirst : 0 ≤ (t₁ : ℚ) - max s (t₀ : ℚ) := sub_nonneg.mpr (max_le hs.le h₀)
      have hsecond : 0 ≤ min (s + r.cycleMs) (t₂ : ℚ) - t₁ := sub_nonneg.mpr (le_min he.le h₁)
      have hwhole : 0 ≤ min (s + r.cycleMs) (t₂ : ℚ) - max s (t₀ : ℚ) := by linarith
      rw [min_eq_right he.le, max_eq_right hs.le, max_eq_right hfirst, max_eq_right hsecond,
        max_eq_right hwhole]
      ring

/-- A row over both parts: what it pays over the whole, and once more what settles at the split. -/
theorem amount_split (notional : ℚ) (r : Settlement) :
    r.amount t₀ t₁ notional + r.amount t₁ t₂ notional =
      r.amount t₀ t₂ notional +
        if r.discrete = true ∧ r.ts = t₁ then notional * r.perCycle else 0 := by
  unfold Settlement.amount
  by_cases hd : r.discrete = true
  · simp only [hd, if_true, true_and]
    rcases lt_trichotomy r.ts t₁ with h | h | h
    · have hafter : ¬ (t₁ ≤ r.ts ∧ r.ts ≤ t₂) := by omega
      have hwhole : (t₀ ≤ r.ts ∧ r.ts ≤ t₂) ↔ (t₀ ≤ r.ts ∧ r.ts ≤ t₁) := by omega
      simp only [hafter, hwhole, h.ne, if_false]
    · have hbefore : t₀ ≤ r.ts ∧ r.ts ≤ t₁ := by omega
      have hafter : t₁ ≤ r.ts ∧ r.ts ≤ t₂ := by omega
      have hwhole : t₀ ≤ r.ts ∧ r.ts ≤ t₂ := by omega
      rw [if_pos hbefore, if_pos hafter, if_pos hwhole, if_pos h]
    · have hbefore : ¬ (t₀ ≤ r.ts ∧ r.ts ≤ t₁) := by omega
      have hwhole : (t₀ ≤ r.ts ∧ r.ts ≤ t₂) ↔ (t₁ ≤ r.ts ∧ r.ts ≤ t₂) := by omega
      simp only [hbefore, hwhole, h.ne', if_false, zero_add, add_zero]
  · have hsplit := overlapMs_split h₀₁ h₁₂ r
    simp only [hd, Bool.false_eq_true, if_false, false_and, add_zero]
    rw [← mul_add, ← add_div, hsplit]

end

/-- The rates that discrete rows settle at a time. -/
def settledAt (t : ℤ) (rows : List Settlement) : ℚ :=
  ((rows.filter fun r => r.discrete && decide (r.ts = t)).map Settlement.perCycle).sum

theorem settledAt_cons (t : ℤ) (r : Settlement) (rows : List Settlement) :
    settledAt t (r :: rows) =
      (if r.discrete = true ∧ r.ts = t then r.perCycle else 0) + settledAt t rows := by
  unfold settledAt
  by_cases h : r.discrete = true ∧ r.ts = t
  · simp [h]
  · have hfilter : (r.discrete && decide (r.ts = t)) = false := by
      rw [Bool.eq_false_iff, ne_eq, Bool.and_eq_true, decide_eq_true_eq]
      exact h
    rw [if_neg h, List.filter_cons_of_neg (by simp [hfilter]), zero_add]

theorem sum_amount_split {t₀ t₁ t₂ : ℤ} (h₀₁ : t₀ ≤ t₁) (h₁₂ : t₁ ≤ t₂) (notional : ℚ)
    (rows : List Settlement) :
    (rows.map (Settlement.amount t₀ t₁ notional)).sum +
        (rows.map (Settlement.amount t₁ t₂ notional)).sum =
      (rows.map (Settlement.amount t₀ t₂ notional)).sum + notional * settledAt t₁ rows := by
  induction rows with
  | nil => simp [settledAt]
  | cons r rows ih =>
    have hr := amount_split h₀₁ h₁₂ notional r
    have hsettled : notional * (if r.discrete = true ∧ r.ts = t₁ then r.perCycle else 0) =
        if r.discrete = true ∧ r.ts = t₁ then notional * r.perCycle else 0 := by
      rw [mul_ite, mul_zero]
    rw [settledAt_cons, mul_add, hsettled]
    simp only [List.map_cons, List.sum_cons]
    linarith

/-- Over both parts of a period `funding_paid` comes to its total over the whole, and the rates
that are settled at the split once more. -/
theorem fundingPaid_split (texts : Texts) (rows : Rows) (rs : List Settlement)
    (hrows : normalizedRows texts rows = .ok rs) (hcycle : ∀ r ∈ rs, 0 < r.cycleMs)
    (notional : ℚ) (t₀ t₁ t₂ : ℤ) (h₀₁ : t₀ ≤ t₁) (h₁₂ : t₁ ≤ t₂) :
    ∃ before after whole : ℚ,
      fundingPaid texts rows t₀ t₁ notional = .ok before ∧
      fundingPaid texts rows t₁ t₂ notional = .ok after ∧
      fundingPaid texts rows t₀ t₂ notional = .ok whole ∧
      before + after = whole + notional * settledAt t₁ rs :=
  ⟨_, _, _, fundingPaid_of_cycle_pos t₀ t₁ notional hrows hcycle,
    fundingPaid_of_cycle_pos t₁ t₂ notional hrows hcycle,
    fundingPaid_of_cycle_pos t₀ t₂ notional hrows hcycle,
    sum_amount_split h₀₁ h₁₂ notional rs⟩

/-- A discrete and a continuous row, and a split where the first one settles. -/
theorem fundingPaid_split_mixed :
    let rows : Rows := .list [
      .mapping (WireRow.dump ⟨"BTCUSDT", "linear", "USDT", "discrete", 1 / 10000, 28800000, 500⟩),
      .mapping (WireRow.dump ⟨"PF_XBTUSD", "linear", "USD", "continuous", 1 / 1000, 1000, 0⟩)]
    ∃ before after whole : ℚ,
      fundingPaid ⟨fun _ => none, fun _ => none⟩ rows 0 500 100 = .ok before ∧
      fundingPaid ⟨fun _ => none, fun _ => none⟩ rows 500 900 100 = .ok after ∧
      fundingPaid ⟨fun _ => none, fun _ => none⟩ rows 0 900 100 = .ok whole ∧
      before + after = whole + 100 * settledAt 500
        [⟨500, some (.str "discrete"), 1 / 10000, 28800000⟩,
          ⟨0, some (.str "continuous"), 1 / 1000, 1000⟩] :=
  fundingPaid_split ⟨fun _ => none, fun _ => none⟩ _
    [⟨500, some (.str "discrete"), 1 / 10000, 28800000⟩,
      ⟨0, some (.str "continuous"), 1 / 1000, 1000⟩] rfl (by simp) 100 0 500 900
    (by decide) (by decide)

/-- A split where a discrete row settles. -/
theorem fundingPaid_not_additive :
    ¬ ∀ (texts : Texts) (rows : Rows) (rs : List Settlement),
      normalizedRows texts rows = .ok rs → (∀ r ∈ rs, 0 < r.cycleMs) →
      ∀ (notional : ℚ) (t₀ t₁ t₂ : ℤ), t₀ ≤ t₁ → t₁ ≤ t₂ →
      ∃ before after : ℚ,
        fundingPaid texts rows t₀ t₁ notional = .ok before ∧
        fundingPaid texts rows t₁ t₂ notional = .ok after ∧
        fundingPaid texts rows t₀ t₂ notional = .ok (before + after) := by
  intro h
  let row : WireRow := ⟨"BTCUSDT", "linear", "USDT", "discrete", 1, 28800000, 0⟩
  let texts : Texts := ⟨fun _ => none, fun _ => none⟩
  obtain ⟨before, after, hbefore, hafter, hwhole⟩ := h texts (.list [.mapping row.dump])
    [⟨0, some (.str "discrete"), 1, 28800000⟩] rfl (by simp) 1 0 0 0 le_rfl le_rfl
  have hpaid : fundingPaid texts (.list [.mapping row.dump]) 0 0 1 = .ok 1 := by decide +kernel
  rw [hpaid] at hbefore hafter hwhole
  injection hbefore with hbefore
  injection hafter with hafter
  injection hwhole with hwhole
  rw [← hbefore, ← hafter] at hwhole
  norm_num at hwhole

end Funding
end ExchangeRouter
