import Mathlib.Algebra.Order.Group.Defs
import Mathlib.Data.List.TakeWhile

/-!
# Times in a sliding window

A limiter admits at most `n` events in a window of length `w`, and keeps only the newest times:
what it has thrown away is older than a window. `Bounded` is about every closed interval of that
length, and a new time keeps it while fewer than `n` recent ones are kept.
-/

namespace Windows

variable {τ : Type*} [AddCommGroup τ] [LinearOrder τ]

/-- How many of the times are in the closed interval of length `w` from `t` on. -/
def countFrom (w : τ) (times : List τ) (t : τ) : ℕ :=
  times.countP fun a => decide (t ≤ a ∧ a ≤ t + w)

/-- No closed interval of length `w` has more than `n` of the times. -/
def Bounded (n : ℕ) (w : τ) (times : List τ) : Prop := ∀ t, countFrom w times t ≤ n

/-- The times that are kept are the last ones, and what was before them is over a window old. -/
def Recent (w now : τ) (times kept : List τ) : Prop :=
  ∃ old, times = old ++ kept ∧ ∀ a ∈ old, a < now - w

lemma bounded_nil (n : ℕ) (w : τ) : Bounded n w [] := fun _ => Nat.zero_le n

lemma Recent.nil (w now : τ) : Recent w now [] [] := ⟨[], rfl, fun _ h => absurd h List.not_mem_nil⟩

lemma countFrom_append (w : τ) (times times' : List τ) (t : τ) :
    countFrom w (times ++ times') t = countFrom w times t + countFrom w times' t :=
  List.countP_append

/-- The eviction of the oldest times, by a strict comparison. -/
lemma Recent.evict {w now : τ} {times kept : List τ} (h : Recent w now times kept) :
    Recent w now times (kept.dropWhile fun a => decide (a < now - w)) := by
  obtain ⟨old, htimes, hold⟩ := h
  refine ⟨old ++ kept.takeWhile fun a => decide (a < now - w), ?_, ?_⟩
  · rw [List.append_assoc, List.takeWhile_append_dropWhile]
    exact htimes
  · intro a ha
    rcases List.mem_append.mp ha with ha | ha
    · exact hold a ha
    · have hlt := List.mem_takeWhile_imp ha
      exact of_decide_eq_true hlt

/-- The newest time is kept. -/
lemma Recent.snoc {w now : τ} {times kept : List τ} (h : Recent w now times kept) (a : τ) :
    Recent w now (times ++ [a]) (kept ++ [a]) := by
  obtain ⟨old, htimes, hold⟩ := h
  exact ⟨old, by rw [htimes, List.append_assoc], hold⟩

variable [IsOrderedAddMonoid τ] {n : ℕ} {w now : τ} {times kept : List τ}

/-- Time goes on. -/
lemma Recent.later {later : τ} (h : Recent w now times kept) (hle : now ≤ later) :
    Recent w later times kept := by
  obtain ⟨old, htimes, hold⟩ := h
  exact ⟨old, htimes, fun a ha => lt_of_lt_of_le (hold a ha) (sub_le_sub_right hle w)⟩

/-- A window that reaches to now has none of the times that were thrown away. -/
lemma Recent.countFrom_le (h : Recent w now times kept) {t : τ} (hreach : now ≤ t + w) :
    countFrom w times t ≤ kept.length := by
  obtain ⟨old, rfl, hold⟩ := h
  have hnone : countFrom w old t = 0 := by
    apply List.countP_eq_zero.mpr
    intro a ha hin
    have hbefore : a < t := lt_of_lt_of_le (hold a ha) (sub_le_iff_le_add.mpr hreach)
    exact absurd (of_decide_eq_true hin).1 (not_le.mpr hbefore)
  rw [countFrom_append, hnone, Nat.zero_add]
  exact List.countP_le_length

/-- With fewer than `n` recent times, one more is admitted. -/
theorem Bounded.snoc (hbounded : Bounded n w times) (hrecent : Recent w now times kept)
    (hroom : kept.length < n) : Bounded n w (times ++ [now]) := by
  intro t
  rw [countFrom_append]
  by_cases hin : t ≤ now ∧ now ≤ t + w
  · have hone : countFrom w [now] t ≤ 1 := List.countP_le_length
    have hkept := hrecent.countFrom_le hin.2
    omega
  · have hnone : countFrom w [now] t = 0 := by
      apply List.countP_eq_zero.mpr
      intro a ha hin'
      rw [List.mem_singleton.mp ha] at hin'
      exact hin (of_decide_eq_true hin')
    rw [hnone]
    exact hbounded t

end Windows
