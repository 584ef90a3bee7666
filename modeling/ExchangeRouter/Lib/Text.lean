import Mathlib.Data.List.Infix

/-!
# Taking a pattern out of a text

`remove` takes out the occurrences of a pattern, the leftmost first, without looking again at
what is left. Where the first letter of the pattern is not in a text, no occurrence begins
there.
-/

namespace Text

variable {α : Type*} [DecidableEq α]

/-- The text without the occurrences of `pat`, after `skip` letters of one. -/
def removeFrom (pat : List α) : ℕ → List α → List α
  | _, [] => []
  | skip + 1, _ :: s => removeFrom pat skip s
  | 0, a :: s =>
    if pat <+: a :: s then removeFrom pat (pat.length - 1) s else a :: removeFrom pat 0 s

/-- The text without the occurrences of `pat`, which is not empty. -/
def remove (pat s : List α) : List α := removeFrom pat 0 s

lemma mem_of_mem_removeFrom {pat : List α} {b : α} (skip : ℕ) (s : List α)
    (h : b ∈ removeFrom pat skip s) : b ∈ s := by
  induction s generalizing skip with
  | nil =>
    unfold removeFrom at h
    exact h
  | cons a s ih =>
    cases skip with
    | succ skip => exact List.mem_cons_of_mem a (ih skip h)
    | zero =>
      unfold removeFrom at h
      split at h
      · exact List.mem_cons_of_mem a (ih _ h)
      · rcases List.mem_cons.mp h with h | h
        · exact h ▸ List.mem_cons_self
        · exact List.mem_cons_of_mem a (ih 0 h)

lemma mem_of_mem_remove {pat s : List α} {b : α} (h : b ∈ remove pat s) : b ∈ s :=
  mem_of_mem_removeFrom 0 s h

/-- No occurrence begins in a text without the first letter of the pattern. -/
lemma remove_append {a : α} {pat s : List α} (h : a ∉ s) (t : List α) :
    remove (a :: pat) (s ++ t) = s ++ remove (a :: pat) t := by
  unfold remove
  induction s with
  | nil => rfl
  | cons b s ih =>
    have hne : ¬ (a :: pat <+: b :: (s ++ t)) := fun hpre =>
      h ((List.cons_prefix_cons.mp hpre).1 ▸ List.mem_cons_self)
    rw [List.cons_append, removeFrom, if_neg hne, List.cons_append,
      ih fun hin => h (List.mem_cons_of_mem b hin)]

lemma remove_of_notMem {a : α} {pat s : List α} (h : a ∉ s) : remove (a :: pat) s = s := by
  have happ : remove (a :: pat) (s ++ []) = s ++ remove (a :: pat) [] := remove_append h []
  rw [List.append_nil] at happ
  exact happ.trans (List.append_nil s)

lemma length_removeFrom_le (pat : List α) (skip : ℕ) (s : List α) :
    (removeFrom pat skip s).length ≤ s.length := by
  induction s generalizing skip with
  | nil => exact le_rfl
  | cons a s ih =>
    cases skip with
    | succ skip => exact (ih skip).trans (Nat.le_succ _)
    | zero =>
      unfold removeFrom
      split
      · exact (ih _).trans (Nat.le_succ _)
      · exact Nat.succ_le_succ (ih 0)

/-- A text in which the pattern occurs comes out shorter. -/
lemma length_remove_lt {pat s : List α} (hpat : pat ≠ []) (h : pat <:+: s) :
    (remove pat s).length < s.length := by
  unfold remove
  induction s with
  | nil => exact absurd (List.infix_nil.mp h) hpat
  | cons a s ih =>
    unfold removeFrom
    split
    · exact Nat.lt_succ_of_le (length_removeFrom_le pat _ s)
    · next hpre => exact Nat.succ_lt_succ (ih ((List.infix_cons_iff.mp h).resolve_left hpre))

end Text
