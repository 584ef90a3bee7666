import Mathlib.Logic.Function.Basic

/-!
# A dictionary that is written over and never cleared

A list of writes, each under a key and possibly of nothing, goes into a dictionary entry by
entry. What is under a key afterwards is the last value the list writes there, or, where it
writes none, what was there before. So a list that is to leave exactly its own values has to
write every key that was there (`writeAll_eq_last_iff`), and one that is to change nothing must
repeat what was there (`writeAll_eq_self_iff`).
-/

namespace Overwrite

variable {κ β : Type*} [DecidableEq κ]

/-- One write, of nothing where the value is `none`. -/
def write (d : κ → Option β) (k : κ) (v : Option β) : κ → Option β :=
  match v with
  | none => d
  | some b => Function.update d k (some b)

/-- The writes one after the other. -/
def writeAll (d : κ → Option β) (ws : List (κ × Option β)) : κ → Option β :=
  ws.foldl (fun d w => write d w.1 w.2) d

/-- The last value that is written under a key. -/
def last : List (κ × Option β) → κ → Option β
  | [], _ => none
  | w :: ws, k => (last ws k).or (if w.1 = k then w.2 else none)

@[simp] lemma writeAll_nil (d : κ → Option β) : writeAll d [] = d := rfl

@[simp] lemma writeAll_cons (d : κ → Option β) (w : κ × Option β) (ws : List (κ × Option β)) :
    writeAll d (w :: ws) = writeAll (write d w.1 w.2) ws := rfl

lemma write_apply (d : κ → Option β) (k k' : κ) (v : Option β) :
    write d k v k' = (if k = k' then v else none).or (d k') := by
  cases v with
  | none =>
    rw [ite_self]
    rfl
  | some b =>
    by_cases h : k = k'
    · subst h
      simp [write]
    · simp [write, h, Function.update_of_ne (Ne.symm h)]

/-- What is under a key after the writes: by induction on them. -/
lemma writeAll_apply (d : κ → Option β) (ws : List (κ × Option β)) (k : κ) :
    writeAll d ws k = (last ws k).or (d k) := by
  induction ws generalizing d with
  | nil => rfl
  | cons w ws ih =>
    rw [writeAll_cons, ih, write_apply, ← Option.or_assoc]
    rfl

/-- Nothing is left over from before exactly when every key that was there is written. -/
theorem writeAll_eq_last_iff (d : κ → Option β) (ws : List (κ × Option β)) :
    writeAll d ws = last ws ↔ ∀ k, d k ≠ none → last ws k ≠ none := by
  constructor
  · intro h k hk hlast
    have hvalue := congrFun h k
    rw [writeAll_apply, hlast] at hvalue
    exact hk hvalue
  · intro h
    ext1 k
    rw [writeAll_apply]
    cases hlast : last ws k with
    | some b => rfl
    | none =>
      have hnone : d k = none := by
        by_contra hk
        exact h k hk hlast
      rw [hnone]
      rfl

/-- Nothing changes exactly when the last value written under a key is the one that was there. -/
theorem writeAll_eq_self_iff (d : κ → Option β) (ws : List (κ × Option β)) :
    writeAll d ws = d ↔ ∀ k b, last ws k = some b → d k = some b := by
  constructor
  · intro h k b hlast
    have hvalue := congrFun h k
    rw [writeAll_apply, hlast] at hvalue
    exact hvalue.symm
  · intro h
    ext1 k
    rw [writeAll_apply]
    cases hlast : last ws k with
    | none => rfl
    | some b => exact (h k b hlast).symm

end Overwrite
