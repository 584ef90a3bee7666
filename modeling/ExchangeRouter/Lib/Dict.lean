import Mathlib.Data.List.AList
import Mathlib.Data.List.Induction

/-!
# A dictionary after an update

`AList` as a dictionary: what is under a key after another key, or the same, was written or
popped. A task table is a list that a task's number indexes; `get_set` is the same for it.
-/

namespace Dict

variable {κ β : Type*} [DecidableEq κ]

/-- What is under `k` after `d[a] = v`. -/
lemma lookup_insert (d : AList fun _ : κ => β) (a k : κ) (v : β) :
    (d.insert a v).lookup k = if k = a then some v else d.lookup k := by
  by_cases h : k = a
  · rw [if_pos h, h]
    exact AList.lookup_insert d
  · rw [if_neg h]
    exact AList.lookup_insert_ne h

/-- What is under `k` after `d.pop(a, None)`. -/
lemma lookup_erase (d : AList fun _ : κ => β) (a k : κ) :
    (d.erase a).lookup k = if k = a then none else d.lookup k := by
  by_cases h : k = a
  · rw [if_pos h, h]
    exact AList.lookup_erase a d
  · rw [if_neg h]
    exact AList.lookup_erase_ne h

lemma lookup_empty (k : κ) : (∅ : AList fun _ : κ => β).lookup k = none := rfl

/-- A dictionary that has nothing under any key is the empty one. -/
lemma eq_empty {d : AList fun _ : κ => β} (h : ∀ k, d.lookup k = none) : d = ∅ := by
  have hkeys : d.keys = [] := by
    apply List.eq_nil_iff_forall_not_mem.mpr
    intro k hk
    exact AList.lookup_eq_none.mp (h k) (AList.mem_keys.mpr hk)
  apply AList.ext
  exact List.map_eq_nil_iff.mp hkeys

/-- Entry `j` of a table after entry `i`, which it has, was written. -/
lemma get_set {xs : List β} {i : ℕ} {x : β} (h : xs[i]? = some x) (y : β) (j : ℕ) :
    (xs.set i y)[j]? = if j = i then some y else xs[j]? := by
  have hlt : i < xs.length := (List.getElem?_eq_some_iff.mp h).1
  rw [List.getElem?_set]
  by_cases hij : i = j
  · rw [if_pos hij, if_pos hij.symm, if_pos hlt]
  · rw [if_neg hij, if_neg (Ne.symm hij)]

/-- What is found at `j` once something was written at `i`. -/
lemma of_get_set {xs : List β} {i j : ℕ} {x y : β} (h : (xs.set i y)[j]? = some x) :
    (j = i ∧ x = y) ∨ (j ≠ i ∧ xs[j]? = some x) := by
  rw [List.getElem?_set] at h
  by_cases hij : i = j
  · rw [if_pos hij] at h
    split at h
    · exact Or.inl ⟨hij.symm, (Option.some.inj h).symm⟩
    · exact absurd h (by simp)
  · rw [if_neg hij] at h
    exact Or.inr ⟨Ne.symm hij, h⟩

/-- Entry `j` of a table after an entry was put at its end. -/
lemma get_append (xs : List β) (y : β) (j : ℕ) :
    (xs ++ [y])[j]? = if j = xs.length then some y else xs[j]? := by
  by_cases h : j = xs.length
  · rw [if_pos h, h, List.getElem?_concat_length]
  · rw [if_neg h]
    rcases lt_or_gt_of_ne h with hlt | hgt
    · exact List.getElem?_append_left hlt
    · rw [List.getElem?_eq_none (by simp; omega), List.getElem?_eq_none (by omega)]

/-! ## A dictionary built by a loop -/

/-- `d = {}`, and then `d[k] = v` for each of the writes. -/
def ofWrites (writes : List (κ × β)) : AList fun _ : κ => β :=
  writes.foldl (fun d w => d.insert w.1 w.2) ∅

/-- The last value written under a key. -/
def lastWrite (writes : List (κ × β)) (k : κ) : Option β :=
  (writes.reverse.find? fun w => decide (w.1 = k)).map Prod.snd

/-- What is under a key is what was last written there. -/
theorem lookup_ofWrites (writes : List (κ × β)) (k : κ) :
    (ofWrites writes).lookup k = lastWrite writes k := by
  induction writes using List.reverseRecOn with
  | nil => rfl
  | append_singleton writes w ih =>
    unfold ofWrites lastWrite
    rw [List.foldl_append, List.foldl_cons, List.foldl_nil, lookup_insert, List.reverse_append,
      List.reverse_singleton, List.singleton_append, List.find?_cons]
    by_cases hk : k = w.1
    · simp [hk]
    · rw [if_neg hk, decide_eq_false (Ne.symm hk)]
      exact ih

/-- Where the writes under a key agree, that is what is there. -/
lemma lastWrite_eq {writes : List (κ × β)} {k : κ} {v : β} (hmem : (k, v) ∈ writes)
    (hagree : ∀ w ∈ writes, w.1 = k → w.2 = v) : lastWrite writes k = some v := by
  unfold lastWrite
  cases hfind : writes.reverse.find? fun w => decide (w.1 = k) with
  | none =>
    have hnone := List.find?_eq_none.mp hfind (k, v) (List.mem_reverse.mpr hmem)
    exact absurd (decide_eq_true rfl) hnone
  | some w =>
    have hkey : w.1 = k := by simpa using List.find?_some hfind
    have hin := List.mem_reverse.mp (List.mem_of_find?_eq_some hfind)
    rw [Option.map_some, hagree w hin hkey]

lemma lastWrite_eq_none {writes : List (κ × β)} {k : κ} :
    lastWrite writes k = none ↔ ∀ w ∈ writes, w.1 ≠ k := by
  unfold lastWrite
  rw [Option.map_eq_none_iff, List.find?_eq_none]
  simp

/-- A loop that writes does not leave the dictionary empty. -/
lemma ofWrites_ne_empty {writes : List (κ × β)} (h : writes ≠ []) : ofWrites writes ≠ ∅ := by
  obtain ⟨w, hw⟩ := List.exists_mem_of_ne_nil writes h
  intro hempty
  have hlookup := lookup_ofWrites writes w.1
  rw [hempty, lookup_empty] at hlookup
  exact lastWrite_eq_none.mp hlookup.symm w hw rfl

end Dict
