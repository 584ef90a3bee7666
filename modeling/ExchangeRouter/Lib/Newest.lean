import Mathlib.Data.List.Sort
import Mathlib.Data.List.DropRight
import Mathlib.Data.List.Perm.Subperm

/-!
# The newest records of a history

A history is a list of records, each with an integer timestamp. `UpperPart` is a
part of it that nothing left out is newer than, `IsNewest n` is such a part of the
right size. Ties at the lower edge are left open: any of the records that share the
edge's timestamp may be the ones that are in.

The lemmas are the two steps a walk from the newest record backwards needs:

* a part with everything above an edge and nothing below it is an upper part
  (`UpperPart.of_edge`);
* the tail of a time-sorted upper part is an upper part again, and it has the
  `IsNewest` size as soon as the part is long enough or complete (`isNewest_rtake`).
-/

namespace Newest

variable {α : Type*} (ts : α → ℤ)

/-- Nothing of `all` that `part` leaves out is newer than a record of `part`. -/
structure UpperPart (all part : List α) : Prop where
  nodup : part.Nodup
  subset : part ⊆ all
  newer : ∀ x ∈ all, x ∉ part → ∀ y ∈ part, ts x ≤ ts y

/-- An upper part of `all` with `n` records, or with all of them where there are fewer. -/
structure IsNewest (n : ℕ) (all part : List α) : Prop extends UpperPart ts all part where
  length_eq : part.length = min n all.length

/-- Ascending in time. -/
def Ascending (xs : List α) : Prop := xs.Pairwise fun a b => ts a ≤ ts b

/-- Stable sort by timestamp. -/
def sortByTime (xs : List α) : List α := xs.insertionSort fun a b => ts a ≤ ts b

/-! ## Sorting by time -/

@[simp] lemma mem_sortByTime {xs : List α} {x : α} : x ∈ sortByTime ts xs ↔ x ∈ xs :=
  List.mem_insertionSort _

lemma sortByTime_perm (xs : List α) : (sortByTime ts xs).Perm xs := List.perm_insertionSort _ xs

@[simp] lemma length_sortByTime (xs : List α) : (sortByTime ts xs).length = xs.length :=
  (sortByTime_perm ts xs).length_eq

@[simp] lemma sortByTime_eq_nil {xs : List α} : sortByTime ts xs = [] ↔ xs = [] := by
  rw [← List.length_eq_zero_iff, length_sortByTime, List.length_eq_zero_iff]

lemma ascending_sortByTime (xs : List α) : Ascending ts (sortByTime ts xs) := by
  have htotal : Std.Total fun a b : α => ts a ≤ ts b := ⟨fun a b => le_total _ _⟩
  have htrans : IsTrans α fun a b => ts a ≤ ts b := ⟨fun _ _ _ => le_trans⟩
  exact List.pairwise_insertionSort _ xs

lemma Ascending.sort_eq {xs : List α} (h : Ascending ts xs) : sortByTime ts xs = xs :=
  List.Pairwise.insertionSort_eq h

/-- The head of an ascending list is its oldest record. -/
lemma Ascending.head_le {x : α} {xs : List α} (h : Ascending ts (x :: xs)) :
    ∀ y ∈ x :: xs, ts x ≤ ts y := by
  intro y hy
  rcases List.mem_cons.mp hy with rfl | hy
  · exact le_refl _
  · exact List.rel_of_pairwise_cons h hy

/-- The last of an ascending list is its newest record. -/
lemma Ascending.le_last {z : α} {xs : List α} (h : Ascending ts xs)
    (hlast : xs.getLast? = some z) : ∀ y ∈ xs, ts y ≤ ts z := by
  obtain ⟨init, rfl⟩ := List.getLast?_eq_some_iff.mp hlast
  intro y hy
  rcases List.mem_append.mp hy with hin | hin
  · exact (List.pairwise_append.mp h).2.2 y hin z (List.mem_singleton_self z)
  · rw [List.mem_singleton.mp hin]

/-! ## Upper parts -/

variable {ts}

lemma UpperPart.nil (all : List α) : UpperPart ts all [] :=
  ⟨List.nodup_nil, List.nil_subset _, fun _ _ _ _ hy => absurd hy List.not_mem_nil⟩

lemma UpperPart.perm {all part part' : List α} (h : UpperPart ts all part)
    (hp : part.Perm part') : UpperPart ts all part' where
  nodup := hp.nodup h.nodup
  subset := fun _ hx => h.subset (hp.mem_iff.mpr hx)
  newer := fun x hx hxp y hy =>
    h.newer x hx (fun hmem => hxp (hp.mem_iff.mp hmem)) y (hp.mem_iff.mpr hy)

lemma Ascending.rtake {xs : List α} (h : Ascending ts xs) (n : ℕ) :
    Ascending ts (xs.rtake n) := h.sublist (List.drop_sublist _ _)

/-- A part that holds everything above an edge and nothing below it is an upper part. -/
lemma UpperPart.of_edge {all part : List α} (edge : ℤ) (hnodup : part.Nodup)
    (hsub : part ⊆ all) (habove : ∀ x ∈ all, edge < ts x → x ∈ part)
    (hbelow : ∀ y ∈ part, edge ≤ ts y) : UpperPart ts all part := by
  refine ⟨hnodup, hsub, ?_⟩
  intro x hx hxp y hy
  have hx_le : ts x ≤ edge := not_lt.mp fun hlt => hxp (habove x hx hlt)
  exact hx_le.trans (hbelow y hy)

/-- Fewer than `n` newest records are all the records there are. -/
lemma IsNewest.complete_of_short {n : ℕ} {all part : List α} (h : IsNewest ts n all part)
    (hshort : part.length < n) : all ⊆ part := by
  have hlen := h.length_eq
  have hle : all.length ≤ part.length := by omega
  have hperm : part.Perm all := (h.nodup.subperm h.subset).perm_of_length_le hle
  exact fun x hx => hperm.mem_iff.mpr hx

/-- A part with every record of the history is an upper part. -/
lemma UpperPart.of_complete {all part : List α} (hnodup : part.Nodup) (hsub : part ⊆ all)
    (hall : all ⊆ part) : UpperPart ts all part :=
  ⟨hnodup, hsub, fun _ hx hxp => absurd (hall hx) hxp⟩

/-- The tail of a time-sorted upper part is an upper part. -/
lemma UpperPart.rtake {all part : List α} (h : UpperPart ts all part)
    (hsorted : Ascending ts part) (n : ℕ) : UpperPart ts all (part.rtake n) := by
  have hsplit : part.take (part.length - n) ++ part.rtake n = part :=
    List.take_append_drop _ _
  refine ⟨h.nodup.sublist (List.drop_sublist _ _),
    fun _ hx => h.subset (List.mem_of_mem_drop hx), ?_⟩
  intro x hx hxp y hy
  by_cases hmem : x ∈ part
  · -- a record of the part that the tail drops stands before every record of the tail
    have hx_take : x ∈ part.take (part.length - n) := by
      rw [← hsplit] at hmem
      exact (List.mem_append.mp hmem).resolve_right hxp
    have hpair := hsplit ▸ hsorted
    exact (List.pairwise_append.mp hpair).2.2 x hx_take y hy
  · exact h.newer x hx hmem y (List.mem_of_mem_drop hy)

/-- The tail of a time-sorted upper part holds the newest `n` records, once the part has
that many or has everything. -/
theorem isNewest_rtake {all part : List α} (h : UpperPart ts all part)
    (hsorted : Ascending ts part) (hall : all.Nodup) {n : ℕ}
    (hlen : n ≤ part.length ∨ all ⊆ part) : IsNewest ts n all (part.rtake n) := by
  refine ⟨h.rtake hsorted n, ?_⟩
  have hle : part.length ≤ all.length := (h.nodup.subperm h.subset).length_le
  have hrtake : (part.rtake n).length = min n part.length := by
    rw [List.rtake, List.length_drop]; omega
  rw [hrtake]
  rcases hlen with hn | hcomplete
  · omega
  · have hge : all.length ≤ part.length := (hall.subperm hcomplete).length_le
    omega

end Newest
