import ExchangeRouter.Lib.Newest
import Mathlib.Data.List.Chain

/-!
# Histories without ties

Where no two records share a time there is one upper part of each size, the tail of the
history (`IsNewest.sort_eq_rtake`), and what lies after an edge is such a tail
(`Chronological.filter_after`). `ReadsAs` is a history that is read row by row: the newest rows
are read as the newest records.
-/

namespace Newest

variable {α : Type*} {ts : α → ℤ}

/-! ## The order of a history -/

variable (ts) in
/-- In time order, with no two records at one time. -/
def Chronological (xs : List α) : Prop := xs.Pairwise fun a b => ts a < ts b

lemma Chronological.ascending {xs : List α} (h : Chronological ts xs) : Ascending ts xs :=
  h.imp le_of_lt

lemma Chronological.sublist {xs ys : List α} (h : Chronological ts xs) (hsub : ys.Sublist xs) :
    Chronological ts ys := List.Pairwise.sublist hsub h

lemma Chronological.nodup {xs : List α} (h : Chronological ts xs) : xs.Nodup :=
  h.imp fun hlt heq => absurd (congrArg ts heq) hlt.ne

lemma Chronological.nodup_times {xs : List α} (h : Chronological ts xs) : (xs.map ts).Nodup := by
  rw [List.Nodup, List.pairwise_map]
  exact h.imp fun hlt => hlt.ne

/-- A time names its record. -/
lemma Chronological.eq_of_time {xs : List α} (h : Chronological ts xs) {x y : α} (hx : x ∈ xs)
    (hy : y ∈ xs) (heq : ts x = ts y) : x = y :=
  List.inj_on_of_nodup_map h.nodup_times hx hy heq

/-! ## Tails -/

/-- Whatever order its records come in, sorting restores the history. -/
lemma Chronological.sort_of_perm {xs ys : List α} (h : Chronological ts xs) (hperm : ys.Perm xs) :
    sortByTime ts ys = xs := by
  have hperm' : (sortByTime ts ys).Perm xs := (sortByTime_perm ts ys).trans hperm
  refine hperm'.eq_of_pairwise ?_ (ascending_sortByTime ts ys) h.ascending
  intro x y hx hy hxy hyx
  exact h.eq_of_time (hperm'.mem_iff.mp hx) hy (le_antisymm hxy hyx)

/-- The newest records of a history are its tail. -/
theorem IsNewest.sort_eq_rtake {n : ℕ} {all part : List α} (h : IsNewest ts n all part)
    (hall : Chronological ts all) : sortByTime ts part = all.rtake n := by
  have htail : Chronological ts (all.rtake n) := hall.sublist (List.drop_sublist _ _)
  refine htail.sort_of_perm ?_
  have hlen : (all.rtake n).length = part.length := by
    rw [h.length_eq, List.rtake, List.length_drop]
    omega
  -- a record that only the part has would be older than one that only the tail has
  have hsub : part ⊆ all.rtake n := by
    intro y hy
    by_contra hout
    have hmore : ¬ all.rtake n ⊆ part := by
      intro hin
      have hperm := (htail.nodup.subperm hin).perm_of_length_le hlen.ge
      exact hout (hperm.mem_iff.mpr hy)
    obtain ⟨x, hx, hxp⟩ : ∃ x ∈ all.rtake n, x ∉ part := by
      simpa [List.subset_def] using hmore
    have hxall : x ∈ all := List.mem_of_mem_drop hx
    have hle := h.newer x hxall hxp y hy
    have hsplit : all.take (all.length - n) ++ all.rtake n = all := List.take_append_drop _ _
    have hy_take : y ∈ all.take (all.length - n) := by
      have hmem := h.subset hy
      rw [← hsplit] at hmem
      exact (List.mem_append.mp hmem).resolve_right hout
    have hpair := hsplit ▸ hall
    have hlt := (List.pairwise_append.mp hpair).2.2 y hy_take x hx
    omega
  exact (h.nodup.subperm hsub).perm_of_length_le hlen.le

/-- The tail of a history is its newest records. -/
lemma Chronological.isNewest_rtake {all : List α} (h : Chronological ts all) (n : ℕ) :
    IsNewest ts n all (all.rtake n) :=
  Newest.isNewest_rtake (UpperPart.of_complete h.nodup (List.Subset.refl _)
    (List.Subset.refl _)) h.ascending h.nodup (Or.inr (List.Subset.refl _))

/-- A tail of a tail. -/
lemma rtake_rtake_min (xs : List α) (m n : ℕ) : (xs.rtake m).rtake n = xs.rtake (min m n) := by
  simp only [List.rtake, List.drop_drop, List.length_drop]
  congr 1
  omega

lemma rtake_rtake (xs : List α) {m n : ℕ} (h : n ≤ m ∨ xs.length ≤ m) :
    (xs.rtake m).rtake n = xs.rtake n := by
  rw [rtake_rtake_min]
  simp only [List.rtake]
  congr 1
  omega

lemma rtake_of_le {xs : List α} {n : ℕ} (h : xs.length ≤ n) : xs.rtake n = xs := by
  rw [List.rtake, Nat.sub_eq_zero_of_le h, List.drop_zero]

lemma length_rtake (xs : List α) (n : ℕ) : (xs.rtake n).length = min n xs.length := by
  rw [List.rtake, List.length_drop]
  omega

/-- Two tails are the same when they have the same length. -/
lemma rtake_eq_rtake_iff (xs : List α) (m n : ℕ) :
    xs.rtake m = xs.rtake n ↔ min m xs.length = min n xs.length := by
  constructor
  · intro heq
    rw [← length_rtake, ← length_rtake, heq]
  · intro hlength
    simp only [List.rtake]
    congr 1
    omega

/-- An upper part is the tail of its own length. -/
lemma UpperPart.sort_eq_rtake {all part : List α} (h : UpperPart ts all part)
    (hall : Chronological ts all) : sortByTime ts part = all.rtake part.length := by
  refine IsNewest.sort_eq_rtake ⟨h, ?_⟩ hall
  have hle := (h.nodup.subperm h.subset).length_le
  omega

/-- A tail lies in an upper part exactly where that part has the tail at its own end. -/
lemma UpperPart.rtake_eq_iff {all part : List α} (h : UpperPart ts all part)
    (hall : Chronological ts all) (n : ℕ) :
    (sortByTime ts part).rtake n = all.rtake n ↔ all.rtake n ⊆ part := by
  constructor
  · intro heq x hx
    rw [← heq] at hx
    exact (mem_sortByTime ts).mp (List.mem_of_mem_drop hx)
  · intro hsub
    rw [h.sort_eq_rtake hall]
    apply rtake_rtake
    have hnodup : (all.rtake n).Nodup := hall.nodup.sublist (List.drop_sublist _ _)
    have hle := (hnodup.subperm hsub).length_le
    rw [length_rtake] at hle
    omega

/-- What passes from all the newer records to each record of a tail holds in the tail. Induction
on the history from its oldest record: nothing that comes later in it is older. -/
lemma Chronological.rtake_induction {all : List α} (h : Chronological ts all) {n : ℕ}
    {p : α → Prop} (hstep : ∀ x ∈ all.rtake n, (∀ y ∈ all, ts x < ts y → p y) → p x) :
    ∀ x ∈ all.rtake n, p x := by
  induction all with
  | nil => exact fun x hx => absurd (List.mem_of_mem_drop hx) List.not_mem_nil
  | cons z all ih =>
    obtain ⟨hz, hall⟩ := List.pairwise_cons.mp h
    rcases Nat.lt_or_ge all.length n with hlong | hshort
    · have hwhole : (z :: all).rtake n = z :: all :=
        rtake_of_le (by rw [List.length_cons]; omega)
      rw [hwhole] at hstep ⊢
      have hrest : ∀ x ∈ all, p x := by
        rw [rtake_of_le hlong.le] at ih
        apply ih hall
        intro x hx hnewer
        apply hstep x (List.mem_cons_of_mem _ hx)
        intro y hy hlt
        rcases List.mem_cons.mp hy with rfl | hy
        · exact absurd (hz x hx) hlt.not_gt
        · exact hnewer y hy hlt
      intro x hx
      rcases List.mem_cons.mp hx with rfl | hx
      · apply hstep x List.mem_cons_self
        intro y hy hlt
        rcases List.mem_cons.mp hy with rfl | hy
        · exact absurd hlt (lt_irrefl _)
        · exact hrest y hy
      · exact hrest x hx
    · have hdrop : (z :: all).rtake n = all.rtake n := by
        rw [List.rtake, List.length_cons, Nat.sub_add_comm hshort, List.drop_succ_cons, List.rtake]
      rw [hdrop] at hstep ⊢
      apply ih hall
      intro x hx hnewer
      apply hstep x hx
      intro y hy hlt
      rcases List.mem_cons.mp hy with rfl | hy
      · exact absurd (hz x (List.mem_of_mem_drop hx)) hlt.not_gt
      · exact hnewer y hy hlt

/-- Where no gap is longer than a step, and the newest record is less than one before the anchor,
the newest `n` are less than `n` steps before it. -/
lemma rtake_within {step anchor : ℤ} (hstep : 0 ≤ step) {all : List α}
    (hgaps : all.IsChain fun x y => ts y ≤ ts x + step)
    (hlast : ∀ z ∈ all.getLast?, anchor < ts z + step) (n : ℕ) :
    ∀ x ∈ all.rtake n, anchor < ts x + n * step := by
  induction all using List.reverseRecOn generalizing n anchor with
  | nil => exact fun x hx => absurd (List.mem_of_mem_drop hx) List.not_mem_nil
  | append_singleton init z ih =>
    obtain ⟨hinit, -, hjoin⟩ := List.isChain_append.mp hgaps
    have hz : anchor < ts z + step := hlast z (by simp)
    cases n with
    | zero =>
      intro x hx
      rw [List.rtake_zero] at hx
      exact absurd hx List.not_mem_nil
    | succ n =>
      intro x hx
      rw [List.rtake_concat_succ] at hx
      rw [Int.natCast_succ, Int.add_mul, Int.one_mul]
      rcases List.mem_append.mp hx with hx | hx
      · have hback : ∀ y ∈ init.getLast?, anchor - step < ts y + step := by
          intro y hy
          have hgap := hjoin y hy z (by simp)
          omega
        have hmem := ih hinit hback n x hx
        omega
      · have hnonneg : 0 ≤ (n : ℤ) * step := Int.mul_nonneg (Int.natCast_nonneg n) hstep
        rw [List.mem_singleton.mp hx]
        omega

/-- A history that is not empty has a newest record, and every tail of it has that record. -/
lemma Chronological.exists_newest {all : List α} (h : Chronological ts all) (hne : all ≠ []) :
    ∃ z ∈ all, (∀ y ∈ all, ts y ≤ ts z) ∧ ∀ n, 1 ≤ n → z ∈ all.rtake n := by
  obtain ⟨init, z, rfl⟩ := (List.eq_nil_or_concat all).resolve_left hne
  rw [List.concat_eq_append] at h ⊢
  refine ⟨z, by simp, fun y hy => ?_, fun n hn => ?_⟩
  · rcases List.mem_append.mp hy with hin | hin
    · exact ((List.pairwise_append.mp h).2.2 y hin z (by simp)).le
    · rw [List.mem_singleton.mp hin]
  · obtain ⟨k, rfl⟩ := Nat.exists_eq_add_of_le' hn
    rw [List.rtake_concat_succ]
    simp

/-- What is chosen with everything newer is an upper part of the history. -/
lemma Chronological.upperPart_filter {all : List α} (h : Chronological ts all) {p : α → Bool}
    (hp : ∀ x y, ts x < ts y → p x = true → p y = true) : UpperPart ts all (all.filter p) := by
  refine ⟨h.nodup.sublist List.filter_sublist, List.filter_subset_self _, fun x hx hout y hy => ?_⟩
  by_contra hlt
  apply hout
  exact List.mem_filter.mpr ⟨hx, hp y x (not_le.mp hlt) (List.mem_filter.mp hy).2⟩

/-- And it is a tail of it. -/
lemma Chronological.filter_tail {all : List α} (h : Chronological ts all) {p : α → Bool}
    (hp : ∀ x y, ts x < ts y → p x = true → p y = true) :
    all.filter p = all.rtake (all.filter p).length := by
  rw [← (h.upperPart_filter hp).sort_eq_rtake h]
  exact (h.sublist List.filter_sublist).ascending.sort_eq.symm

/-- It ends as the history does where every record of that end is chosen. -/
lemma Chronological.filter_rtake_iff {all : List α} (h : Chronological ts all) {p : α → Bool}
    (hp : ∀ x y, ts x < ts y → p x = true → p y = true) (n : ℕ) :
    (all.filter p).rtake n = all.rtake n ↔ ∀ x ∈ all.rtake n, p x = true := by
  have hsort := (h.sublist List.filter_sublist : Chronological ts (all.filter p)).ascending.sort_eq
  rw [← hsort, (h.upperPart_filter hp).rtake_eq_iff h]
  constructor
  · exact fun hsub x hx => (List.mem_filter.mp (hsub hx)).2
  · exact fun hall x hx => List.mem_filter.mpr ⟨List.mem_of_mem_drop hx, hall x hx⟩

/-- What lies after an edge is a tail of the history. -/
lemma Chronological.filter_after {all : List α} (h : Chronological ts all) (edge : ℤ) :
    (all.filter fun x => edge < ts x) = all.rtake (all.filter fun x => edge < ts x).length := by
  apply h.filter_tail
  intro x y hlt hx
  exact decide_eq_true ((of_decide_eq_true hx).trans hlt)

/-- The first records of a tail are those of the history without its last ones. -/
lemma Chronological.take_filter {all : List α} (h : Chronological ts all) {p : α → Bool}
    (hp : ∀ x y, ts x < ts y → p x = true → p y = true) (n : ℕ) :
    (all.filter p).take n =
      (all.take (all.length - ((all.filter p).length - n))).filter p := by
  have htail := h.filter_tail hp
  have hle := List.length_filter_le p all
  generalize hw : (all.filter p).length = w at htail hle ⊢
  have hsplit : all.take (all.length - (w - n)) ++ all.rtake (w - n) = all :=
    List.take_append_drop _ _
  -- the last records are chosen, as everything newer is
  have hlast : (all.rtake (w - n)).filter p = all.rtake (w - n) := by
    rw [List.filter_eq_self]
    intro x hx
    have hmem : x ∈ all.rtake w := by
      rw [← rtake_rtake all (Or.inl (Nat.sub_le w n))] at hx
      exact List.mem_of_mem_drop hx
    rw [← htail] at hmem
    exact (List.mem_filter.mp hmem).2
  have hfilter : all.filter p =
      (all.take (all.length - (w - n))).filter p ++ all.rtake (w - n) := by
    conv_lhs => rw [← hsplit, List.filter_append, hlast]
  have hlength := congrArg List.length hfilter
  rw [hw, List.length_append, length_rtake] at hlength
  rw [hfilter]
  rcases Nat.lt_or_ge w n with hfew | hmany
  · have hnil : all.rtake (w - n) = [] := by
      rw [Nat.sub_eq_zero_of_le hfew.le, List.rtake, Nat.sub_zero, List.drop_length]
    rw [hnil, List.append_nil, List.take_of_length_le (by omega)]
  · exact List.take_left' (by omega)

/-- What lies at or before an edge is a beginning of the history. -/
lemma Chronological.filter_until {all : List α} (h : Chronological ts all) (edge : ℤ) :
    (all.filter fun x => ts x ≤ edge) = all.take (all.filter fun x => ts x ≤ edge).length := by
  induction all with
  | nil => rfl
  | cons z all ih =>
    obtain ⟨hz, hall⟩ := List.pairwise_cons.mp h
    by_cases hle : ts z ≤ edge
    · rw [List.filter_cons_of_pos (by simpa using hle), List.length_cons, List.take_succ_cons,
        ← ih hall]
    · have hnone : (all.filter fun x => ts x ≤ edge) = [] := by
        rw [List.filter_eq_nil_iff]
        intro y hy hle'
        have hlt := hz y hy
        have hye := of_decide_eq_true hle'
        omega
      rw [List.filter_cons_of_neg (by simpa using hle), hnone]
      rfl

lemma getLast?_rtake (all : List α) {n : ℕ} (hn : 1 ≤ n) :
    (all.rtake n).getLast? = all.getLast? := by
  rw [List.rtake, List.getLast?_drop]
  split
  · next hle =>
    have hnil : all = [] := List.length_eq_zero_iff.mp (by omega)
    rw [hnil]
    rfl
  · rfl

/-- A tail that is not empty ends as the history does. -/
lemma Chronological.getLast?_filter {all : List α} (h : Chronological ts all) {p : α → Bool}
    (hp : ∀ x y, ts x < ts y → p x = true → p y = true) (hne : all.filter p ≠ []) :
    (all.filter p).getLast? = all.getLast? := by
  rw [h.filter_tail hp]
  exact getLast?_rtake all (List.length_pos_iff.mpr hne)

/-- A beginning that lies before an edge has the newest record before the edge only when it has
them all. -/
lemma Chronological.getLast?_take_iff {all : List α} (h : Chronological ts all) {edge : ℤ} {k : ℕ}
    (hne : all.take k ≠ []) (hbefore : ∀ x ∈ all.take k, ts x ≤ edge) :
    (all.take k).getLast? = (all.filter fun x => ts x ≤ edge).getLast? ↔
      (all.filter fun x => ts x ≤ edge).length ≤ k := by
  have huntil := h.filter_until edge
  have hlength := List.length_filter_le (fun x => decide (ts x ≤ edge)) all
  have hsub : all.take k ⊆ all.filter fun x => ts x ≤ edge := fun x hx =>
    List.mem_filter.mpr ⟨List.mem_of_mem_take hx, decide_eq_true (hbefore x hx)⟩
  have hcount := ((h.nodup.sublist (List.take_sublist k all)).subperm hsub).length_le
  generalize (all.filter fun x => ts x ≤ edge) = part at huntil hlength hsub hcount ⊢
  rw [List.length_take] at hcount
  constructor
  · intro heq
    by_contra hmore
    have hsplit : all.take k ++ part.drop k = part := by
      have htake : all.take k = part.take k := by
        rw [huntil, List.take_take]
        congr 1
        omega
      rw [htake, List.take_append_drop]
    obtain ⟨z, hz⟩ := List.getLast?_isSome.mpr hne |> Option.isSome_iff_exists.mp
    have hrest : part.drop k ≠ [] := by
      rw [ne_eq, List.drop_eq_nil_iff]
      omega
    have hz_rest : z ∈ part.drop k := by
      rw [hz, ← hsplit, List.getLast?_append_of_ne_nil _ hrest] at heq
      exact List.mem_of_getLast? heq.symm
    have hpart : Chronological ts part := by
      rw [huntil]
      exact h.sublist (List.take_sublist _ _)
    have hpair := hsplit ▸ hpart
    exact lt_irrefl _ ((List.pairwise_append.mp hpair).2.2 z (List.mem_of_getLast? hz) z hz_rest)
  · intro hle
    have hsame : all.take k = part := by
      rw [huntil, List.take_eq_take_iff]
      omega
    rw [hsame]

omit ts in
/-- A list without repetition ends as it begins only when nothing is left out. -/
lemma length_le_of_take_suffix {xs : List α} (hnodup : xs.Nodup) {k : ℕ} (hne : xs.take k ≠ [])
    (hsuffix : xs.take k <:+ xs) : xs.length ≤ k := by
  by_contra hmore
  have hrest : xs.drop k ≠ [] := by
    rw [ne_eq, List.drop_eq_nil_iff]
    omega
  obtain ⟨z, hz⟩ := Option.isSome_iff_exists.mp (List.getLast?_isSome.mpr hne)
  -- the last one is among the first ones and among those after them
  have hz_last : xs.getLast? = some z := by
    obtain ⟨init, hinit⟩ := hsuffix
    rw [← hinit, List.getLast?_append_of_ne_nil _ hne, hz]
  have hz_rest : z ∈ xs.drop k := by
    rw [← List.take_append_drop k xs, List.getLast?_append_of_ne_nil _ hrest] at hz_last
    exact List.mem_of_getLast? hz_last
  exact List.disjoint_take_drop hnodup le_rfl (List.mem_of_getLast? hz) hz_rest

/-- A record with few before it is among the first ones. -/
lemma Chronological.mem_take {all : List α} (h : Chronological ts all) {x : α} (hx : x ∈ all)
    {n : ℕ} (hfew : (all.filter fun y => ts y < ts x).length < n) : x ∈ all.take n := by
  by_contra hout
  have hsplit : all.take n ++ all.drop n = all := List.take_append_drop n all
  have hdrop : x ∈ all.drop n := by
    rw [← hsplit] at hx
    exact (List.mem_append.mp hx).resolve_left hout
  have hpair := hsplit ▸ h
  have hsub : all.take n ⊆ all.filter fun y => ts y < ts x := by
    intro y hy
    have hlt := (List.pairwise_append.mp hpair).2.2 y hy x hdrop
    exact List.mem_filter.mpr ⟨List.mem_of_mem_take hy, decide_eq_true hlt⟩
  have hnodup : (all.take n).Nodup := h.nodup.sublist (List.take_sublist _ _)
  have hcount := (hnodup.subperm hsub).length_le
  have hpos := List.length_pos_of_mem hdrop
  rw [List.length_drop] at hpos
  rw [List.length_take] at hcount
  omega

/-- What is older than the first record of a tail is what stands before the tail. -/
lemma Chronological.filter_before {all rest : List α} {x : α} (h : Chronological ts all) {n : ℕ}
    (htail : all.rtake n = x :: rest) :
    (all.filter fun y => ts y < ts x) = all.take (all.length - n) := by
  have hsplit : all.take (all.length - n) ++ all.rtake n = all := List.take_append_drop _ _
  have hpair := hsplit ▸ h
  obtain ⟨-, htail_chrono, hbefore⟩ := List.pairwise_append.mp hpair
  have hfirst : ((all.take (all.length - n)).filter fun y => ts y < ts x) =
      all.take (all.length - n) := by
    rw [List.filter_eq_self]
    intro y hy
    exact decide_eq_true (hbefore y hy x (by rw [htail]; exact List.mem_cons_self))
  have hlast : ((all.rtake n).filter fun y => ts y < ts x) = [] := by
    rw [List.filter_eq_nil_iff]
    intro y hy hlt
    rw [htail] at htail_chrono hy
    have hle := htail_chrono.imp le_of_lt |> Ascending.head_le ts
    exact absurd (of_decide_eq_true hlt) (hle y hy).not_gt
  conv_lhs => rw [← hsplit]
  rw [List.filter_append, hfirst, hlast, List.append_nil]

/-- A longer tail is a shorter one behind the tail of what stands before it. -/
lemma rtake_append_rtake (all : List α) {m n : ℕ} (h : m ≤ n) :
    (all.take (all.length - m)).rtake (n - m) ++ all.rtake m = all.rtake n := by
  rcases Nat.lt_or_ge all.length m with hlt | hle
  · rw [rtake_of_le hlt.le, rtake_of_le (hlt.le.trans h), Nat.sub_eq_zero_of_le hlt.le,
      List.take_zero, List.rtake, List.drop_nil, List.nil_append]
  · simp only [List.rtake, List.length_take]
    rw [List.drop_take]
    have hcount : all.length - m - (min (all.length - m) all.length - (n - m)) =
        all.length - m - (all.length - n) := by omega
    have hfrom : min (all.length - m) all.length - (n - m) = all.length - n := by omega
    rw [hcount, hfrom]
    have hdrop : all.drop (all.length - m) =
        (all.drop (all.length - n)).drop (all.length - m - (all.length - n)) := by
      rw [List.drop_drop]
      congr 1
      omega
    rw [hdrop, List.take_append_drop]

/-! ## Reading a history row by row -/

section

variable {β : Type*} {time : β → ℤ} {f : β → Option α}

variable (ts time f) in
/-- Every row is read, as a record of its own time. -/
def ReadsAs (rows : List β) : Prop := ∀ r ∈ rows, ∃ x, f r = some x ∧ ts x = time r

lemma ReadsAs.subset {rows rows' : List β} (h : ReadsAs ts time f rows) (hsub : rows' ⊆ rows) :
    ReadsAs ts time f rows' := fun r hr => h r (hsub hr)

/-- The times of the records are the times of the rows. -/
lemma ReadsAs.map_time {rows : List β} (h : ReadsAs ts time f rows) :
    (rows.filterMap f).map ts = rows.map time := by
  induction rows with
  | nil => rfl
  | cons r rows ih =>
    obtain ⟨x, hx, hts⟩ := h r List.mem_cons_self
    rw [List.filterMap_cons_some hx, List.map_cons, List.map_cons, hts,
      ih fun r' hr' => h r' (List.mem_cons_of_mem _ hr')]

lemma ReadsAs.length_eq {rows : List β} (h : ReadsAs ts time f rows) :
    (rows.filterMap f).length = rows.length := by
  have hlength := congrArg List.length h.map_time
  simpa using hlength

/-- A record is read from a row of its time. -/
lemma ReadsAs.mem {rows : List β} (h : ReadsAs ts time f rows) {x : α}
    (hx : x ∈ rows.filterMap f) : ∃ r ∈ rows, f r = some x ∧ ts x = time r := by
  obtain ⟨r, hr, hfr⟩ := List.mem_filterMap.mp hx
  obtain ⟨x', hx', hts⟩ := h r hr
  obtain rfl : x' = x := Option.some.inj (hx'.symm.trans hfr)
  exact ⟨r, hr, hfr, hts⟩

/-- Choosing records by their time is choosing rows by theirs. -/
lemma ReadsAs.filter {rows : List β} (h : ReadsAs ts time f rows) (p : ℤ → Bool) :
    ((rows.filterMap f).filter fun x => p (ts x)) = (rows.filter fun r => p (time r)).filterMap f := by
  induction rows with
  | nil => rfl
  | cons r rows ih =>
    obtain ⟨x, hx, hts⟩ := h r List.mem_cons_self
    have hrest := ih fun r' hr' => h r' (List.mem_cons_of_mem _ hr')
    rw [List.filterMap_cons_some hx, List.filter_cons, List.filter_cons, hts, hrest]
    split
    · rw [List.filterMap_cons_some hx]
    · rfl

lemma ReadsAs.take {rows : List β} (h : ReadsAs ts time f rows) (n : ℕ) :
    (rows.filterMap f).take n = (rows.take n).filterMap f := by
  induction rows generalizing n with
  | nil => simp
  | cons r rows ih =>
    obtain ⟨x, hx, -⟩ := h r List.mem_cons_self
    cases n with
    | zero => rfl
    | succ n =>
      have hrest := ih (fun r' hr' => h r' (List.mem_cons_of_mem _ hr')) n
      rw [List.filterMap_cons_some hx, List.take_succ_cons, List.take_succ_cons,
        List.filterMap_cons_some hx, hrest]

lemma ReadsAs.chronological {rows : List β} (h : ReadsAs ts time f rows)
    (hrows : Chronological time rows) : Chronological ts (rows.filterMap f) := by
  have htimes : ((rows.filterMap f).map ts).Pairwise fun a b => a < b := by
    rw [h.map_time, List.pairwise_map]
    exact hrows
  exact List.pairwise_map.mp htimes

/-- The newest rows are read as the newest records. -/
lemma IsNewest.filterMap {n : ℕ} {all part : List β} (h : IsNewest time n all part)
    (hall : Chronological time all) (hread : ReadsAs ts time f all) :
    IsNewest ts n (all.filterMap f) (part.filterMap f) := by
  have hpart := hread.subset h.subset
  refine ⟨⟨?_, List.filterMap_subset f h.subset, ?_⟩, ?_⟩
  · refine List.pairwise_filterMap.mpr (h.nodup.imp_of_mem ?_)
    intro r r' hr hr' hne x hx x' hx' heq
    obtain ⟨y, hy, hyts⟩ := hpart r hr
    obtain ⟨y', hy', hyts'⟩ := hpart r' hr'
    obtain rfl : y = x := Option.some.inj (hy.symm.trans hx)
    obtain rfl : y' = x' := Option.some.inj (hy'.symm.trans hx')
    exact hne (hall.eq_of_time (h.subset hr) (h.subset hr') (by rw [← hyts, ← hyts', heq]))
  · intro x hx hxp y hy
    obtain ⟨r, hr, hfr, hts⟩ := hread.mem hx
    obtain ⟨r', hr', -, hts'⟩ := hpart.mem hy
    rw [hts, hts']
    apply h.newer r hr _ r' hr'
    exact fun hin => hxp (List.mem_filterMap.mpr ⟨r, hin, hfr⟩)
  · rw [hpart.length_eq, hread.length_eq, h.length_eq]

/-- A page of the newest rows is read as a tail of the records. -/
lemma IsNewest.sort_filterMap {n : ℕ} {all part : List β} (h : IsNewest time n all part)
    (hall : Chronological time all) (hread : ReadsAs ts time f all) :
    sortByTime ts (part.filterMap f) = (all.filterMap f).rtake n :=
  (h.filterMap hall hread).sort_eq_rtake (hread.chronological hall)

end

end Newest
