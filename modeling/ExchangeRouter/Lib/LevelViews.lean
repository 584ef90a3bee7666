import ExchangeRouter.Lib.Levels
import Mathlib.Data.List.Perm.Subperm

/-!
# A view of a side, and what becomes of it behind a feed of changes

A publisher shows the best `n` levels of a side (`IsView`) and reports how that view changes
(`Reports`): the levels that are new in it or have another quantity, and those that are gone from
the side. A level that others push out of the view is not reported. So a reader that applies the
reports holds more than the view (`held`): the levels that were pushed out and have not come back
(`held_ne_zero_iff`). Its best levels are those of the view exactly where enough levels of the
view outrank each of them (`TopLevels.view_iff`).
-/

namespace Levels

variable {P Q : Type*}

/-! ## Views and their changes -/

section

variable [DecidableEq P] [Zero Q]

/-- `v` is the side `f` cut to its best `n` levels. -/
def IsView (r : P → P → Prop) (n : ℕ) (f v : P → Q) : Prop :=
  ∃ levels : List (P × Q), TopLevels r id f n levels ∧
    ∀ p, v p = if p ∈ levels.map Prod.fst then f p else 0

/-- The report of a change from the view `v` to the view `v'` of the side `f'`. -/
structure Reports (v f' v' : P → Q) (levels : List (P × Q)) : Prop where
  nodup : (levels.map Prod.fst).Nodup
  mem_iff : ∀ p q, (p, q) ∈ levels ↔
    (v' p ≠ 0 ∧ v' p ≠ v p ∧ q = v' p) ∨ (v p ≠ 0 ∧ f' p = 0 ∧ q = 0)

/-- A level of the view is a level of the side. -/
lemma IsView.eq_side {r : P → P → Prop} {n : ℕ} {f v : P → Q} (h : IsView r n f v) {p : P}
    (hp : v p ≠ 0) : v p = f p := by
  obtain ⟨levels, -, hv⟩ := h
  rw [hv] at hp ⊢
  split at hp
  · next hmem => rw [if_pos hmem]
  · exact absurd rfl hp

/-- A view has at most `n` levels. -/
lemma IsView.length_le {r : P → P → Prop} {n : ℕ} {f v : P → Q} (h : IsView r n f v)
    {prices : List P} (hnodup : prices.Nodup) (hprices : ∀ p ∈ prices, v p ≠ 0) :
    prices.length ≤ n := by
  obtain ⟨levels, htop, hv⟩ := h
  have hsub : prices ⊆ levels.map Prod.fst := by
    intro p hp
    have hne := hprices p hp
    rw [hv] at hne
    by_contra hout
    exact hne (if_neg hout)
  have hle := (hnodup.subperm hsub).length_le
  rw [List.length_map] at hle
  exact hle.trans htop.length_le

end

/-! ## Applying a report -/

section

variable [DecidableEq P]

/-- Updates of other prices leave a price alone. -/
lemma foldl_set_of_notMem {levels : List (P × Q)} (f : P → Q) {p : P}
    (h : p ∉ levels.map Prod.fst) : levels.foldl set f p = f p := by
  induction levels generalizing f with
  | nil => rfl
  | cons level levels ih =>
    rw [List.map_cons, List.mem_cons, not_or] at h
    rw [List.foldl_cons, ih _ h.2]
    exact Function.update_of_ne h.1 _ _

/-- The only update of a price sets it. -/
lemma foldl_set_of_mem {levels : List (P × Q)} (hnodup : (levels.map Prod.fst).Nodup)
    (f : P → Q) {p : P} {q : Q} (h : (p, q) ∈ levels) : levels.foldl set f p = q := by
  induction levels generalizing f with
  | nil => exact absurd h List.not_mem_nil
  | cons level levels ih =>
    rw [List.map_cons, List.nodup_cons] at hnodup
    rw [List.foldl_cons]
    rcases List.mem_cons.mp h with rfl | hin
    · rw [foldl_set_of_notMem _ hnodup.1]
      exact Function.update_self _ _ _
    · exact ih hnodup.2 _ hin

end

section

variable [Zero Q] [DecidableEq Q] (book view : ℕ → P → Q)

/-- What a reader holds that began with the first view and applied each report since. -/
def held : ℕ → P → Q
  | 0 => view 0
  | i + 1 => fun p =>
    if view (i + 1) p ≠ 0 then view (i + 1) p
    else if view i p ≠ 0 ∧ book (i + 1) p = 0 then 0
    else held i p

/-- A level was pushed out of the view, and has neither come back nor been reported gone. -/
def PushedOut (i : ℕ) (p : P) : Prop :=
  ∃ j < i, view j p ≠ 0 ∧ book (j + 1) p ≠ 0 ∧ ∀ k, j < k → k ≤ i → view k p = 0

variable {book view}

lemma held_succ_apply (i : ℕ) (p : P) :
    held book view (i + 1) p =
      if view (i + 1) p ≠ 0 then view (i + 1) p
      else if view i p ≠ 0 ∧ book (i + 1) p = 0 then 0
      else held book view i p := rfl

lemma held_of_view {i : ℕ} {p : P} (h : view i p ≠ 0) : held book view i p = view i p := by
  cases i with
  | zero => rfl
  | succ i => exact if_pos h

/-- The report of a change from nothing sets up the view. -/
lemma Reports.foldl_set [DecidableEq P] {f v : P → Q} {levels : List (P × Q)}
    (h : Reports (fun _ => 0) f v levels) : levels.foldl set (fun _ => 0) = v := by
  funext p
  by_cases hshown : v p = 0
  · rw [foldl_set_of_notMem, hshown]
    intro hmem
    obtain ⟨⟨p', q⟩, hin, rfl⟩ := List.mem_map.mp hmem
    rcases (h.mem_iff p' q).mp hin with ⟨hne, -⟩ | ⟨hne, -⟩
    · exact hne hshown
    · exact hne rfl
  · exact foldl_set_of_mem h.nodup _ ((h.mem_iff p _).mpr (Or.inl ⟨hshown, hshown, rfl⟩))

variable (book view) in
/-- A report takes the reader from one state to the next. -/
theorem held_succ [DecidableEq P] {i : ℕ} {levels : List (P × Q)}
    (hreports : Reports (view i) (book (i + 1)) (view (i + 1)) levels)
    (hview : ∀ p, view (i + 1) p ≠ 0 → book (i + 1) p ≠ 0) :
    levels.foldl set (held book view i) = held book view (i + 1) := by
  funext p
  have hout : (∀ q, (p, q) ∉ levels) → p ∉ levels.map Prod.fst := by
    intro hnone hmem
    obtain ⟨⟨p', q⟩, hin, rfl⟩ := List.mem_map.mp hmem
    exact hnone q hin
  rw [held_succ_apply]
  by_cases hshown : view (i + 1) p = 0
  · rw [if_neg (not_not.mpr hshown)]
    by_cases hgone : view i p ≠ 0 ∧ book (i + 1) p = 0
    · rw [if_pos hgone]
      exact foldl_set_of_mem hreports.nodup _
        ((hreports.mem_iff p 0).mpr (Or.inr ⟨hgone.1, hgone.2, rfl⟩))
    · rw [if_neg hgone]
      apply foldl_set_of_notMem
      apply hout
      intro q hq
      rcases (hreports.mem_iff p q).mp hq with ⟨hne, -⟩ | ⟨hne, hzero, -⟩
      · exact hne hshown
      · exact hgone ⟨hne, hzero⟩
  · rw [if_pos hshown]
    by_cases hsame : view (i + 1) p = view i p
    · -- an unchanged level is not reported
      rw [foldl_set_of_notMem]
      · rw [held_of_view (by rw [← hsame]; exact hshown), hsame]
      · apply hout
        intro q hq
        rcases (hreports.mem_iff p q).mp hq with ⟨-, hne, -⟩ | ⟨-, hzero, -⟩
        · exact hne hsame
        · exact hview p hshown hzero
    · exact foldl_set_of_mem hreports.nodup _
        ((hreports.mem_iff p _).mpr (Or.inl ⟨hshown, hsame, rfl⟩))

/-- Beside the view the reader holds the levels that were pushed out. Induction on the reports. -/
theorem held_ne_zero_iff (i : ℕ) (p : P) :
    (held book view i p ≠ 0 ∧ view i p = 0) ↔ PushedOut book view i p := by
  induction i with
  | zero =>
    constructor
    · exact fun h => absurd h.2 h.1
    · rintro ⟨j, hj, -⟩
      exact absurd hj (Nat.not_lt_zero j)
  | succ i ih =>
    by_cases hshown : view (i + 1) p = 0
    · by_cases hbefore : view i p = 0
      · have hheld : held book view (i + 1) p = held book view i p := by
          rw [held_succ_apply, if_neg (not_not.mpr hshown), if_neg fun h => h.1 hbefore]
        rw [hheld, and_iff_left hshown, ← and_iff_left (a := held book view i p ≠ 0) hbefore, ih]
        constructor
        · rintro ⟨j, hj, hview, hbook, hsince⟩
          refine ⟨j, by omega, hview, hbook, fun k hjk hk => ?_⟩
          rcases Nat.lt_or_ge i k with hlast | hearlier
          · rw [show k = i + 1 by omega]
            exact hshown
          · exact hsince k hjk hearlier
        · rintro ⟨j, hj, hview, hbook, hsince⟩
          have hne : j ≠ i := by
            rintro rfl
            exact hview hbefore
          exact ⟨j, by omega, hview, hbook, fun k hjk hk => hsince k hjk (by omega)⟩
      · by_cases hbook : book (i + 1) p = 0
        · have hheld : held book view (i + 1) p = 0 := by
            rw [held_succ_apply, if_neg (not_not.mpr hshown), if_pos ⟨hbefore, hbook⟩]
          constructor
          · exact fun h => absurd hheld h.1
          · rintro ⟨j, hj, -, hbook', hsince⟩
            rcases Nat.lt_or_ge j i with hlt | hge
            · exact absurd (hsince i hlt (Nat.le_succ i)) hbefore
            · rw [show j = i by omega] at hbook'
              exact absurd hbook hbook'
        · have hheld : held book view (i + 1) p = view i p := by
            rw [held_succ_apply, if_neg (not_not.mpr hshown), if_neg fun h => hbook h.2, held_of_view hbefore]
          rw [hheld]
          refine iff_of_true ⟨hbefore, hshown⟩ ⟨i, Nat.lt_succ_self i, hbefore, hbook, ?_⟩
          intro k hik hk
          rw [show k = i + 1 by omega]
          exact hshown
    · constructor
      · exact fun h => absurd h.2 hshown
      · rintro ⟨j, hj, -, -, hsince⟩
        exact absurd (hsince (i + 1) hj le_rfl) hshown

end

/-! ## The best levels of what is held -/

section

variable [Zero Q]

/-- At least `n` levels of the side are better than the price. -/
def Outranked (r : P → P → Prop) (v : P → Q) (n : ℕ) (p : P) : Prop :=
  ∃ better : List P, better.Nodup ∧ n ≤ better.length ∧
    ∀ p' ∈ better, v p' ≠ 0 ∧ r p' p ∧ p' ≠ p

lemma TopLevels.nodup {r : P → P → Prop} {f : P → Q} {n : ℕ} {levels : List (P × Q)}
    (h : TopLevels r id f n levels) : (levels.map Prod.fst).Nodup :=
  List.pairwise_map.mpr (h.sorted.imp And.right)

/-- A level that is outranked is not among the best. -/
lemma TopLevels.notMem_of_outranked [DecidableEq P] {r : P → P → Prop} [Std.Antisymm r] {f v : P → Q} {n : ℕ}
    {levels : List (P × Q)} (h : TopLevels r id f n levels) (hover : ∀ p, v p ≠ 0 → f p = v p)
    {p : P} (hp : Outranked r v n p) : p ∉ levels.map Prod.fst := by
  intro hin
  obtain ⟨better, hnodup, hmany, hbetter⟩ := hp
  obtain ⟨level, hlevel, rfl⟩ := List.mem_map.mp hin
  have hsub : level.1 :: better ⊆ levels.map Prod.fst := by
    intro p' hp'
    rcases List.mem_cons.mp hp' with rfl | hp'
    · exact hin
    · obtain ⟨hshown, hrank, hne⟩ := hbetter p' hp'
      by_contra hout
      have hheld : f p' ≠ 0 := by rwa [hover p' hshown]
      have hback := (h.full p' hheld hout).2 level hlevel
      exact hne (Std.Antisymm.antisymm _ _ hrank hback)
  have hfresh : level.1 ∉ better := fun hmem => (hbetter _ hmem).2.2 rfl
  have hcount := ((List.nodup_cons.mpr ⟨hfresh, hnodup⟩).subperm hsub).length_le
  rw [List.length_cons, List.length_map] at hcount
  have hle := h.length_le
  omega

/-- The best levels of a side that holds a view and more are those of the view exactly where the
view outranks everything else. -/
theorem TopLevels.view_iff [DecidableEq P] {r : P → P → Prop} [Std.Antisymm r] {b f v : P → Q} {n N : ℕ}
    {levels : List (P × Q)} (h : TopLevels r id f n levels) (hview : IsView r N b v)
    (hover : ∀ p, v p ≠ 0 → f p = v p) :
    TopLevels r id v (min n N) levels ↔ ∀ p, f p ≠ 0 ∧ v p = 0 → Outranked r v n p := by
  constructor
  · rintro htop p ⟨hheld, hhidden⟩
    have hout : p ∉ levels.map Prod.fst := by
      intro hin
      obtain ⟨level, hlevel, rfl⟩ := List.mem_map.mp hin
      exact (htop.genuine level hlevel).1 hhidden
    obtain ⟨hlength, hrank⟩ := h.full p hheld hout
    refine ⟨levels.map Prod.fst, h.nodup, by rw [List.length_map, hlength], fun p' hp' => ?_⟩
    obtain ⟨level, hlevel, rfl⟩ := List.mem_map.mp hp'
    exact ⟨(htop.genuine level hlevel).1, hrank level hlevel, fun heq => hout (heq ▸ hp')⟩
  · intro houtranked
    have hshown : ∀ level ∈ levels, v level.1 ≠ 0 := by
      intro level hlevel hhidden
      have hout := h.notMem_of_outranked hover
        (houtranked level.1 ⟨(h.genuine level hlevel).1, hhidden⟩)
      exact hout (List.mem_map_of_mem hlevel)
    have hprices : ∀ p ∈ levels.map Prod.fst, v p ≠ 0 := by
      intro p hp
      obtain ⟨level, hlevel, rfl⟩ := List.mem_map.mp hp
      exact hshown level hlevel
    have hcount := hview.length_le h.nodup hprices
    rw [List.length_map] at hcount
    refine ⟨h.sorted, fun level hlevel => ⟨hshown level hlevel, ?_⟩, ?_, fun p hp hout => ?_⟩
    · rw [← hover level.1 (hshown level hlevel)]
      exact (h.genuine level hlevel).2
    · exact le_min h.length_le hcount
    · obtain ⟨hlength, hrank⟩ := h.full p (by rwa [hover p hp]) hout
      have hmore := hview.length_le (List.nodup_cons.mpr ⟨hout, h.nodup⟩) fun p' hp' => by
        rcases List.mem_cons.mp hp' with rfl | hp'
        · exact hp
        · exact hprices p' hp'
      rw [List.length_cons, List.length_map] at hmore
      exact ⟨by omega, hrank⟩

end

end Levels
