import Mathlib.Data.List.Forall2
import Mathlib.Tactic.Basic

/-!
# Computations that may raise, over lists

What is known of the parts of a computation in `Except` or `Option` that ended well: of a bind, of
a `mapM` and of a `foldlM`.
-/

namespace Fallible

variable {ε α β : Type*}

/-- A computation that ends well passes through a value. -/
lemma bind_ok {x : Except ε α} {f : α → Except ε β} {b : β} (h : x.bind f = .ok b) :
    ∃ a, x = .ok a ∧ f a = .ok b := by
  cases x with
  | error e => exact absurd h (by simp [Except.bind])
  | ok a => exact ⟨a, rfl, h⟩

lemma map_ok {x : Except ε α} {f : α → β} {b : β} (h : x.map f = .ok b) :
    ∃ a, x = .ok a ∧ f a = b := by
  cases x with
  | error e => exact absurd h (by simp [Except.map])
  | ok a => exact ⟨a, rfl, Except.ok.inj h⟩

lemma toOption_some {x : Except ε α} {a : α} (h : x.toOption = some a) : x = .ok a := by
  cases x with
  | error e => exact absurd h (by simp [Except.toOption])
  | ok a' => exact congrArg Except.ok (Option.some.inj h)

/-! ## Lists -/

section

variable {α β γ σ : Type}

/-- What a list is read as comes from its rows. -/
lemma mem_of_mapM_ok {f : α → Except ε β} {xs : List α} {ys : List β}
    (h : xs.mapM f = .ok ys) : ∀ y ∈ ys, ∃ x ∈ xs, f x = .ok y := by
  induction xs generalizing ys with
  | nil =>
    rw [List.mapM_nil] at h
    rw [← Except.ok.inj h]
    exact fun y hy => absurd hy List.not_mem_nil
  | cons x xs ih =>
    rw [List.mapM_cons] at h
    obtain ⟨y, hy, h⟩ := bind_ok h
    obtain ⟨rest, hrest, h⟩ := bind_ok h
    rw [← Except.ok.inj h]
    intro z hz
    rcases List.mem_cons.mp hz with rfl | hz
    · exact ⟨x, List.mem_cons_self, hy⟩
    · obtain ⟨x', hx', hfx'⟩ := ih hrest z hz
      exact ⟨x', List.mem_cons_of_mem _ hx', hfx'⟩

lemma length_of_mapM_ok {f : α → Except ε β} {xs : List α} {ys : List β}
    (h : xs.mapM f = .ok ys) : ys.length = xs.length := by
  induction xs generalizing ys with
  | nil =>
    rw [List.mapM_nil] at h
    rw [← Except.ok.inj h]
    rfl
  | cons x xs ih =>
    rw [List.mapM_cons] at h
    obtain ⟨y, -, h⟩ := bind_ok h
    obtain ⟨rest, hrest, h⟩ := bind_ok h
    rw [← Except.ok.inj h, List.length_cons, List.length_cons, ih hrest]

/-- Rows that read as `g` of them. -/
lemma mapM_ok {f : α → Except ε β} {g : α → β} {l : List α}
    (h : ∀ a ∈ l, f a = .ok (g a)) : l.mapM f = .ok (l.map g) := by
  induction l with
  | nil => rfl
  | cons a l ih =>
    have hl := ih fun b hb => h b (by simp [hb])
    rw [List.mapM_cons, h a (by simp), hl]
    rfl

/-- A list that reads entry by entry. -/
lemma mapM_forall₂ {f : α → Except ε β} {l : List α} {r : List β}
    (h : List.Forall₂ (fun a b => f a = .ok b) l r) : l.mapM f = .ok r := by
  induction h with
  | nil => rfl
  | cons hab _ ih =>
    rw [List.mapM_cons, hab, ih]
    rfl

/-- Rows that each read as something that stands in `R` to an entry of a table. -/
lemma exists_mapM {f : α → Except ε β} {R : β → γ → Prop} {l : List α} {table : List γ}
    (h : List.Forall₂ (fun a c => ∃ b, f a = .ok b ∧ R b c) l table) :
    ∃ r, l.mapM f = .ok r ∧ List.Forall₂ R r table := by
  induction h with
  | nil => exact ⟨[], rfl, .nil⟩
  | cons hac _ ih =>
    obtain ⟨b, hb, hbc⟩ := hac
    obtain ⟨r, hr, hall⟩ := ih
    refine ⟨b :: r, ?_, .cons hbc hall⟩
    rw [List.mapM_cons, hb, hr]
    rfl

/-- Rows that are all read are read one by one. -/
lemma mapM_eq_filterMap {f : α → Except ε β} {l : List α} (h : ∀ a ∈ l, ∃ b, f a = .ok b) :
    l.mapM f = .ok (l.filterMap fun a => (f a).toOption) := by
  induction l with
  | nil => rfl
  | cons a l ih =>
    obtain ⟨b, hb⟩ := h a List.mem_cons_self
    have hrest := ih fun a' ha' => h a' (List.mem_cons_of_mem _ ha')
    rw [List.mapM_cons, hb, hrest, List.filterMap_cons_some (by rw [hb]; rfl)]
    rfl

/-- What every step of a fold keeps holds at its end. -/
lemma foldlM_keeps {f : σ → α → Except ε σ} {Inv : σ → Prop} {xs : List α}
    (hstep : ∀ s x s', x ∈ xs → Inv s → f s x = .ok s' → Inv s') {s s' : σ} (hs : Inv s)
    (h : xs.foldlM f s = .ok s') : Inv s' := by
  induction xs generalizing s with
  | nil =>
    injection h with h
    rwa [← h]
  | cons x xs ih =>
    rw [List.foldlM_cons] at h
    obtain ⟨t, hx, hrest⟩ := bind_ok h
    exact ih (fun s y s' hy => hstep s y s' (by simp [hy])) (hstep s x t (by simp) hs hx) hrest

/-- The rows that a list reads as, one by one. -/
lemma mapM_some_cons {f : α → Option β} {a : α} {l : List α} {r : List β} :
    (a :: l).mapM f = some r ↔ ∃ b r', f a = some b ∧ l.mapM f = some r' ∧ r = b :: r' := by
  rw [List.mapM_cons]
  constructor
  · intro h
    obtain ⟨b, hb, hrest⟩ := Option.bind_eq_some_iff.mp h
    obtain ⟨r', hr', hcons⟩ := Option.bind_eq_some_iff.mp hrest
    exact ⟨b, r', hb, hr', (Option.some.inj hcons).symm⟩
  · rintro ⟨b, r', hb, hr', rfl⟩
    rw [hb, hr']
    rfl

/-- What `mapM` collects, in the order of the list. -/
lemma filterMap_of_mapM {f : α → Option β} {l : List α} {r : List β}
    (h : l.mapM f = some r) : l.filterMap f = r := by
  induction l generalizing r with
  | nil => exact Option.some.inj h
  | cons a l ih =>
    obtain ⟨b, r', hb, hr', rfl⟩ := mapM_some_cons.mp h
    rw [List.filterMap_cons_some hb, ih hr']

/-- A row does not read, or all rows do. -/
lemma exists_none_or_mapM (f : α → Option β) (l : List α) :
    (∃ a ∈ l, f a = none) ∨ ∃ r, l.mapM f = some r := by
  induction l with
  | nil => exact .inr ⟨[], rfl⟩
  | cons a l ih =>
    cases ha : f a with
    | none => exact .inl ⟨a, by simp, ha⟩
    | some b =>
      rcases ih with ⟨a', ha', hnone⟩ | ⟨r, hr⟩
      · exact .inl ⟨a', List.mem_cons_of_mem a ha', hnone⟩
      · exact .inr ⟨b :: r, mapM_some_cons.mpr ⟨b, r, ha, hr, rfl⟩⟩

end

end Fallible
