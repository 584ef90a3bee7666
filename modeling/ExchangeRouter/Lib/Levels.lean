import Mathlib.Data.List.AList
import Mathlib.Data.List.Sort
import Mathlib.Order.MinMax
import Mathlib.Order.Std

/-!
# A side of an order book

Abstractly a side is the quantity at each price, zero where there is no level, and an
update sets one price. A program keeps it in a dictionary without zero quantities, perhaps
scaled by a `g` as it stores them. `Represents` connects the two, `Represents.puts` is the
refinement of a batch of updates, and `TopLevels` and `IsBest` say of a listing and of one
level that they are the best of the abstract side, without mentioning the dictionary.
-/

namespace Levels

variable {P Q R : Type*}

/-- The quantity at each price after an update. -/
def set [DecidableEq P] (f : P → Q) (level : P × Q) : P → Q :=
  Function.update f level.1 level.2

/-- The best `n` levels of a side: in strict order, the quantities those of the side, and
nothing left out that is better or that there would be room for. -/
structure TopLevels [Zero Q] (r : P → P → Prop) (g : Q → R) (f : P → Q) (n : ℕ)
    (levels : List (P × R)) : Prop where
  sorted : levels.Pairwise fun a b => r a.1 b.1 ∧ a.1 ≠ b.1
  genuine : ∀ a ∈ levels, f a.1 ≠ 0 ∧ a.2 = g (f a.1)
  length_le : levels.length ≤ n
  full : ∀ p, f p ≠ 0 → p ∉ levels.map Prod.fst →
    levels.length = n ∧ ∀ a ∈ levels, r a.1 p

/-- The best level of a side. -/
structure IsBest [Zero Q] (r : P → P → Prop) (g : Q → R) (f : P → Q) (level : P × R) :
    Prop where
  genuine : f level.1 ≠ 0 ∧ level.2 = g (f level.1)
  best : ∀ p, f p ≠ 0 → r level.1 p

/-- Where no level has a zero quantity after scaling, none is listed. -/
lemma TopLevels.ne_zero [Zero Q] [Zero R] {r : P → P → Prop} {g : Q → R} {f : P → Q} {n : ℕ}
    {levels : List (P × R)} (h : TopLevels r g f n levels) (hg : ∀ q, q ≠ 0 → g q ≠ 0) :
    ∀ a ∈ levels, a.2 ≠ 0 := by
  intro a ha
  obtain ⟨hne, hq⟩ := h.genuine a ha
  rw [hq]
  exact hg _ hne

/-! ## Dictionaries -/

/-- A side in a dictionary. -/
abbrev Side (P R : Type*) := AList fun _ : P => R

section

variable [DecidableEq P] [Zero Q] [DecidableEq Q] (g : Q → R)

/-- One update: a zero quantity removes the level. -/
def Side.put (d : Side P R) (level : P × Q) : Side P R :=
  if level.2 = 0 then d.erase level.1 else d.insert level.1 (g level.2)

/-- The dictionary holds the levels of the side, scaled, and nothing else. -/
def Represents (d : Side P R) (f : P → Q) : Prop :=
  ∀ p, d.lookup p = if f p = 0 then none else some (g (f p))

variable {g}

lemma represents_empty : Represents g (∅ : Side P R) fun _ => (0 : Q) := by
  intro p
  rw [if_pos rfl]
  exact AList.lookup_empty p

/-- An update of the dictionary is the update of the side. -/
lemma Represents.put {d : Side P R} {f : P → Q} (h : Represents g d f) (level : P × Q) :
    Represents g (Side.put g d level) (set f level) := by
  obtain ⟨p, q⟩ := level
  intro p'
  unfold Side.put set
  by_cases hp : p' = p
  · subst hp
    rw [Function.update_self]
    split
    · exact AList.lookup_erase p' d
    · exact AList.lookup_insert d
  · rw [Function.update_of_ne hp, ← h p']
    split
    · exact AList.lookup_erase_ne hp
    · exact AList.lookup_insert_ne hp

/-- So is a batch of them, one after the other. -/
lemma Represents.puts {d : Side P R} {f : P → Q} (h : Represents g d f)
    (levels : List (P × Q)) :
    Represents g (levels.foldl (Side.put g) d) (levels.foldl set f) := by
  induction levels generalizing d f with
  | nil => exact h
  | cons level levels ih => exact ih (h.put level)

/-- The levels of the dictionary, each under its price. -/
def Side.items (d : Side P R) : List (P × R) := d.entries.map fun e => (e.1, e.2)

lemma Side.mem_items {d : Side P R} {p : P} {v : R} :
    (p, v) ∈ d.items ↔ d.lookup p = some v := by
  unfold Side.items
  rw [← Option.mem_def, AList.mem_lookup_iff]
  simp

omit [DecidableEq P] in
/-- A dictionary has one level at a price. -/
lemma Side.nodup_items (d : Side P R) : (d.items.map Prod.fst).Nodup := by
  have hkeys : d.items.map Prod.fst = d.keys := by
    simp [Side.items, AList.keys, List.keys]
  rw [hkeys]
  exact d.keys_nodup

lemma Represents.mem_items {d : Side P R} {f : P → Q} (h : Represents g d f) {p : P} {v : R} :
    (p, v) ∈ d.items ↔ f p ≠ 0 ∧ v = g (f p) := by
  rw [Side.mem_items, h p]
  split
  · next hzero => simp [hzero]
  · next hne => simp [hne, eq_comm]

lemma Represents.mem_keys {d : Side P R} {f : P → Q} (h : Represents g d f) {p : P} :
    p ∈ d.keys ↔ f p ≠ 0 := by
  rw [← AList.mem_keys, ← AList.lookup_isSome, h p]
  split
  · next hzero => simp [hzero]
  · next hne => simp [hne]

/-! ## The best levels -/

variable (r : P → P → Prop) [DecidableRel r]

/-- `sorted(d.items(), key=…)[:n]`. -/
def Side.top (d : Side P R) (n : ℕ) : List (P × R) :=
  (d.items.insertionSort fun a b => r a.1 b.1).take n

/-- The head of the sorted dictionary is the best of the side. -/
theorem Represents.topLevels [Std.Total r] [IsTrans P r] {d : Side P R} {f : P → Q}
    (h : Represents g d f) (n : ℕ) : TopLevels r g f n (d.top r n) := by
  have htotal : Std.Total fun a b : P × R => r a.1 b.1 := ⟨fun a b => Std.Total.total a.1 b.1⟩
  have htrans : IsTrans (P × R) fun a b => r a.1 b.1 :=
    ⟨fun _ _ _ hab hbc => IsTrans.trans _ _ _ hab hbc⟩
  set sorted := d.items.insertionSort fun a b => r a.1 b.1 with hsorted
  have hperm : sorted.Perm d.items := List.perm_insertionSort _ _
  have hpairwise : sorted.Pairwise fun a b => r a.1 b.1 := List.pairwise_insertionSort _ _
  have hdistinct : sorted.Pairwise fun a b => a.1 ≠ b.1 := by
    have hnodup : (sorted.map Prod.fst).Nodup :=
      (hperm.map Prod.fst).nodup_iff.mpr d.nodup_items
    exact List.pairwise_map.mp hnodup
  have hstrict := hpairwise.and hdistinct
  refine ⟨hstrict.sublist (List.take_sublist n sorted), ?_, ?_, ?_⟩
  · intro a ha
    exact h.mem_items.mp (hperm.mem_iff.mp (List.mem_of_mem_take ha))
  · exact List.length_take_le n sorted
  · intro p hp hout
    have hmem : (p, g (f p)) ∈ sorted := hperm.mem_iff.mpr (h.mem_items.mpr ⟨hp, rfl⟩)
    rw [← List.take_append_drop n sorted] at hmem
    -- a level that is not taken stands behind all that are
    have hdrop : (p, g (f p)) ∈ sorted.drop n := by
      refine (List.mem_append.mp hmem).resolve_left fun htake => hout ?_
      exact List.mem_map.mpr ⟨_, htake, rfl⟩
    refine ⟨?_, fun a ha => ?_⟩
    · have hlen : n < sorted.length := by
        by_contra hge
        rw [List.drop_eq_nil_of_le (not_lt.mp hge)] at hdrop
        exact List.not_mem_nil hdrop
      show (sorted.take n).length = n
      rw [List.length_take]
      omega
    · have hsplit := List.take_append_drop n sorted ▸ hpairwise
      exact (List.pairwise_append.mp hsplit).2.2 a ha _ hdrop

end

section

variable [LinearOrder P] [Zero Q] [DecidableEq Q] {g : Q → R}

/-- `max(d)`, with the quantity there. -/
def Side.highest (d : Side P R) : Option (P × R) :=
  d.keys.max?.bind fun p => (d.lookup p).map fun v => (p, v)

/-- `min(d)`, with the quantity there. -/
def Side.lowest (d : Side P R) : Option (P × R) :=
  d.keys.min?.bind fun p => (d.lookup p).map fun v => (p, v)

lemma Represents.isBest_highest {d : Side P R} {f : P → Q} (h : Represents g d f)
    {level : P × R} (hlevel : d.highest = some level) : IsBest (· ≥ ·) g f level := by
  obtain ⟨p, hmax, hlookup⟩ := Option.bind_eq_some_iff.mp hlevel
  obtain ⟨v, hv, rfl⟩ := Option.map_eq_some_iff.mp hlookup
  obtain ⟨-, hle⟩ := List.max?_eq_some_iff.mp hmax
  exact ⟨h.mem_items.mp (Side.mem_items.mpr hv), fun p' hp' => hle p' (h.mem_keys.mpr hp')⟩

lemma Represents.isBest_lowest {d : Side P R} {f : P → Q} (h : Represents g d f)
    {level : P × R} (hlevel : d.lowest = some level) : IsBest (· ≤ ·) g f level := by
  obtain ⟨p, hmin, hlookup⟩ := Option.bind_eq_some_iff.mp hlevel
  obtain ⟨v, hv, rfl⟩ := Option.map_eq_some_iff.mp hlookup
  obtain ⟨-, hle⟩ := List.min?_eq_some_iff.mp hmin
  exact ⟨h.mem_items.mp (Side.mem_items.mpr hv), fun p' hp' => hle p' (h.mem_keys.mpr hp')⟩

end

end Levels
