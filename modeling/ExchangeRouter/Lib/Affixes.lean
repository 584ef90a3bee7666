import Mathlib.Data.List.Infix

/-!
# Taking a prefix or a suffix off a text

Texts get shorter when something is taken off, so where several patterns are tried one after the
other, the text comes out as it was exactly where none of them is there.
-/

namespace Affixes

variable {α : Type*} [DecidableEq α]

/-- `s[len(p):] if s.startswith(p) else s`. -/
def strip (p s : List α) : List α := if p <+: s then s.drop p.length else s

/-- `s[:-len(q)] if s.endswith(q) else s`. -/
def stripEnd (q s : List α) : List α := if q <:+ s then s.take (s.length - q.length) else s

/-- One prefix after the other. -/
def stripAll (ps : List (List α)) (s : List α) : List α := ps.foldl (fun s p => strip p s) s

/-- The first of the prefixes that is there. -/
def stripFirst (ps : List (List α)) (s : List α) : List α :=
  match ps.find? (· <+: s) with
  | some p => s.drop p.length
  | none => s

@[simp] lemma strip_append (p s : List α) : strip p (p ++ s) = s := by
  unfold strip
  rw [if_pos (List.prefix_append p s), List.drop_left]

@[simp] lemma stripEnd_append (s q : List α) : stripEnd q (s ++ q) = s := by
  unfold stripEnd
  rw [if_pos (List.suffix_append s q), List.length_append, Nat.add_sub_cancel, List.take_left]

lemma stripEnd_of_not_suffix {q s : List α} (h : ¬q <:+ s) : stripEnd q s = s := if_neg h

lemma length_strip_le (p s : List α) : (strip p s).length ≤ s.length := by
  unfold strip
  split
  · rw [List.length_drop]
    exact Nat.sub_le _ _
  · exact le_rfl

lemma strip_eq_self_iff {p : List α} (hp : p ≠ []) (s : List α) : strip p s = s ↔ ¬p <+: s := by
  constructor
  · rintro h ⟨t, rfl⟩
    rw [strip_append] at h
    have hlen := congrArg List.length h
    rw [List.length_append] at hlen
    exact hp (List.length_eq_zero_iff.mp (by omega))
  · exact fun h => if_neg h

lemma length_stripEnd_le (q s : List α) : (stripEnd q s).length ≤ s.length := by
  unfold stripEnd
  split
  · rw [List.length_take]
    exact Nat.min_le_right _ _
  · exact le_rfl

lemma stripEnd_eq_self_iff {q : List α} (hq : q ≠ []) (s : List α) :
    stripEnd q s = s ↔ ¬q <:+ s := by
  constructor
  · rintro h ⟨t, rfl⟩
    rw [stripEnd_append] at h
    have hlen := congrArg List.length h
    rw [List.length_append] at hlen
    exact hq (List.length_eq_zero_iff.mp (by omega))
  · exact stripEnd_of_not_suffix

lemma length_stripAll_le (ps : List (List α)) (s : List α) :
    (stripAll ps s).length ≤ s.length := by
  induction ps generalizing s with
  | nil => exact le_rfl
  | cons p ps ih => exact (ih (strip p s)).trans (length_strip_le p s)

/-- What comes out as long as it was is what it was: it is a suffix of it. -/
lemma stripAll_of_length (ps : List (List α)) (s : List α)
    (h : (stripAll ps s).length = s.length) : stripAll ps s = s := by
  have hsuffix : ∀ (ps : List (List α)) (s : List α), stripAll ps s <:+ s := by
    intro ps
    induction ps with
    | nil => exact fun s => List.suffix_refl s
    | cons p ps ih =>
      intro s
      refine (ih (strip p s)).trans ?_
      unfold strip
      split
      · exact List.drop_suffix _ _
      · exact List.suffix_refl s
  exact (hsuffix ps s).eq_of_length h

lemma stripAll_eq_self_iff {ps : List (List α)} (hps : ∀ p ∈ ps, p ≠ []) (s : List α) :
    stripAll ps s = s ↔ ∀ p ∈ ps, ¬p <+: s := by
  induction ps with
  | nil => simp [stripAll]
  | cons p ps ih =>
    have hp := hps p List.mem_cons_self
    have htail := ih fun p' hp' => hps p' (List.mem_cons_of_mem _ hp')
    rw [List.forall_mem_cons]
    by_cases hpre : p <+: s
    · -- the text that comes out is shorter
      refine iff_of_false (fun h => ?_) fun h => h.1 hpre
      have hle : s.length ≤ (strip p s).length := by
        have := length_stripAll_le ps (strip p s)
        rwa [show stripAll ps (strip p s) = s from h] at this
      obtain ⟨t, rfl⟩ := hpre
      rw [strip_append, List.length_append] at hle
      exact hp (List.length_eq_zero_iff.mp (by omega))
    · have hsame : strip p s = s := if_neg hpre
      show stripAll ps (strip p s) = s ↔ _
      rw [hsame, htail]
      exact ⟨fun h => ⟨hpre, h⟩, fun h => h.2⟩

/-- The prefixes and then the suffix: nothing is taken off exactly where none of them is there. -/
lemma stripEnd_stripAll_eq_self_iff {ps : List (List α)} {q : List α} (hps : ∀ p ∈ ps, p ≠ [])
    (hq : q ≠ []) (s : List α) :
    stripEnd q (stripAll ps s) = s ↔ ¬q <:+ s ∧ ∀ p ∈ ps, ¬p <+: s := by
  constructor
  · intro h
    have hall : stripAll ps s = s := by
      have hle := length_stripEnd_le q (stripAll ps s)
      rw [h] at hle
      exact stripAll_of_length ps s (le_antisymm (length_stripAll_le ps s) hle)
    rw [hall] at h
    exact ⟨(stripEnd_eq_self_iff hq s).mp h, (stripAll_eq_self_iff hps s).mp hall⟩
  · rintro ⟨hend, hall⟩
    rw [(stripAll_eq_self_iff hps s).mpr hall, stripEnd_of_not_suffix hend]

end Affixes
