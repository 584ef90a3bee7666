import Mathlib.Data.List.Basic
import Mathlib.Data.List.Forall2

/-!
# Generators over a feed

A generator is a loop body: from its state and a message it yields some outputs and goes on
with a new state or ends. It is run on the messages that reach it, each with a tag that the
body does not see. `Delivered` are the subsequences of a feed, tagged with the position in
the feed; `yields_of_delivered` is the rule for an invariant that knows how far the
generator has come, and `yields_eq_of_ends` the one for a message that ends it. `without` takes
some of the messages out of a feed, and `yields_without` says when the outputs stay.
-/

namespace Generator

variable {σ μ β ι : Type*} (body : σ → μ → List β × Option σ)

/-- The outputs, each with the tag of the message that produced it. -/
def yields : σ → List (μ × ι) → List (β × ι)
  | _, [] => []
  | s, (m, i) :: rest =>
    (body s m).1.map (fun o => (o, i)) ++
      match (body s m).2 with
      | none => []
      | some s' => yields s' rest

/-- The state after the messages, `none` once the generator has ended. -/
def after : σ → List (μ × ι) → Option σ
  | s, [] => some s
  | s, (m, _) :: rest =>
    match (body s m).2 with
    | none => none
    | some s' => after s' rest

/-- A subsequence of a feed from position `n` on. -/
structure Delivered (feed : List μ) (n : ℕ) (delivered : List (μ × ℕ)) : Prop where
  ordered : delivered.Pairwise fun a b => a.2 < b.2
  genuine : ∀ a ∈ delivered, n ≤ a.2 ∧ feed[a.2]? = some a.1

/-- Dropping messages anywhere leaves a subsequence. -/
lemma delivered_of_sublist {feed : List μ} {delivered : List (μ × ℕ)}
    (h : delivered.Sublist feed.zipIdx) : Delivered feed 0 delivered := by
  refine ⟨?_, fun a ha => ⟨Nat.zero_le _, ?_⟩⟩
  · have hidx : (feed.zipIdx.map Prod.snd).Pairwise (· < ·) := by
      rw [List.zipIdx_map_snd]
      exact List.pairwise_lt_range'
    exact (List.pairwise_map.mp hidx).sublist h
  · exact List.mem_zipIdx_iff_getElem?.mp (h.subset ha)

lemma Delivered.tail {feed : List μ} {n i : ℕ} {m : μ} {rest : List (μ × ℕ)}
    (h : Delivered feed n ((m, i) :: rest)) : Delivered feed (i + 1) rest := by
  obtain ⟨hhead, hrest⟩ := List.pairwise_cons.mp h.ordered
  refine ⟨hrest, fun a ha => ⟨?_, (h.genuine a (List.mem_cons_of_mem _ ha)).2⟩⟩
  exact hhead a ha

variable {body}

/-- The invariant rule: `Inv n` holds of a generator that has seen nothing from position `n`
on, and what it yields at a message is good for the position of the message. -/
theorem yields_of_delivered {feed : List μ} {Inv : ℕ → σ → Prop} {Good : ℕ → β → Prop}
    (hstep : ∀ n i s m, Inv n s → n ≤ i → feed[i]? = some m →
      (∀ o ∈ (body s m).1, Good i o) ∧ ∀ s', (body s m).2 = some s' → Inv (i + 1) s')
    {n : ℕ} {s : σ} {delivered : List (μ × ℕ)} (hinit : Inv n s)
    (hdel : Delivered feed n delivered) :
    ∀ o ∈ yields body s delivered, Good o.2 o.1 := by
  induction delivered generalizing n s with
  | nil => exact fun o ho => absurd ho List.not_mem_nil
  | cons a rest ih =>
    obtain ⟨m, i⟩ := a
    obtain ⟨hle, hget⟩ := hdel.genuine _ List.mem_cons_self
    obtain ⟨hgood, hnext⟩ := hstep n i s m hinit hle hget
    intro o ho
    unfold yields at ho
    rcases List.mem_append.mp ho with ho | ho
    · obtain ⟨b, hb, rfl⟩ := List.mem_map.mp ho
      exact hgood b hb
    · split at ho
      · exact absurd ho List.not_mem_nil
      · next s' hs' => exact ih (hnext s' hs') hdel.tail o ho

/-- A generator yields what it yields on a first part, and goes on if it has not ended. -/
lemma yields_append (s : σ) (xs ys : List (μ × ι)) :
    yields body s (xs ++ ys) = yields body s xs ++
      match after body s xs with
      | none => []
      | some s' => yields body s' ys := by
  induction xs generalizing s with
  | nil => rfl
  | cons a rest ih =>
    obtain ⟨m, i⟩ := a
    simp only [List.cons_append, yields, after, List.append_assoc]
    congr 1
    cases (body s m).2 with
    | none => rfl
    | some s' => exact ih s'

/-- One message. -/
lemma after_singleton (s : σ) (m : μ) (i : ι) : after body s [(m, i)] = (body s m).2 := by
  unfold after
  cases (body s m).2 <;> rfl

lemma yields_singleton (s : σ) (m : μ) (i : ι) :
    yields body s [(m, i)] = (body s m).1.map fun o => (o, i) := by
  unfold yields
  cases (body s m).2 <;> exact List.append_nil _

/-- A generator goes on after a second part if it has not ended in the first. -/
lemma after_append (s : σ) (xs ys : List (μ × ι)) :
    after body s (xs ++ ys) = (after body s xs).bind fun s' => after body s' ys := by
  induction xs generalizing s with
  | nil => rfl
  | cons a rest ih =>
    obtain ⟨m, i⟩ := a
    simp only [List.cons_append, after]
    cases (body s m).2 with
    | none => rfl
    | some s' => exact ih s'

/-- The body does not see the tags: on the same messages the outputs are the same, tagged as
their messages are. -/
lemma yields_forall₂ {κ : Type*} {R : ι → κ → Prop} {xs : List (μ × ι)} {ys : List (μ × κ)}
    (h : List.Forall₂ (fun x y => x.1 = y.1 ∧ R x.2 y.2) xs ys) (s : σ) :
    List.Forall₂ (fun o o' => o.1 = o'.1 ∧ R o.2 o'.2) (yields body s xs) (yields body s ys) := by
  induction h generalizing s with
  | nil => exact .nil
  | @cons x y xs ys hxy _ ih =>
    obtain ⟨m, i⟩ := x
    obtain ⟨m', i'⟩ := y
    obtain ⟨rfl, hR⟩ : m = m' ∧ R i i' := hxy
    simp only [yields]
    refine List.rel_append ?_ ?_
    · rw [List.forall₂_map_left_iff, List.forall₂_map_right_iff, List.forall₂_same]
      exact fun o _ => ⟨rfl, hR⟩
    · cases (body s m).2 with
      | none => exact .nil
      | some s' => exact ih s'

/-- A message that ends the generator silently is the end of its outputs. -/
theorem yields_eq_of_ends {s : σ} {m : μ} {i : ι} {before after' : List (μ × ι)}
    (hends : ∀ s', after body s before = some s' → body s' m = ([], none)) :
    yields body s (before ++ (m, i) :: after') = yields body s before := by
  rw [yields_append]
  cases hafter : after body s before with
  | none => exact List.append_nil _
  | some s' => simp [yields, hends s' hafter]

/-! ## Messages taken out -/

/-- Every message that the generator gets to satisfies `C` in the state it is in then. -/
def Along (C : σ → μ → Prop) (body : σ → μ → List β × Option σ) : σ → List (μ × ι) → Prop
  | _, [] => True
  | s, (m, _) :: rest => C s m ∧
    match (body s m).2 with
    | none => True
    | some s' => Along C body s' rest

/-- The messages without those that are `hidden` in the state the generator is in then. -/
def without (hidden : σ → μ → Bool) (body : σ → μ → List β × Option σ) :
    σ → List (μ × ι) → List (μ × ι)
  | _, [] => []
  | s, (m, i) :: rest =>
    let later :=
      match (body s m).2 with
      | none => rest
      | some s' => without hidden body s' rest
    if hidden s m then later else (m, i) :: later

/-- Both generators have ended, or both go on in related states. -/
def GoOn (R : σ → σ → Prop) : Option σ → Option σ → Prop
  | none, none => True
  | some s, some t => R s t
  | _, _ => False

lemma GoOn.cases {R : σ → σ → Prop} {o o' : Option σ} (h : GoOn R o o') :
    (o = none ∧ o' = none) ∨ ∃ s t, o = some s ∧ o' = some t ∧ R s t := by
  cases o with
  | none =>
    cases o' with
    | none => exact .inl ⟨rfl, rfl⟩
    | some t => exact h.elim
  | some s =>
    cases o' with
    | none => exact h.elim
    | some t => exact .inr ⟨s, t, rfl, rfl, h⟩

/-- Two runs on the same feed, in related states throughout. -/
theorem yields_of_related {R : σ → σ → Prop}
    (hstep : ∀ s t m, R s t → (body s m).1 = (body t m).1 ∧ GoOn R (body s m).2 (body t m).2)
    {s t : σ} (hst : R s t) (msgs : List (μ × ι)) : yields body s msgs = yields body t msgs := by
  induction msgs generalizing s t with
  | nil => rfl
  | cons a rest ih =>
    obtain ⟨m, i⟩ := a
    obtain ⟨houts, hgo⟩ := hstep s t m hst
    simp only [yields, houts]
    rcases hgo.cases with ⟨hs, ht⟩ | ⟨s', t', hs, ht, hst'⟩
    · rw [hs, ht]
    · rw [hs, ht]
      exact congrArg _ (ih hst')

/-- A simulation that a hidden message does not leave: the outputs on the whole feed are those
on the feed without the hidden messages. -/
theorem yields_without {R : σ → σ → Prop} {C : σ → μ → Prop} {hidden : σ → μ → Bool}
    (hvisible : ∀ s t m, R s t → hidden s m = false →
      (body s m).1 = (body t m).1 ∧ GoOn R (body s m).2 (body t m).2)
    (hhidden : ∀ s t m, R s t → hidden s m = true → C s m →
      (body s m).1 = [] ∧ ∃ s', (body s m).2 = some s' ∧ R s' t)
    {s t : σ} (hst : R s t) {msgs : List (μ × ι)} (hall : Along C body s msgs) :
    yields body s msgs = yields body t (without hidden body s msgs) := by
  induction msgs generalizing s t with
  | nil => rfl
  | cons a rest ih =>
    obtain ⟨m, i⟩ := a
    obtain ⟨hC, hrest⟩ := hall
    cases hm : hidden s m with
    | true =>
      obtain ⟨hnone, s', hs', hs't⟩ := hhidden s t m hst hm hC
      rw [hs'] at hrest
      simp only [yields, without, hm, hnone, hs', if_true, List.map_nil, List.nil_append]
      exact ih hs't hrest
    | false =>
      obtain ⟨houts, hgo⟩ := hvisible s t m hst hm
      simp only [yields, without, hm, houts, if_false, Bool.false_eq_true]
      rcases hgo.cases with ⟨hs, ht⟩ | ⟨s', t', hs, ht, hst'⟩
      · rw [hs, ht]
      · rw [hs] at hrest ⊢
        rw [ht]
        exact congrArg _ (ih hst' hrest)

end Generator
