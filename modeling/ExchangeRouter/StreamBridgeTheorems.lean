import ExchangeRouter.StreamBridge

/-!
# What crosses the bridge

Nothing is lost between the buffer and the caller, in any interleaving (`Accounted`). An eviction
is right while the buffer is still as the failed offer found it, or empty. In runs whose evictions
all are, only the oldest message of a full buffer is ever discarded, and the source's error and the
sentinel come through (`runs_conserve`). A caller that takes some items between the two operations
of an offer can cost the error itself (`error_discarded`).
-/

namespace ExchangeRouter
namespace Bridge

open Transition

variable {μ ε : Type*}

/-! ## Messages and ends -/

/-- The messages among the items. -/
def messagesOf (items : List (Item μ ε)) : List μ :=
  items.filterMap fun
    | .message m => some m
    | _ => none

/-- The source's error and the sentinel among the items. -/
def endsIn (items : List (Item μ ε)) : List (Item μ ε) := items.filter Item.isEnd

lemma messagesOf_append (xs ys : List (Item μ ε)) :
    messagesOf (xs ++ ys) = messagesOf xs ++ messagesOf ys := List.filterMap_append

lemma endsIn_append (xs ys : List (Item μ ε)) : endsIn (xs ++ ys) = endsIn xs ++ endsIn ys :=
  List.filter_append _ _

lemma messagesOf_map (messages : List μ) :
    messagesOf (messages.map (Item.message (ε := ε))) = messages := by
  unfold messagesOf
  rw [List.filterMap_map]
  exact List.filterMap_some

lemma endsIn_map (messages : List μ) : endsIn (messages.map (Item.message (ε := ε))) = [] := by
  unfold endsIn
  rw [List.filter_eq_nil_iff]
  intro x hx
  obtain ⟨m, -, rfl⟩ := List.mem_map.mp hx
  exact Bool.false_ne_true

lemma isEnd_of_mem_endsOf {failure : Option ε} {x : Item μ ε} (h : x ∈ endsOf failure) :
    x.isEnd = true := by
  cases failure with
  | none =>
    obtain rfl := List.mem_singleton.mp h
    rfl
  | some e =>
    rcases List.mem_cons.mp h with rfl | h
    · rfl
    · obtain rfl := List.mem_singleton.mp h
      rfl

lemma length_endsOf_le (failure : Option ε) : (endsOf (μ := μ) failure).length ≤ 2 := by
  cases failure with
  | none => exact Nat.le_succ 1
  | some e => exact Nat.le_refl 2

/-- The ends among what is offered are those of the source. -/
lemma endsIn_offers (messages : List μ) (failure : Option ε) :
    endsIn (offers messages failure) = endsOf failure := by
  unfold offers
  rw [endsIn_append, endsIn_map, List.nil_append]
  exact List.filter_eq_self.mpr fun x hx => isEnd_of_mem_endsOf hx

/-- Behind an end there are only ends. Induction on the messages. -/
lemma isEnd_of_after {messages : List μ} {failure : Option ε} (before : List (Item μ ε))
    {after : List (Item μ ε)} {x : Item μ ε} (h : (before ++ x :: after).Sublist (offers messages failure))
    (hx : x.isEnd = true) : ∀ y ∈ after, y.isEnd = true := by
  induction messages generalizing before with
  | nil => exact fun y hy => isEnd_of_mem_endsOf (h.subset (by simp [hy]))
  | cons m messages ih =>
    show ∀ y ∈ after, y.isEnd = true
    rcases List.sublist_cons_iff.mp h with hrest | ⟨rest, hrest, hsub⟩
    · exact ih before hrest
    · cases before with
      | nil =>
        obtain ⟨rfl, -⟩ := List.cons.inj hrest
        exact absurd hx Bool.false_ne_true
      | cons b before =>
        obtain ⟨-, rfl⟩ := List.cons.inj hrest
        exact ih before hsub

/-- With two more items behind it an item is a message. -/
lemma isMessage_of_two_after {messages : List μ} {failure : Option ε} {x : Item μ ε}
    {after : List (Item μ ε)} (h : (x :: after).Sublist (offers messages failure))
    (htwo : 2 ≤ after.length) : ∃ m, x = .message m := by
  by_contra hnone
  have hx : x.isEnd = true := by
    cases x with
    | message m => exact absurd ⟨m, rfl⟩ hnone
    | error e => rfl
    | sentinel => rfl
  have hafter := isEnd_of_after [] h hx
  have hall : endsIn (x :: after) = x :: after := by
    apply List.filter_eq_self.mpr
    intro y hy
    rcases List.mem_cons.mp hy with rfl | hy
    · exact hx
    · exact hafter y hy
  have hends := h.filter Item.isEnd
  rw [← endsIn, ← endsIn, hall, endsIn_offers] at hends
  have hle := hends.length_le
  have hends_le := length_endsOf_le (μ := μ) failure
  rw [List.length_cons] at hle
  omega

/-! ## What holds in every run -/

/-- What an operation can do. -/
lemma State.step_cases {s s' : State μ ε} {e : Event} (hstep : s.step e = some s') :
    (e = .next ∧ ∃ item rest, s.pump = .idle ∧ s.source = item :: rest ∧
        s' = { s with pump := .offering item, source := rest }) ∨
      (e = .put ∧ ∃ item, s.pump = .offering item ∧ s.items.length < streamBufferMax ∧
        s' = { s with
          pump := .idle, items := s.items ++ [item], entered := s.entered ++ [item] }) ∨
      (e = .put ∧ ∃ item, s.pump = .offering item ∧ streamBufferMax ≤ s.items.length ∧
        s' = { s with pump := .evicting item }) ∨
      (e = .evict ∧ ∃ item, s.pump = .evicting item ∧ s.items = [] ∧
        s' = { s with pump := .offering item }) ∨
      (e = .evict ∧ ∃ item oldest rest, s.pump = .evicting item ∧ s.items = oldest :: rest ∧
        s' = { s with
          pump := .offering item, items := rest, dropped := s.dropped + 1
          evicted := s.evicted ++ [oldest :: rest] }) ∨
      (e = .get ∧ s.hasLeft = false ∧ ∃ item rest, s.items = item :: rest ∧
        s' = { s with items := rest, received := s.received ++ [item] }) := by
  obtain ⟨source, pump, items, dropped, received, entered, evicted⟩ := s
  cases e with
  | next =>
    cases pump <;> cases source <;> simp only [step, Option.some.injEq, reduceCtorEq] at hstep
    exact Or.inl ⟨rfl, _, _, rfl, rfl, hstep.symm⟩
  | put =>
    cases pump with
    | offering item =>
      simp only [step] at hstep
      split at hstep
      · next hroom => exact Or.inr (Or.inl ⟨rfl, item, rfl, hroom, (Option.some.inj hstep).symm⟩)
      · next hfull =>
        exact Or.inr (Or.inr (Or.inl
          ⟨rfl, item, rfl, Nat.not_lt.mp hfull, (Option.some.inj hstep).symm⟩))
    | idle => simp [step] at hstep
    | evicting item => simp [step] at hstep
  | evict =>
    cases pump <;> cases items <;> simp only [step, Option.some.injEq, reduceCtorEq] at hstep
    · exact Or.inr (Or.inr (Or.inr (Or.inl ⟨rfl, _, rfl, rfl, hstep.symm⟩)))
    · exact Or.inr (Or.inr (Or.inr (Or.inr (Or.inl ⟨rfl, _, _, _, rfl, rfl, hstep.symm⟩))))
  | get =>
    simp only [step] at hstep
    split at hstep
    · exact absurd hstep (by simp)
    · next hover =>
      cases items with
      | nil => exact absurd hstep (by simp)
      | cons item rest =>
        exact Or.inr (Or.inr (Or.inr (Or.inr (Or.inr
          ⟨rfl, Bool.eq_false_iff.mpr hover, item, rest, rfl, (Option.some.inj hstep).symm⟩))))

/-- The item that the pump is offering. -/
def Pump.inHand : Pump μ ε → List (Item μ ε)
  | idle => []
  | offering item => [item]
  | evicting item => [item]

/-- The items that evictions took out. -/
def State.discarded (s : State μ ε) : List (Item μ ε) := s.evicted.filterMap List.head?

/-- Where everything is that the source was to give. -/
structure Accounted (messages : List μ) (failure : Option ε) (s : State μ ε) : Prop where
  source : s.entered ++ s.pump.inHand ++ s.source = offers messages failure
  order : (s.received ++ s.items).Sublist s.entered
  perm : s.entered.Perm (s.received ++ s.discarded ++ s.items)
  dropped : s.dropped = s.discarded.length
  stops : ∀ x ∈ s.received.dropLast, x.isEnd = false

lemma Accounted.init (messages : List μ) (failure : Option ε) :
    Accounted messages failure (start messages failure) where
  source := rfl
  order := List.Sublist.refl _
  perm := List.Perm.refl _
  dropped := rfl
  stops := fun _ hx => absurd hx List.not_mem_nil

/-- No operation loses an item unaccounted for. -/
lemma Accounted.step {messages : List μ} {failure : Option ε} {s s' : State μ ε} {e : Event}
    (h : Accounted messages failure s) (hstep : s.step e = some s') :
    Accounted messages failure s' := by
  rcases State.step_cases hstep with ⟨-, item, rest, hpump, hsource, rfl⟩ |
    ⟨-, item, hpump, -, rfl⟩ | ⟨-, item, hpump, -, rfl⟩ | ⟨-, item, hpump, hempty, rfl⟩ |
    ⟨-, item, oldest, rest, hpump, hitems, rfl⟩ | ⟨-, hover, item, rest, hitems, rfl⟩
  · -- the source's next item
    refine ⟨?_, h.order, h.perm, h.dropped, h.stops⟩
    rw [← h.source, hpump, hsource]
    simp [Pump.inHand]
  · -- an offer that found room
    refine ⟨?_, ?_, ?_, h.dropped, h.stops⟩
    · rw [← h.source, hpump]
      simp [Pump.inHand]
    · show (s.received ++ (s.items ++ [item])).Sublist (s.entered ++ [item])
      rw [← List.append_assoc]
      exact h.order.append (List.Sublist.refl _)
    · show (s.entered ++ [item]).Perm (s.received ++ s.discarded ++ (s.items ++ [item]))
      rw [← List.append_assoc]
      exact h.perm.append_right _
  · -- an offer to a full buffer
    refine ⟨?_, h.order, h.perm, h.dropped, h.stops⟩
    rw [← h.source, hpump]
    rfl
  · -- an eviction that finds nothing
    refine ⟨?_, h.order, h.perm, h.dropped, h.stops⟩
    rw [← h.source, hpump]
    rfl
  · -- an eviction
    have hdiscarded : ({ s with
          pump := .offering item, items := rest, dropped := s.dropped + 1
          evicted := s.evicted ++ [oldest :: rest] } : State μ ε).discarded =
        s.discarded ++ [oldest] := List.filterMap_append
    refine ⟨?_, ?_, ?_, ?_, h.stops⟩
    · rw [← h.source, hpump]
      rfl
    · refine List.Sublist.trans ?_ h.order
      rw [hitems]
      exact (List.Sublist.refl _).append (List.sublist_cons_self _ _)
    · rw [hdiscarded]
      have hperm := h.perm
      rw [hitems] at hperm
      simpa using hperm
    · rw [hdiscarded, List.length_append, ← h.dropped]
      rfl
  · -- the caller takes an item
    refine ⟨h.source, ?_, ?_, h.dropped, fun x hx => ?_⟩
    · have horder := h.order
      rw [hitems] at horder
      simpa using horder
    · have hperm := h.perm
      rw [hitems] at hperm
      refine hperm.trans ?_
      show (s.received ++ s.discarded ++ item :: rest).Perm
        (s.received ++ [item] ++ s.discarded ++ rest)
      rw [List.append_assoc, List.append_assoc, List.append_assoc]
      refine List.Perm.append_left _ ?_
      exact List.perm_middle
    · rw [List.dropLast_concat] at hx
      have hnone := List.any_eq_false.mp hover x hx
      exact Bool.eq_false_iff.mpr hnone

/-! ## What holds where evictions find the buffer intact -/

/-- An eviction finds the buffer as full as the offer before it did, or empty. -/
def Intact (s : State μ ε) : Event → Prop
  | .evict => ∀ item, s.pump = .evicting item → s.items.length = streamBufferMax ∨ s.items = []
  | _ => True

/-- Each eviction took the oldest message out of a full buffer. -/
def OnlyOldest (s : State μ ε) : Prop :=
  ∀ buffer ∈ s.evicted, buffer.length = streamBufferMax ∧ ∃ m rest, buffer = .message m :: rest

/-- What the bridge promises, of a state: the messages of `entered` are those produced so far. -/
structure Conserves (messages : List μ) (failure : Option ε) (s : State μ ε) : Prop where
  ordered : (messagesOf s.received).Sublist messages
  counted : (messagesOf s.entered).length =
    (messagesOf s.received).length + (messagesOf s.items).length + s.dropped
  conserved : (messagesOf s.entered).Perm
    (messagesOf s.received ++ messagesOf s.discarded ++ messagesOf s.items)
  oldest : OnlyOldest s
  ends : endsIn s.entered = endsIn (s.received ++ s.items)
  /-- The caller leaves its loop as the source did, with every message received or discarded. -/
  closing : s.hasLeft = true → s.received.getLast? = (endsOf failure).head? ∧
    messages.Perm (messagesOf s.received ++ messagesOf s.discarded)
  /-- When the pump is done its ends are there for a caller that goes on. -/
  waiting : s.pump = .idle → s.source = [] → s.hasLeft = false → endsIn s.items = endsOf failure

section

variable {messages : List μ} {failure : Option ε} {s : State μ ε}

/-- Ends are no messages. -/
lemma messagesOf_eq_nil {xs : List (Item μ ε)} (h : ∀ x ∈ xs, x.isEnd = true) :
    messagesOf xs = [] := by
  unfold messagesOf
  rw [List.filterMap_eq_nil_iff]
  intro x hx
  cases x with
  | message m => exact absurd (h _ hx) Bool.false_ne_true
  | error e => rfl
  | sentinel => rfl

lemma length_messagesOf {xs : List (Item μ ε)} (h : ∀ x ∈ xs, ∃ m, x = .message m) :
    (messagesOf xs).length = xs.length := by
  induction xs with
  | nil => rfl
  | cons x xs ih =>
    obtain ⟨m, rfl⟩ := h x List.mem_cons_self
    show (m :: messagesOf xs).length = _
    rw [List.length_cons, List.length_cons, ih fun y hy => h y (List.mem_cons_of_mem _ hy)]

lemma messagesOf_offers (messages : List μ) (failure : Option ε) :
    messagesOf (offers messages failure) = messages := by
  unfold offers
  rw [messagesOf_append, messagesOf_map, messagesOf_eq_nil fun x hx => isEnd_of_mem_endsOf hx,
    List.append_nil]

/-- What was put into the buffer was offered, in that order. -/
lemma Accounted.entered_sublist (h : Accounted messages failure s) :
    s.entered.Sublist (offers messages failure) := by
  rw [← h.source, List.append_assoc]
  exact List.sublist_append_left _ _

/-- What was discarded are messages. -/
lemma OnlyOldest.discarded (h : OnlyOldest s) : ∀ x ∈ s.discarded, ∃ m, x = .message m := by
  intro x hx
  obtain ⟨buffer, hbuffer, hhead⟩ := List.mem_filterMap.mp hx
  obtain ⟨-, m, rest, rfl⟩ := h buffer hbuffer
  exact ⟨m, (Option.some.inj hhead).symm⟩

lemma OnlyOldest.length_discarded (h : OnlyOldest s) :
    (messagesOf s.discarded).length = s.discarded.length :=
  length_messagesOf h.discarded

/-- No end is ever discarded. -/
lemma OnlyOldest.endsIn_discarded (h : OnlyOldest s) : endsIn s.discarded = [] := by
  unfold endsIn
  rw [List.filter_eq_nil_iff]
  intro x hx
  obtain ⟨m, rfl⟩ := h.discarded x hx
  exact Bool.false_ne_true

/-- No end is lost on the way. -/
lemma OnlyOldest.ends (hold : OnlyOldest s) (h : Accounted messages failure s) :
    endsIn s.entered = endsIn (s.received ++ s.items) := by
  have hsub : (endsIn (s.received ++ s.items)).Sublist (endsIn s.entered) :=
    h.order.filter Item.isEnd
  have hperm : (endsIn s.entered).Perm (endsIn (s.received ++ s.discarded ++ s.items)) :=
    h.perm.filter Item.isEnd
  have hlength := hperm.length_eq
  rw [endsIn_append, endsIn_append, hold.endsIn_discarded, List.append_nil, ← endsIn_append]
    at hlength
  exact (hsub.eq_of_length hlength.symm).symm

/-- A caller that has left its loop has everything that was not discarded. -/
lemma OnlyOldest.closing (hold : OnlyOldest s) (h : Accounted messages failure s)
    (hover : s.hasLeft = true) :
    s.received.getLast? = (endsOf failure).head? ∧ messagesOf s.items = [] ∧
      messagesOf s.entered = messages := by
  obtain ⟨x, hx, hend⟩ := List.any_eq_true.mp hover
  -- the end is the last that the caller got
  have hne : s.received ≠ [] := List.ne_nil_of_mem hx
  have hsplit : s.received.dropLast ++ [s.received.getLast hne] = s.received :=
    List.dropLast_append_getLast hne
  obtain rfl : x = s.received.getLast hne := by
    rw [← hsplit] at hx
    rcases List.mem_append.mp hx with hin | hin
    · exact absurd (h.stops x hin) (by rw [hend]; exact Bool.noConfusion)
    · exact List.mem_singleton.mp hin
  generalize s.received.getLast hne = x at hsplit hend
  have horder := h.order
  rw [← hsplit, List.append_assoc, List.singleton_append] at horder
  have hitems := isEnd_of_after _ (horder.trans h.entered_sublist) hend
  -- and everything that the pump has still to offer is an end too
  obtain ⟨before, after, hentered⟩ := List.append_of_mem (horder.subset (by simp : x ∈ _))
  have hsource := h.source
  have hoffers : (before ++ x :: (after ++ (s.pump.inHand ++ s.source))).Sublist
      (offers messages failure) := by
    rw [← hsource, hentered]
    simp
  have hleft : ∀ y ∈ s.pump.inHand ++ s.source, y.isEnd = true := fun y hy =>
    isEnd_of_after before hoffers hend y (List.mem_append_right after hy)
  refine ⟨?_, messagesOf_eq_nil hitems, ?_⟩
  · have hends := congrArg endsIn hsource
    rw [List.append_assoc, endsIn_append, hold.ends h, endsIn_append, ← hsplit, endsIn_append,
      endsIn_offers] at hends
    have hfirst : endsIn s.received.dropLast = [] := by
      unfold endsIn
      rw [List.filter_eq_nil_iff]
      intro y hy
      rw [h.stops y hy]
      exact Bool.false_ne_true
    have hx_ends : endsIn [x] = [x] := List.filter_eq_self.mpr fun y hy => by
      rw [List.mem_singleton.mp hy]
      exact hend
    rw [← hends, hfirst, hx_ends, ← hsplit, List.getLast?_concat]
    rfl
  · rw [← messagesOf_offers messages failure, ← hsource, List.append_assoc, messagesOf_append,
      messagesOf_eq_nil hleft, List.append_nil]

/-- When the source is done its ends wait for the caller. -/
lemma OnlyOldest.waiting (hold : OnlyOldest s) (h : Accounted messages failure s)
    (hidle : s.pump = .idle) (hdone : s.source = []) (hover : s.hasLeft = false) :
    endsIn s.items = endsOf failure := by
  have hall : s.entered = offers messages failure := by
    rw [← h.source, hidle, hdone]
    simp [Pump.inHand]
  have hnone : endsIn s.received = [] := by
    unfold endsIn
    rw [List.filter_eq_nil_iff]
    exact List.any_eq_false.mp hover
  have hends := hold.ends h
  rw [hall, endsIn_offers, endsIn_append, hnone, List.nil_append] at hends
  exact hends.symm

/-- The promise is kept while evictions take the oldest message of a full buffer. -/
lemma Accounted.conserves_iff (h : Accounted messages failure s) :
    Conserves messages failure s ↔ OnlyOldest s := by
  constructor
  · exact fun hkeeps => hkeeps.oldest
  · intro hold
    have hperm : (messagesOf s.entered).Perm
        (messagesOf s.received ++ messagesOf s.discarded ++ messagesOf s.items) := by
      rw [← messagesOf_append, ← messagesOf_append]
      exact h.perm.filterMap _
    refine ⟨?_, ?_, hperm, hold, hold.ends h, fun hover => ?_, hold.waiting h⟩
    · have hsub := ((List.sublist_append_left s.received s.items).trans h.order).trans
        h.entered_sublist
      rw [← messagesOf_offers messages failure]
      exact hsub.filterMap _
    · have hlength := hperm.length_eq
      rw [List.length_append, List.length_append, hold.length_discarded, ← h.dropped] at hlength
      omega
    · obtain ⟨hlast, hnone, hall⟩ := hold.closing h hover
      rw [hnone, List.append_nil, hall] at hperm
      exact ⟨hlast, hperm⟩

/-- An operation keeps to it exactly when it finds the buffer intact. -/
lemma OnlyOldest.step_iff {s' : State μ ε} {e : Event} (h : Accounted messages failure s)
    (hold : OnlyOldest s) (hstep : s.step e = some s') : OnlyOldest s' ↔ Intact s e := by
  rcases State.step_cases hstep with ⟨rfl, item, rest, -, -, rfl⟩ | ⟨rfl, item, -, -, rfl⟩ |
    ⟨rfl, item, -, -, rfl⟩ | ⟨rfl, item, -, hempty, rfl⟩ |
    ⟨rfl, item, oldest, rest, hpump, hitems, rfl⟩ | ⟨rfl, -, item, rest, -, rfl⟩
  · exact iff_of_true hold trivial
  · exact iff_of_true hold trivial
  · exact iff_of_true hold trivial
  · exact iff_of_true hold fun _ _ => Or.inr hempty
  · constructor
    · intro hnext item' _
      rw [hitems]
      exact Or.inl (hnext _ (List.mem_append_right _ List.mem_cons_self)).1
    · intro hintact buffer hbuffer
      rcases List.mem_append.mp hbuffer with hin | hin
      · exact hold buffer hin
      obtain rfl := List.mem_singleton.mp hin
      have hfull : (oldest :: rest).length = streamBufferMax := by
        rcases hintact item hpump with hfull | hempty
        · rwa [hitems] at hfull
        · rw [hitems] at hempty
          exact absurd hempty (List.cons_ne_nil _ _)
      refine ⟨hfull, ?_⟩
      -- behind the oldest item come those of a full buffer and the one in hand
      have hsub : (oldest :: (rest ++ [item])).Sublist (offers messages failure) := by
        have hoffered : (s.entered ++ [item]).Sublist (offers messages failure) := by
          rw [← h.source, hpump]
          exact List.sublist_append_left _ _
        refine List.Sublist.trans ?_ hoffered
        rw [← List.cons_append, ← hitems]
        exact ((List.sublist_append_right _ _).trans h.order).append (List.Sublist.refl _)
      obtain ⟨m, rfl⟩ := isMessage_of_two_after hsub (by
        rw [List.length_cons] at hfull
        rw [List.length_append, List.length_singleton]
        unfold streamBufferMax at hfull
        omega)
      exact ⟨m, rest, rfl⟩
  · exact iff_of_true hold trivial

end

/-- A run whose evictions find the buffer as the failed offer found it, or empty, keeps the promise
in every state it reaches, and only such a run does. -/
theorem runs_conserve_iff (messages : List μ) (failure : Option ε) (events : List Event) :
    Meets State.step Intact (start messages failure) events ↔
      ∀ part, part <+: events → ∀ s, run State.step (start messages failure) part = some s →
        Conserves messages failure s := by
  have haccounted : ∀ part s, run State.step (start messages failure) part = some s →
      Accounted messages failure s := fun part s hrun =>
    invariant_of_run (fun _ _ _ h hstep => h.step hstep) (Accounted.init messages failure) hrun
  have hiff : ∀ (s : State μ ε) e s', Accounted messages failure s → OnlyOldest s →
      s.step e = some s' → (OnlyOldest s' ↔ Intact s e) := fun _ _ _ h hold hstep =>
    hold.step_iff h hstep
  have hnone : ∀ (s : State μ ε) e, s.step e = none → Intact s e := by
    intro s e hstep
    cases e with
    | evict =>
      intro item hpump
      cases hitems : s.items with
      | nil => exact Or.inr rfl
      | cons oldest rest => simp [State.step, hpump, hitems] at hstep
    | next => trivial
    | put => trivial
    | get => trivial
  have hinit : OnlyOldest (start messages failure) := fun _ hbuffer =>
    absurd hbuffer List.not_mem_nil
  rw [meets_iff_throughout (fun _ _ _ h hstep => Accounted.step h hstep) hiff hnone
    (Accounted.init messages failure) hinit]
  constructor
  · exact fun hall part hpart s hrun =>
      (haccounted part s hrun).conserves_iff.mpr (hall part hpart s hrun)
  · exact fun hall part hpart s hrun => (hall part hpart s hrun).oldest

/-! ## An error that never arrives -/

section

/-- The source's next items, each with an offer that finds room. -/
def fill (n : ℕ) : List Event := (List.replicate n [Event.next, Event.put]).flatten

/-- Items that find room are put one after the other. Induction on the items. -/
lemma run_fill (xs rest : List (Item μ ε)) {s : State μ ε} (hidle : s.pump = .idle)
    (hsource : s.source = xs ++ rest) (hroom : s.items.length + xs.length ≤ streamBufferMax) :
    run State.step s (fill xs.length) =
      some { s with source := rest, items := s.items ++ xs, entered := s.entered ++ xs } := by
  induction xs generalizing s with
  | nil =>
    obtain ⟨source, pump, items, dropped, received, entered, evicted⟩ := s
    simp only [List.nil_append] at hsource
    simp [fill, hsource]
  | cons x xs ih =>
    rw [List.length_cons] at hroom
    have hnext : s.step .next = some { s with pump := .offering x, source := xs ++ rest } := by
      simp only [State.step, hidle, hsource, List.cons_append]
    have hput : State.step { s with pump := .offering x, source := xs ++ rest } .put =
        some { s with
          pump := .idle, source := xs ++ rest, items := s.items ++ [x]
          entered := s.entered ++ [x] } := by
      simp only [State.step]
      rw [if_pos (by omega)]
    have hfill : fill (x :: xs).length = .next :: .put :: fill xs.length := rfl
    rw [hfill, run_cons]
    refine ⟨_, hnext, ?_⟩
    rw [run_cons]
    refine ⟨_, hput, ?_⟩
    rw [ih rfl rfl (by rw [List.length_append, List.length_singleton]; omega)]
    simp [hidle]

/-- The caller takes messages one after the other. -/
lemma run_drain (messages : List μ) (rest : List (Item μ ε)) {s : State μ ε}
    (hover : s.hasLeft = false) (hitems : s.items = messages.map .message ++ rest) :
    run State.step s (List.replicate messages.length .get) =
      some { s with items := rest, received := s.received ++ messages.map .message } := by
  induction messages generalizing s with
  | nil =>
    obtain ⟨source, pump, items, dropped, received, entered, evicted⟩ := s
    simp only [List.map_nil, List.nil_append] at hitems
    simp [hitems]
  | cons m messages ih =>
    have hget : s.step .get = some { s with
        items := messages.map .message ++ rest, received := s.received ++ [.message m] } := by
      simp only [State.step, hover, hitems, List.map_cons, List.cons_append, Bool.false_eq_true,
        if_false]
    rw [List.length_cons, List.replicate_succ, run_cons]
    refine ⟨_, hget, ?_⟩
    rw [ih ?_ rfl]
    · simp
    · show (s.received ++ [Item.message m]).any Item.isEnd = false
      rw [List.any_append, show s.received.any Item.isEnd = false from hover]
      rfl

/-- The error fills the buffer, the sentinel finds it full, the caller takes every message, and then
the eviction takes the error. -/
def overtaken (n : ℕ) : List Event :=
  fill (n + 1) ++ ([.next, .put] ++ (List.replicate n .get ++ [.evict, .put, .get]))

/-- Where this leaves the bridge. -/
lemma run_overtaken (messages : List μ) (e : ε) (hfull : messages.length + 1 = streamBufferMax) :
    run State.step (start messages (some e)) (overtaken messages.length) = some
      { source := [], pump := .idle, items := [], dropped := 1
        received := messages.map .message ++ [.sentinel]
        entered := messages.map .message ++ [.error e] ++ [.sentinel]
        evicted := [[.error e]] } := by
  have hlength : (messages.map Item.message ++ [Item.error e]).length = streamBufferMax := by
    rw [List.length_append, List.length_map, List.length_singleton, hfull]
  have hoffers : offers messages (some e) =
      (messages.map .message ++ [.error e]) ++ [.sentinel] := by
    unfold offers endsOf
    rw [List.append_assoc]
    rfl
  have hfill : run State.step (start messages (some e)) (fill (messages.length + 1)) = some
      { source := [.sentinel], pump := .idle
        items := messages.map .message ++ [.error e]
        entered := messages.map .message ++ [.error e] } := by
    rw [hfull, ← hlength]
    exact run_fill _ _ rfl hoffers (by rw [hlength]; exact Nat.le_of_eq (Nat.zero_add _))
  have hoffer : run State.step
      { source := [.sentinel], pump := .idle
        items := messages.map .message ++ [.error e]
        entered := messages.map .message ++ [.error e] } [.next, .put] = some
      ({ source := [], pump := .evicting .sentinel
         items := messages.map .message ++ [.error e]
         entered := messages.map .message ++ [.error e] } : State μ ε) := by
    rw [run_cons]
    refine ⟨_, rfl, ?_⟩
    rw [run_cons]
    refine ⟨_, ?_, rfl⟩
    simp only [State.step]
    rw [if_neg (by omega)]
  have hdrain := run_drain messages [Item.error e]
    (s := { source := [], pump := .evicting .sentinel
            items := messages.map .message ++ [.error e]
            entered := messages.map .message ++ [.error e] }) rfl rfl
  unfold overtaken
  rw [run_append, hfill, Option.bind_some, run_append, hoffer, Option.bind_some, run_append,
    hdrain, Option.bind_some]
  -- what is left are three operations on an almost empty buffer
  rw [run_cons]
  refine ⟨_, rfl, ?_⟩
  rw [run_cons]
  refine ⟨_, rfl, ?_⟩
  rw [run_cons]
  refine ⟨_, ?_, rfl⟩
  have hover : (messages.map (Item.message (ε := ε))).any Item.isEnd = false := by
    rw [List.any_map]
    exact List.any_eq_false.mpr fun _ _ => Bool.false_ne_true
  simp only [State.step, State.hasLeft, List.nil_append, hover]
  rfl

/-- A source that fails after 1023 messages. The caller's loop ends as if it had not. -/
theorem error_discarded :
    ∃ s, run State.step (start (List.replicate 1023 0) (some "disconnected")) (overtaken 1023) =
        some s ∧ s.received.getLast? = some .sentinel ∧
      ¬ Conserves (List.replicate 1023 0) (some "disconnected") s := by
  have hlength : (List.replicate 1023 0).length = 1023 := List.length_replicate
  have hrun := run_overtaken (List.replicate 1023 0) "disconnected" (by rw [hlength]; rfl)
  rw [hlength] at hrun
  refine ⟨_, hrun, List.getLast?_concat, fun hkeeps => ?_⟩
  have hlast := (hkeeps.closing (List.any_eq_true.mpr
    ⟨.sentinel, List.mem_append_right _ (List.mem_singleton.mpr rfl), rfl⟩)).1
  rw [List.getLast?_concat] at hlast
  exact absurd hlast (by simp [endsOf])

end

end Bridge
end ExchangeRouter
