import ExchangeRouter.Lib.Transition
import Mathlib.Data.List.Basic
import Mathlib.Data.List.Infix

/-!
# A bounded queue that drops its oldest message

A producer puts the messages of a feed into a queue, a consumer takes them out and runs a
loop body on each. A full queue makes room by dropping its oldest message, so what is
queued is a contiguous piece of the feed, and the consumer finds the next message missing
exactly after a drop. `outputs_of_run` is the rule for an invariant that knows how far the
consumer has come: it needs the consumer to cope with the message it finds after a drop.
-/

namespace DropQueue

open Transition

/-- `put_nowait` into a queue of `cap` places, dropping the oldest message of a full one. -/
def put {α : Type*} (cap : ℕ) (q : List α) (a : α) : List α :=
  if q.length < cap then q ++ [a] else q.tail ++ [a]

section

variable {α : Type*} {cap : ℕ} {q : List α} {a : α}

/-- What is queued is what was, in its order, but for the oldest, and then the new message. -/
lemma put_sublist : (put cap q a).Sublist (q ++ [a]) := by
  unfold put
  split
  · exact List.Sublist.refl _
  · exact (List.tail_sublist q).append_right [a]

lemma getLast?_put : (put cap q a).getLast? = some a := by
  unfold put
  split
  · exact List.getLast?_concat
  · exact List.getLast?_concat

lemma length_put_le (hcap : 0 < cap) (h : q.length ≤ cap) : (put cap q a).length ≤ cap := by
  unfold put
  split
  · rw [List.length_append, List.length_singleton]
    omega
  · rw [List.length_append, List.length_tail, List.length_singleton]
    omega

lemma map_put {β : Type*} (f : α → β) : (put cap q a).map f = put cap (q.map f) (f a) := by
  unfold put
  rw [List.length_map]
  split
  · rw [List.map_append, List.map_singleton]
  · rw [List.map_append, List.map_singleton, List.map_tail]

/-- A message is dropped by a full queue only, as the oldest one. -/
lemma eq_head_of_not_mem_put {x : α} (hmem : x ∈ q) (hnot : x ∉ put cap q a) :
    cap ≤ q.length ∧ q.head? = some x := by
  unfold put at hnot
  split at hnot
  · exact absurd (List.mem_append_left [a] hmem) hnot
  · next hfull =>
    cases q with
    | nil => exact absurd hmem List.not_mem_nil
    | cons y rest =>
      rcases List.mem_cons.mp hmem with rfl | hrest
      · exact ⟨Nat.le_of_not_lt hfull, rfl⟩
      · exact absurd (List.mem_append_left [a] hrest) hnot

end

/-- The queue, its consumer (`none` once ended) and what that has yielded. Messages carry
their position in the feed. -/
structure Pipe (σ μ β : Type*) where
  sent : ℕ := 0
  queue : List (μ × ℕ) := []
  consumer : Option σ
  out : List (β × ℕ) := []

/-- The feed hands on its next message, or the consumer takes the oldest. -/
inductive Event where
  | deliver
  | take
deriving DecidableEq, Repr

section

variable {σ μ β : Type*} (cap : ℕ) (body : σ → μ → List β × Option σ) (feed : List μ)

/-- A step of the pipe, `none` where the event cannot happen. -/
def step (s : Pipe σ μ β) : Event → Option (Pipe σ μ β)
  | .deliver =>
    feed[s.sent]?.map fun m =>
      { s with sent := s.sent + 1, queue := put cap s.queue (m, s.sent) }
  | .take =>
    match s.queue, s.consumer with
    | (m, i) :: rest, some c =>
      some { s with
        queue := rest
        consumer := (body c m).2
        out := s.out ++ (body c m).1.map fun o => (o, i) }
    | _, _ => none

/-- A delivery finds room, or leaves a consumer that can go on with the message that is the
oldest after the drop. -/
def Survives (resync : σ → μ → Prop) (s : Pipe σ μ β) : Event → Prop
  | .deliver => s.queue.length < cap ∨ ∀ m c x, feed[s.sent]? = some m → s.consumer = some c →
      (s.queue.tail ++ [(m, s.sent)]).head? = some x → resync c x.1
  | .take => True

variable {cap body feed}

lemma step_take {s : Pipe σ μ β} {m : μ} {i : ℕ} {rest : List (μ × ℕ)} {c : σ}
    (hqueue : s.queue = (m, i) :: rest) (hconsumer : s.consumer = some c) :
    step cap body feed s .take = some { s with
      queue := rest
      consumer := (body c m).2
      out := s.out ++ (body c m).1.map fun o => (o, i) } := by
  simp only [step, hqueue, hconsumer]

/-! ## Pieces of the feed -/

/-- The messages from position `a` up to the last one sent. -/
def piece (feed : List μ) (a sent : ℕ) : List (μ × ℕ) := (feed.zipIdx.take sent).drop a

lemma piece_succ {a sent : ℕ} {m : μ} (h : feed[sent]? = some m) (ha : a ≤ sent) :
    piece feed a (sent + 1) = piece feed a sent ++ [(m, sent)] := by
  have hlen : sent < feed.length := (List.getElem?_eq_some_iff.mp h).1
  have hget : feed.zipIdx[sent]? = some (m, sent) := by
    rw [List.getElem?_zipIdx, h]
    simp
  unfold piece
  rw [List.take_add_one, hget, List.drop_append_of_le_length]
  · rfl
  · rw [List.length_take, List.length_zipIdx]
    omega

lemma tail_piece (a sent : ℕ) : (piece feed a sent).tail = piece feed (a + 1) sent :=
  List.tail_drop

lemma length_piece {a sent : ℕ} (h : sent ≤ feed.length) :
    (piece feed a sent).length = sent - a := by
  unfold piece
  rw [List.length_drop, List.length_take, List.length_zipIdx]
  omega

/-- A piece begins with the message at its first position. -/
lemma piece_cons {a sent : ℕ} {m : μ} (hget : feed[a]? = some m) (ha : a < sent) :
    piece feed a sent = (m, a) :: piece feed (a + 1) sent := by
  have hlt : a < feed.length := (List.getElem?_eq_some_iff.mp hget).1
  have hlen : a < (feed.zipIdx.take sent).length := by
    rw [List.length_take, List.length_zipIdx]
    omega
  have hhead : (feed.zipIdx.take sent)[a] = (m, a) := by
    have hm : feed[a] = m := by
      rw [List.getElem?_eq_getElem hlt] at hget
      exact Option.some.inj hget
    simp [hm]
  unfold piece
  rw [List.drop_eq_getElem_cons hlen, hhead]

lemma piece_eq_cons {a sent i : ℕ} {m : μ} {rest : List (μ × ℕ)} (hsent : sent ≤ feed.length)
    (h : piece feed a sent = (m, i) :: rest) :
    i = a ∧ a < sent ∧ feed[a]? = some m ∧ rest = piece feed (a + 1) sent := by
  have ha : a < sent := by
    have hlen : (piece feed a sent).length = sent - a := length_piece hsent
    rw [h, List.length_cons] at hlen
    omega
  have hlt : a < feed.length := by omega
  have hget : feed[a]? = some feed[a] := List.getElem?_eq_getElem hlt
  rw [piece_cons hget ha, List.cons.injEq, Prod.mk.injEq] at h
  exact ⟨h.1.2.symm, ha, by rw [hget, h.1.1], h.2.symm⟩

variable (cap body feed) in
/-- A burst of deliveries leaves the last `cap` messages in the queue. -/
theorem run_burst (hcap : 0 < cap) (n : ℕ) {a : ℕ} {s : Pipe σ μ β}
    (hsent : s.sent + n ≤ feed.length) (ha : a ≤ s.sent) (hle : s.sent ≤ a + cap)
    (hqueue : s.queue = piece feed a s.sent) :
    run (step cap body feed) s (List.replicate n .deliver) =
      some { s with
        sent := s.sent + n
        queue := piece feed (max a (s.sent + n - cap)) (s.sent + n) } := by
  induction n generalizing a s with
  | zero =>
    rw [List.replicate_zero, run_nil, show max a (s.sent + 0 - cap) = a by omega]
    rw [show s.sent + 0 = s.sent from rfl, ← hqueue]
  | succ n ih =>
    have hlt : s.sent < feed.length := by omega
    have hget : feed[s.sent]? = some feed[s.sent] := List.getElem?_eq_getElem hlt
    have hlen : s.queue.length = s.sent - a := by
      rw [hqueue]
      exact length_piece hlt.le
    -- the next message makes the piece longer, or moves it on by one
    have hput : put cap s.queue (feed[s.sent], s.sent) =
        piece feed (max a (s.sent + 1 - cap)) (s.sent + 1) := by
      unfold put
      by_cases hroom : s.queue.length < cap
      · rw [if_pos hroom, hqueue, ← piece_succ hget ha, show max a (s.sent + 1 - cap) = a by omega]
      · rw [if_neg hroom, hqueue, tail_piece, ← piece_succ hget (by omega),
          show max a (s.sent + 1 - cap) = a + 1 by omega]
    rw [List.replicate_succ, run_cons]
    refine ⟨_, by rw [step, hget]; rfl, ?_⟩
    rw [ih (by dsimp only; omega) (by dsimp only; omega) (by dsimp only; omega) hput]
    dsimp only
    rw [show s.sent + 1 + n = s.sent + (n + 1) by omega,
      show max (max a (s.sent + 1 - cap)) (s.sent + (n + 1) - cap) =
        max a (s.sent + (n + 1) - cap) by omega]

/-! ## The rule -/

/-- The queue is a piece of the feed, and a consumer that is not ended stands right before
it, or can go on with its first message. -/
structure Aligned (feed : List μ) (Inv : ℕ → σ → Prop) (resync : σ → μ → Prop)
    (Good : ℕ → β → Prop) (s : Pipe σ μ β) : Prop where
  sent_le : s.sent ≤ feed.length
  stands : ∃ a, a ≤ s.sent ∧ s.queue = piece feed a s.sent ∧
    ∀ c, s.consumer = some c → ∃ n, n ≤ a ∧ Inv n c ∧
      (n = a ∨ ∃ x rest, s.queue = x :: rest ∧ resync c x.1)
  good : ∀ o ∈ s.out, Good o.2 o.1

variable {Inv : ℕ → σ → Prop} {resync : σ → μ → Prop} {Good : ℕ → β → Prop}

lemma Aligned.init {c : σ} (h : Inv 0 c) :
    Aligned feed Inv resync Good ({ consumer := some c } : Pipe σ μ β) := by
  refine ⟨Nat.zero_le _, ⟨0, le_refl _, rfl, ?_⟩, fun o ho => absurd ho List.not_mem_nil⟩
  intro c' hc'
  obtain rfl := Option.some.inj hc'
  exact ⟨0, le_refl _, h, Or.inl rfl⟩

/-- A delivery keeps the consumer aligned when it survives the drop. -/
lemma Aligned.deliver (hcap : 0 < cap) {s s' : Pipe σ μ β}
    (h : Aligned feed Inv resync Good s) (hok : Survives cap feed resync s .deliver)
    (hstep : step cap body feed s .deliver = some s') : Aligned feed Inv resync Good s' := by
  obtain ⟨m, hget, rfl⟩ := Option.map_eq_some_iff.mp hstep
  obtain ⟨a, ha, hqueue, hstands⟩ := h.stands
  have hlen : s.sent < feed.length := (List.getElem?_eq_some_iff.mp hget).1
  have hqlen : s.queue.length = s.sent - a := by
    rw [hqueue]
    exact length_piece h.sent_le
  by_cases hroom : s.queue.length < cap
  · refine ⟨hlen, ⟨a, by dsimp only; omega, ?_, ?_⟩, h.good⟩
    · show put cap s.queue (m, s.sent) = _
      rw [put, if_pos hroom, piece_succ hget ha, hqueue]
    · intro c hc
      obtain ⟨n, hn, hinv, hnext⟩ := hstands c hc
      refine ⟨n, hn, hinv, hnext.imp_right ?_⟩
      rintro ⟨x, rest, hx, hres⟩
      refine ⟨x, rest ++ [(m, s.sent)], ?_, hres⟩
      show put cap s.queue (m, s.sent) = _
      rw [put, if_pos hroom, hx]
      rfl
  · -- the oldest message is gone: the consumer has to cope with the one behind it
    have hput : put cap s.queue (m, s.sent) = s.queue.tail ++ [(m, s.sent)] := by
      rw [put, if_neg hroom]
    refine ⟨hlen, ⟨a + 1, by dsimp only; omega, ?_, ?_⟩, h.good⟩
    · show put cap s.queue (m, s.sent) = _
      rw [hput, hqueue, tail_piece, piece_succ hget (by omega)]
    · intro c hc
      obtain ⟨n, hn, hinv, -⟩ := hstands c hc
      refine ⟨n, by omega, hinv, Or.inr ?_⟩
      obtain ⟨x, rest, hx⟩ := List.exists_cons_of_ne_nil
        (show s.queue.tail ++ [(m, s.sent)] ≠ [] by simp)
      refine ⟨x, rest, ?_, ?_⟩
      · show put cap s.queue (m, s.sent) = _
        rw [hput, hx]
      · exact hok.resolve_left hroom m c x hget hc (by rw [hx]; rfl)

/-- Taking a message keeps it aligned, and what it yields is good. -/
lemma Aligned.take
    (hbody : ∀ n i c m, Inv n c → n ≤ i → feed[i]? = some m → n = i ∨ resync c m →
      (∀ o ∈ (body c m).1, Good i o) ∧ ∀ c', (body c m).2 = some c' → Inv (i + 1) c')
    {s s' : Pipe σ μ β} (h : Aligned feed Inv resync Good s)
    (hstep : step cap body feed s .take = some s') : Aligned feed Inv resync Good s' := by
  obtain ⟨a, ha, hqueue, hstands⟩ := h.stands
  unfold step at hstep
  cases hq : s.queue with
  | nil => simp [hq] at hstep
  | cons x rest =>
    obtain ⟨m, i⟩ := x
    cases hc : s.consumer with
    | none => simp [hq, hc] at hstep
    | some c =>
      simp only [hq, hc, Option.some.injEq] at hstep
      obtain ⟨hi, hlt, hget, hrest⟩ := piece_eq_cons h.sent_le (hqueue.symm.trans hq)
      subst hi
      obtain ⟨n, hn, hinv, hnext⟩ := hstands c hc
      have hcope : n = i ∨ resync c m := by
        refine hnext.imp_right ?_
        rintro ⟨x, rest', hx, hres⟩
        rw [hq, List.cons.injEq] at hx
        rwa [← hx.1] at hres
      obtain ⟨hgood, hinv'⟩ := hbody n i c m hinv hn hget hcope
      rw [← hstep]
      refine ⟨h.sent_le, ⟨i + 1, hlt, hrest, fun c' hc' => ?_⟩, fun o ho => ?_⟩
      · exact ⟨i + 1, le_refl _, hinv' c' hc', Or.inl rfl⟩
      · rcases List.mem_append.mp ho with ho | ho
        · exact h.good o ho
        · obtain ⟨b, hb, rfl⟩ := List.mem_map.mp ho
          exact hgood b hb

/-- In every run whose deliveries the consumer survives, every output is good. -/
theorem outputs_of_run (hcap : 0 < cap)
    (hbody : ∀ n i c m, Inv n c → n ≤ i → feed[i]? = some m → n = i ∨ resync c m →
      (∀ o ∈ (body c m).1, Good i o) ∧ ∀ c', (body c m).2 = some c' → Inv (i + 1) c')
    {c : σ} (hinit : Inv 0 c) {events : List Event} {s : Pipe σ μ β}
    (hmeets : Meets (step cap body feed) (Survives cap feed resync)
      { consumer := some c } events)
    (hrun : run (step cap body feed) { consumer := some c } events = some s) :
    ∀ o ∈ s.out, Good o.2 o.1 := by
  have haligned : Aligned feed Inv resync Good s := by
    refine invariant_of_meets (fun t e t' ht hok hstep => ?_) (Aligned.init hinit) hmeets hrun
    cases e with
    | deliver => exact ht.deliver hcap hok hstep
    | take => exact ht.take hbody hstep
  exact haligned.good

end

end DropQueue
