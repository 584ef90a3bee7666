import ExchangeRouter.LoopThread
import Mathlib.Data.List.Induction

/-!
# The calls that a close overtakes

While the flag of a router is not set, its loop runs and every call that waits can still get its
result (`can_pass`). A call that begins later is refused. So the calls that wait for ever, once the
loop has been left, are the ones that were on their way as a `close` set the flag. Where no `close`
begins while a call is on its way, and no call while a `close` is, there are none.
-/

namespace ExchangeRouter
namespace LoopThread

open Transition

/-! ## What the operations do -/

/-- The coroutine of call `n` awaits something. -/
def State.isSuspended (s : State) (n : ℕ) : Bool := (s.calls[n]?).any Call.suspended

section

variable (s : State) (n m : ℕ) (stage : Stage) (b : Bool) (h : Handle)

@[simp] lemma stageOf_push : (s.push h).stageOf m = s.stageOf m := rfl

@[simp] lemma isSuspended_push : (s.push h).isSuspended m = s.isSuspended m := rfl

/-- The call has the stage, if there is such a call. -/
@[simp] lemma stageOf_setStage_self : (s.setStage n stage).stageOf n =
    (s.stageOf n).map fun _ => stage := by
  unfold State.stageOf State.setStage
  rw [List.getElem?_modify]
  cases s.calls[n]? <;> simp

/-- Other calls keep theirs. -/
lemma stageOf_setStage_ne (hne : n ≠ m) : (s.setStage n stage).stageOf m = s.stageOf m := by
  unfold State.stageOf State.setStage
  rw [List.getElem?_modify]
  simp [hne]

@[simp] lemma isSuspended_setStage : (s.setStage n stage).isSuspended m = s.isSuspended m := by
  unfold State.isSuspended State.setStage
  rw [List.getElem?_modify]
  cases s.calls[m]? <;> simp
  split <;> rfl

@[simp] lemma stageOf_setSuspended : (s.setSuspended n b).stageOf m = s.stageOf m := by
  unfold State.stageOf State.setSuspended
  rw [List.getElem?_modify]
  cases s.calls[m]? <;> simp
  split <;> rfl

lemma isSuspended_setSuspended_ne (hne : n ≠ m) :
    (s.setSuspended n b).isSuspended m = s.isSuspended m := by
  unfold State.isSuspended State.setSuspended
  rw [List.getElem?_modify]
  simp [hne]

lemma isSuspended_setSuspended_self (hn : (s.stageOf n).isSome) :
    (s.setSuspended n b).isSuspended n = b := by
  unfold State.isSuspended State.setSuspended
  unfold State.stageOf at hn
  rw [List.getElem?_modify]
  cases hc : s.calls[n]? with
  | none => simp [hc] at hn
  | some c => simp

end

/-- Behind the wait for the coroutine. -/
def Stage.isPast : Stage → Bool
  | created => false
  | checked => false
  | waiting => false
  | _ => true

/-- On the way: checked, and without the result. -/
def State.Pending (s : State) (n : ℕ) : Prop :=
  s.stageOf n = some .checked ∨ s.stageOf n = some .waiting

/-- A callback ends waits, and moves no other call. -/
lemma stage_callback (s : State) (outcome : Option Bool) (h : Handle) (m : ℕ) :
    (s.callback outcome h).stageOf m = s.stageOf m ∨ s.stageOf m = some .waiting ∧
      ((s.callback outcome h).stageOf m = some .ran ∨
        ∃ e, (s.callback outcome h).stageOf m = some (.ended e)) := by
  cases h with
  | start n => exact .inl rfl
  | resume n =>
    refine .inl ?_
    cases outcome with
    | none => exact stageOf_setSuspended s n m true
    | some ok => rfl
  | background => exact .inl rfl
  | stop => exact .inl rfl
  | done n ok =>
    have hcalls : (s.callback outcome (.done n ok)).stageOf m =
        (s.calls[m]?).map fun c => (if n = m then c.finish ok else c).stage := by
      unfold State.callback State.stageOf
      dsimp only
      rw [List.getElem?_modify]
      cases s.calls[m]? <;> simp
    rw [hcalls]
    unfold State.stageOf
    cases s.calls[m]? with
    | none => exact .inl rfl
    | some c =>
      simp only [Option.map_some]
      by_cases hn : n = m
      · rw [if_pos hn]
        unfold Call.finish
        by_cases hw : c.stage = .waiting
        · rw [if_pos hw]
          refine .inr ⟨by rw [hw], ?_⟩
          cases ok with
          | false => exact .inr ⟨.raised, rfl⟩
          | true =>
            cases c.work with
            | call => exact .inr ⟨.returned, rfl⟩
            | close => exact .inl rfl
        · rw [if_neg hw]
          exact .inl rfl
      · rw [if_neg hn]
        exact .inl rfl

/-- A result that is delivered takes the call past its wait. -/
lemma callback_done_past {s : State} {n : ℕ} (hw : s.stageOf n = some .waiting)
    (outcome : Option Bool) (ok : Bool) :
    ∃ stage, (s.callback outcome (.done n ok)).stageOf n = some stage ∧ stage.isPast = true := by
  unfold State.stageOf at hw ⊢
  unfold State.callback
  dsimp only
  rw [List.getElem?_modify]
  cases hc : s.calls[n]? with
  | none => simp [hc] at hw
  | some c =>
    have hstage : c.stage = .waiting := by simpa [hc] using hw
    refine ⟨(c.finish ok).stage, by simp, ?_⟩
    unfold Call.finish
    rw [if_pos hstage]
    cases ok with
    | false => rfl
    | true => cases c.work <;> rfl

/-- What a step can be, with what it found. -/
inductive Steps (s : State) : Event → State → Prop where
  | begin (w : Work) :
    Steps s (.begin w) { s with calls := s.calls ++ [{ work := w, stage := s.begun w }] }
  | refused (n : ℕ) (hn : s.stageOf n = some .created) (hflag : s.flag = true) :
    Steps s (.check n) (s.setStage n (.ended .routerClosed))
  | checked (n : ℕ) (hn : s.stageOf n = some .created) (hflag : s.flag = false) :
    Steps s (.check n) (s.setStage n .checked)
  | unsubmitted (n : ℕ) (hn : s.stageOf n = some .checked) (hclosed : s.loopClosed = true) :
    Steps s (.submit n) (s.setStage n (.ended .loopClosed))
  | submitted (n : ℕ) (hn : s.stageOf n = some .checked) (hclosed : s.loopClosed = false) :
    Steps s (.submit n) ((s.setStage n .waiting).push (.start n))
  | iterated (hrunning : s.running = true) (hbatch : s.batch = []) (hstop : s.stopping = false) :
    Steps s .iterate { s with batch := s.ready, ready := [] }
  | handled (outcome : Option Bool) (h : Handle) (rest : List Handle) (hrunning : s.running = true)
      (hbatch : s.batch = h :: rest) :
    Steps s (.handle outcome) (State.callback { s with batch := rest } outcome h)
  | woken (n : ℕ) (hrunning : s.running = true) (hn : s.isSuspended n = true) :
    Steps s (.wake n) ((s.setSuspended n false).push (.resume n))
  | posted (hclosed : s.loopClosed = false) : Steps s .post (s.push .background)
  | halted (hrunning : s.running = true) (hbatch : s.batch = []) (hstop : s.stopping = true) :
    Steps s .halt { s with running := false }
  | left (n : ℕ) (hn : s.stageOf n = some .ran) (hflag : s.flag = true) :
    Steps s (.guard n) (s.setStage n (.ended .returned))
  | guarded (n : ℕ) (hn : s.stageOf n = some .ran) (hflag : s.flag = false) :
    Steps s (.guard n) (s.setStage n .guarded)
  | flagged (n : ℕ) (hn : s.stageOf n = some .guarded) :
    Steps s (.flag n) (State.setStage { s with flag := true } n .flagged)
  | unposted (n : ℕ) (hn : s.stageOf n = some .flagged) (hclosed : s.loopClosed = true) :
    Steps s (.postStop n) (s.setStage n (.ended .loopClosed))
  | stopped (n : ℕ) (hn : s.stageOf n = some .flagged) (hclosed : s.loopClosed = false) :
    Steps s (.postStop n) ((s.setStage n .joining).push .stop)
  | timedOut (n : ℕ) (hn : s.stageOf n = some .joining) (hrunning : s.running = true) :
    Steps s (.join n) (s.setStage n (.ended .returned))
  | joined (n : ℕ) (hn : s.stageOf n = some .joining) (hrunning : s.running = false) :
    Steps s (.join n)
      (State.setStage { s with loopClosed := true, ready := [] } n (.ended .returned))

/-- A step is one of the list. -/
lemma steps_of_step {s s' : State} {e : Event} (hstep : step s e = some s') : Steps s e s' := by
  cases e with
  | begin w =>
    rw [← Option.some.inj hstep]
    exact .begin w
  | check n =>
    obtain ⟨hn, hs⟩ := Option.ite_none_right_eq_some.mp hstep
    rw [← Option.some.inj hs]
    cases hflag : s.flag with
    | true => exact .refused n hn hflag
    | false => exact .checked n hn hflag
  | submit n =>
    obtain ⟨hn, hs⟩ := Option.ite_none_right_eq_some.mp hstep
    cases hclosed : s.loopClosed with
    | true =>
      rw [hclosed, if_pos rfl] at hs
      rw [← Option.some.inj hs]
      exact .unsubmitted n hn hclosed
    | false =>
      rw [hclosed, if_neg (by simp)] at hs
      rw [← Option.some.inj hs]
      exact .submitted n hn hclosed
  | iterate =>
    obtain ⟨⟨hrunning, hbatch, hstop⟩, hs⟩ := Option.ite_none_right_eq_some.mp hstep
    rw [← Option.some.inj hs]
    exact .iterated hrunning hbatch hstop
  | handle outcome =>
    simp only [step] at hstep
    split at hstep
    · cases hstep
    · next h rest hbatch =>
      obtain ⟨hrunning, hs⟩ := Option.ite_none_right_eq_some.mp hstep
      rw [← Option.some.inj hs]
      exact .handled outcome h rest hrunning hbatch
  | wake n =>
    obtain ⟨⟨hrunning, hn⟩, hs⟩ := Option.ite_none_right_eq_some.mp hstep
    rw [← Option.some.inj hs]
    exact .woken n hrunning hn
  | post =>
    obtain ⟨hclosed, hs⟩ := Option.ite_none_left_eq_some.mp hstep
    rw [← Option.some.inj hs]
    exact .posted (Bool.eq_false_iff.mpr hclosed)
  | halt =>
    obtain ⟨⟨hrunning, hbatch, hstop⟩, hs⟩ := Option.ite_none_right_eq_some.mp hstep
    rw [← Option.some.inj hs]
    exact .halted hrunning hbatch hstop
  | guard n =>
    obtain ⟨hn, hs⟩ := Option.ite_none_right_eq_some.mp hstep
    rw [← Option.some.inj hs]
    cases hflag : s.flag with
    | true => exact .left n hn hflag
    | false => exact .guarded n hn hflag
  | flag n =>
    obtain ⟨hn, hs⟩ := Option.ite_none_right_eq_some.mp hstep
    rw [← Option.some.inj hs]
    exact .flagged n hn
  | postStop n =>
    obtain ⟨hn, hs⟩ := Option.ite_none_right_eq_some.mp hstep
    cases hclosed : s.loopClosed with
    | true =>
      rw [hclosed, if_pos rfl] at hs
      rw [← Option.some.inj hs]
      exact .unposted n hn hclosed
    | false =>
      rw [hclosed, if_neg (by simp)] at hs
      rw [← Option.some.inj hs]
      exact .stopped n hn hclosed
  | join n =>
    obtain ⟨hn, hs⟩ := Option.ite_none_right_eq_some.mp hstep
    rcases Bool.eq_false_or_eq_true s.running with hrunning | hrunning
    · rw [if_pos hrunning] at hs
      rw [← Option.some.inj hs]
      exact .timedOut n hn hrunning
    · rw [if_neg (by simp [hrunning])] at hs
      rw [← Option.some.inj hs]
      exact .joined n hn hrunning

@[simp] lemma flag_callback (s : State) (outcome : Option Bool) (h : Handle) :
    (s.callback outcome h).flag = s.flag := by
  cases h with
  | resume n => cases outcome <;> rfl
  | _ => rfl

@[simp] lemma flag_setStage (s : State) (n : ℕ) (stage : Stage) :
    (s.setStage n stage).flag = s.flag := rfl

@[simp] lemma flag_push (s : State) (h : Handle) : (s.push h).flag = s.flag := rfl

/-- The flag is set by `stop`, behind its check. -/
lemma flag_of_step {s s' : State} {e : Event} (hstep : step s e = some s')
    (hbefore : s.flag = false) (hafter : s'.flag = true) :
    ∃ n, e = .flag n ∧ s.stageOf n = some .guarded := by
  cases steps_of_step hstep with
  | flagged n hn => exact ⟨n, rfl, hn⟩
  | handled outcome h rest hrunning hbatch =>
    rw [flag_callback] at hafter
    exact absurd (hbefore.symm.trans hafter) (by simp)
  | _ => exact absurd (hbefore.symm.trans hafter) (by simp)

/-! ## Who is on its way -/

/-- A call that is behind its check, or has not come to it, is on its way after no write of its
stage but the two of `run`. -/
lemma pending_of_setStage {s : State} {n m : ℕ} {t : Stage} (hne : t ≠ .checked)
    (hne' : t ≠ .waiting) (hm : (s.setStage n t).Pending m) : s.Pending m := by
  unfold State.Pending at hm ⊢
  by_cases hn : n = m
  · subst hn
    rw [stageOf_setStage_self] at hm
    cases hstage : s.stageOf n with
    | none => simp [hstage] at hm
    | some stage' => simp [hstage, hne, hne'] at hm
  · rwa [stageOf_setStage_ne _ _ _ _ hn] at hm

lemma stageOf_begin (s : State) (w : Work) (m : ℕ) :
    State.stageOf { s with calls := s.calls ++ [{ work := w, stage := s.begun w }] } m =
      if m = s.calls.length then some (s.begun w) else s.stageOf m := by
  unfold State.stageOf
  dsimp only
  rcases Nat.lt_trichotomy m s.calls.length with h | h | h
  · rw [List.getElem?_append_left h, if_neg (by omega)]
  · subst h
    simp
  · rw [if_neg (by omega), List.getElem?_eq_none (by simp; omega),
      List.getElem?_eq_none (by omega)]

/-- A call begins at its check, or is over. -/
lemma begun_cases (s : State) (w : Work) : s.begun w = .created ∨ s.begun w = .ended .returned := by
  cases w with
  | call => exact .inl rfl
  | close =>
    unfold State.begun
    dsimp only
    split
    · exact .inr rfl
    · exact .inl rfl

/-- Where the flag is set, or is being set, nobody gets on its way. -/
lemma pending_of_step {s s' : State} {e : Event} (hstep : step s e = some s')
    (hcheck : s'.flag = true) {m : ℕ} (hm : s'.Pending m) : s.Pending m := by
  cases steps_of_step hstep with
  | begin w =>
    unfold State.Pending at hm ⊢
    rw [stageOf_begin] at hm
    split at hm
    · rcases begun_cases s w with h | h <;> simp [h] at hm
    · exact hm
  | refused n hn hflag => exact pending_of_setStage (by simp) (by simp) hm
  | checked n hn hflag => exact absurd (hflag.symm.trans hcheck) (by simp)
  | unsubmitted n hn hclosed => exact pending_of_setStage (by simp) (by simp) hm
  | submitted n hn hclosed =>
    by_cases hnm : n = m
    · exact .inl (hnm ▸ hn)
    · unfold State.Pending at hm ⊢
      rwa [stageOf_push, stageOf_setStage_ne _ _ _ _ hnm] at hm
  | iterated hrunning hbatch hstop => exact hm
  | handled outcome h rest hrunning hbatch =>
    rcases stage_callback { s with batch := rest } outcome h m with hsame | ⟨hw, -⟩
    · unfold State.Pending at hm ⊢
      rwa [hsame] at hm
    · exact .inr hw
  | woken n hrunning hn =>
    unfold State.Pending at hm ⊢
    rwa [stageOf_push, stageOf_setSuspended] at hm
  | posted hclosed => exact hm
  | halted hrunning hbatch hstop => exact hm
  | left n hn hflag => exact pending_of_setStage (by simp) (by simp) hm
  | guarded n hn hflag => exact pending_of_setStage (by simp) (by simp) hm
  | flagged n hn =>
    exact pending_of_setStage (s := { s with flag := true }) (by simp) (by simp) hm
  | unposted n hn hclosed => exact pending_of_setStage (by simp) (by simp) hm
  | stopped n hn hclosed =>
    exact pending_of_setStage (n := n) (t := .joining) (by simp) (by simp) hm
  | timedOut n hn hrunning => exact pending_of_setStage (by simp) (by simp) hm
  | joined n hn hrunning =>
    exact pending_of_setStage (s := { s with loopClosed := true, ready := [] }) (by simp) (by simp)
      hm

/-- Of a call that is on its way under a set flag: it was so as the flag was set. -/
lemma pending_at_flag {events : List Event} {s : State} (hrun : run step {} events = some s)
    (hflag : s.flag = true) {m : ℕ} (hm : s.Pending m) :
    ∃ before closer after sent, events = before ++ .flag closer :: after ∧
      run step {} before = some sent ∧ sent.flag = false ∧
      sent.stageOf closer = some .guarded ∧ sent.Pending m := by
  induction events using List.reverseRecOn generalizing s with
  | nil =>
    rw [run_nil, Option.some.injEq] at hrun
    subst hrun
    cases hflag
  | append_singleton events e ih =>
    rw [run_append] at hrun
    obtain ⟨t, ht, hlast⟩ := Option.bind_eq_some_iff.mp hrun
    obtain ⟨s', hstep, hnil⟩ := run_cons.mp hlast
    rw [run_nil, Option.some.injEq] at hnil
    subst hnil
    have hpending := pending_of_step hstep hflag hm
    cases hbefore : t.flag with
    | true =>
      obtain ⟨before, closer, after, sent, hevents, hsent, hopen, hclose, hp⟩ := ih ht hbefore hpending
      exact ⟨before, closer, after ++ [e], sent, by rw [hevents]; simp, hsent, hopen, hclose, hp⟩
    | false =>
      obtain ⟨closer, rfl, hclose⟩ := flag_of_step hstep hbefore hflag
      exact ⟨events, closer, [], t, rfl, ht, hbefore, hclose, hpending⟩

/-! ## A loop that has been left -/

/-- The write of a stage leaves a call alone that is in another than the one written over. -/
lemma stageOf_setStage_kept {s : State} {n m : ℕ} {stage stage' kept : Stage}
    (hn : s.stageOf n = some stage') (hne : stage' ≠ kept) (hm : s.stageOf m = some kept) :
    (s.setStage n stage).stageOf m = some kept := by
  have hnm : n ≠ m := by
    rintro rfl
    exact hne (Option.some.inj (hn.symm.trans hm))
  rwa [stageOf_setStage_ne _ _ _ _ hnm]

/-- Nothing more runs, and who waits goes on waiting. -/
lemma left_of_step {s s' : State} {e : Event} (hstep : step s e = some s')
    (hleft : s.running = false) :
    s'.running = false ∧ ∀ m, s.stageOf m = some .waiting → s'.stageOf m = some .waiting := by
  cases steps_of_step hstep with
  | begin w =>
    refine ⟨hleft, fun m hm => ?_⟩
    rw [stageOf_begin, if_neg ?_]
    · exact hm
    · rintro rfl
      simp [State.stageOf] at hm
  | refused n hn hflag => exact ⟨hleft, fun m => stageOf_setStage_kept hn (by simp)⟩
  | checked n hn hflag => exact ⟨hleft, fun m => stageOf_setStage_kept hn (by simp)⟩
  | unsubmitted n hn hclosed => exact ⟨hleft, fun m => stageOf_setStage_kept hn (by simp)⟩
  | submitted n hn hclosed => exact ⟨hleft, fun m => stageOf_setStage_kept hn (by simp)⟩
  | iterated hrunning hbatch hstop => exact absurd (hleft.symm.trans hrunning) (by simp)
  | handled outcome h rest hrunning hbatch => exact absurd (hleft.symm.trans hrunning) (by simp)
  | woken n hrunning hn => exact absurd (hleft.symm.trans hrunning) (by simp)
  | posted hclosed => exact ⟨hleft, fun m hm => hm⟩
  | halted hrunning hbatch hstop => exact absurd (hleft.symm.trans hrunning) (by simp)
  | left n hn hflag => exact ⟨hleft, fun m => stageOf_setStage_kept hn (by simp)⟩
  | guarded n hn hflag => exact ⟨hleft, fun m => stageOf_setStage_kept hn (by simp)⟩
  | flagged n hn =>
    exact ⟨hleft, fun m => stageOf_setStage_kept (s := { s with flag := true }) hn (by simp)⟩
  | unposted n hn hclosed => exact ⟨hleft, fun m => stageOf_setStage_kept hn (by simp)⟩
  | stopped n hn hclosed => exact ⟨hleft, fun m => stageOf_setStage_kept hn (by simp)⟩
  | timedOut n hn hrunning => exact ⟨hleft, fun m => stageOf_setStage_kept hn (by simp)⟩
  | joined n hn hrunning =>
    exact ⟨hleft, fun m => stageOf_setStage_kept
      (s := { s with loopClosed := true, ready := [] }) hn (by simp)⟩

/-- For ever. -/
lemma waits_for_ever {s s' : State} {later : List Event} (hleft : s.running = false)
    (hrun : run step s later = some s') {m : ℕ} (hm : s.stageOf m = some .waiting) :
    s'.stageOf m = some .waiting :=
  have hkeeps : ∀ t e t', t.running = false ∧ t.stageOf m = some .waiting → step t e = some t' →
      t'.running = false ∧ t'.stageOf m = some .waiting := fun _ _ _ ht hstep =>
    ⟨(left_of_step hstep ht.1).1, (left_of_step hstep ht.1).2 m ht.2⟩
  (invariant_of_run hkeeps ⟨hleft, hm⟩ hrun).2

/-! ## A router that is open -/

/-- The loop has the call's coroutine: it awaits something, or is among the callbacks. -/
def State.Queued (s : State) (n : ℕ) : Prop :=
  s.isSuspended n = true ∨ ∃ h ∈ s.ready ++ s.batch, h.call? = some n

/-- What holds as long as the flag is not set: the loop runs, nobody is stopping it, and it has
the coroutine of every call that waits. -/
structure Open (s : State) : Prop where
  running : s.running = true
  stopping : s.stopping = false
  loop : s.loopClosed = false
  noStop : .stop ∉ s.ready ++ s.batch
  stages : ∀ n, s.stageOf n ≠ some .flagged ∧ s.stageOf n ≠ some .joining
  queued : ∀ n, s.stageOf n = some .waiting → s.Queued n

lemma open_start : Open {} where
  running := rfl
  stopping := rfl
  loop := rfl
  noStop := by simp
  stages := fun n => by simp [State.stageOf]
  queued := fun n hn => by simp [State.stageOf] at hn

/-- A write of a stage that is neither a wait nor a stop. -/
lemma Open.setStage {s : State} (h : Open s) (n : ℕ) {stage : Stage} (hw : stage ≠ .waiting)
    (hf : stage ≠ .flagged) (hj : stage ≠ .joining) : Open (s.setStage n stage) where
  running := h.running
  stopping := h.stopping
  loop := h.loop
  noStop := h.noStop
  stages := fun m => by
    by_cases hn : n = m
    · subst hn
      rw [stageOf_setStage_self]
      cases s.stageOf n <;> simp [hf, hj]
    · rw [stageOf_setStage_ne _ _ _ _ hn]
      exact h.stages m
  queued := fun m hm => by
    have hn : n ≠ m := by
      rintro rfl
      rw [stageOf_setStage_self] at hm
      cases hs : s.stageOf n <;> simp [hs, hw] at hm
    rw [stageOf_setStage_ne _ _ _ _ hn] at hm
    unfold State.Queued
    rw [isSuspended_setStage]
    exact h.queued m hm

/-- A callback that is pushed leaves the others in place. -/
lemma State.Queued.push {s : State} {n : ℕ} (h : s.Queued n) (handle : Handle) :
    (s.push handle).Queued n := by
  refine h.imp id fun ⟨h', hmem, hcall⟩ => ⟨h', ?_, hcall⟩
  show h' ∈ (s.ready ++ [handle]) ++ s.batch
  simp only [List.mem_append] at hmem ⊢
  exact hmem.elim (fun hr => .inl (.inl hr)) .inr

lemma queued_push_self {s : State} {n : ℕ} {handle : Handle} (hcall : handle.call? = some n) :
    (s.push handle).Queued n :=
  .inr ⟨handle, by simp [State.push], hcall⟩

/-- An open router stays one under any callback but `stop`. -/
lemma Open.push {s : State} (h : Open s) {k : Handle} (hne : k ≠ .stop) : Open (s.push k) where
  running := h.running
  stopping := h.stopping
  loop := h.loop
  noStop := by
    show .stop ∉ (s.ready ++ [k]) ++ s.batch
    have hno := h.noStop
    simp only [List.mem_append, List.mem_singleton, not_or] at hno ⊢
    exact ⟨⟨hno.1, fun heq => hne heq.symm⟩, hno.2⟩
  stages := h.stages
  queued := fun m hm => State.Queued.push (h.queued m hm) k

/-- What a callback leaves of the loop's own. -/
lemma callback_loop (s : State) (outcome : Option Bool) {h : Handle} (hne : h ≠ .stop) :
    (s.callback outcome h).running = s.running ∧ (s.callback outcome h).stopping = s.stopping ∧
    (s.callback outcome h).loopClosed = s.loopClosed ∧ (s.callback outcome h).batch = s.batch ∧
    ∃ pushed, (s.callback outcome h).ready = s.ready ++ pushed ∧ .stop ∉ pushed := by
  cases h with
  | start n => exact ⟨rfl, rfl, rfl, rfl, [.resume n], rfl, by simp⟩
  | resume n =>
    cases outcome with
    | none => exact ⟨rfl, rfl, rfl, rfl, [], by simp [State.callback, State.setSuspended], by simp⟩
    | some ok => exact ⟨rfl, rfl, rfl, rfl, [.done n ok], rfl, by simp⟩
  | done n ok => exact ⟨rfl, rfl, rfl, rfl, [], by simp [State.callback], by simp⟩
  | background => exact ⟨rfl, rfl, rfl, rfl, [], by simp [State.callback], by simp⟩
  | stop => exact absurd rfl hne

@[simp] lemma callback_batch (s : State) (outcome : Option Bool) (h : Handle) :
    (s.callback outcome h).batch = s.batch := by
  cases h with
  | resume n => cases outcome <;> rfl
  | _ => rfl

/-- A callback takes nothing out of `ready`. -/
lemma mem_ready_callback (s : State) (outcome : Option Bool) (h : Handle) {handle : Handle}
    (hmem : handle ∈ s.ready) : handle ∈ (s.callback outcome h).ready := by
  cases h with
  | start n => exact List.mem_append_left _ hmem
  | resume n =>
    cases outcome with
    | none => exact hmem
    | some ok => exact List.mem_append_left _ hmem
  | _ => exact hmem

/-- The callback of a result wakes nothing. -/
lemma isSuspended_done (s : State) (outcome : Option Bool) (n m : ℕ) (ok : Bool) :
    (s.callback outcome (.done n ok)).isSuspended m = s.isSuspended m := by
  unfold State.isSuspended State.callback
  dsimp only
  rw [List.getElem?_modify]
  cases s.calls[m]? with
  | none => rfl
  | some c =>
    simp only [Option.map_eq_map, Option.map_some, Option.any_some]
    split
    · unfold Call.finish
      split <;> rfl
    · rfl

/-- The batch without another call's callback. -/
lemma State.Queued.rest {s : State} {h : Handle} {rest : List Handle} (hbatch : s.batch = h :: rest)
    {m : ℕ} (hne : h.call? ≠ some m) (hq : s.Queued m) :
    State.Queued { s with batch := rest } m := by
  refine hq.imp id fun ⟨h', hmem, hcall⟩ => ⟨h', ?_, hcall⟩
  rw [hbatch] at hmem
  simp only [List.mem_append, List.mem_cons] at hmem ⊢
  rcases hmem with hr | rfl | hb
  · exact .inl hr
  · exact absurd hcall hne
  · exact .inr hb

/-- After a callback the loop still has every coroutine that a call waits for. -/
lemma queued_callback {s : State} {h : Handle} {rest : List Handle} (hbatch : s.batch = h :: rest)
    (outcome : Option Bool) {m : ℕ} (hq : s.Queued m)
    (hw : (State.callback { s with batch := rest } outcome h).stageOf m = some .waiting) :
    (State.callback { s with batch := rest } outcome h).Queued m := by
  by_cases hm : h.call? = some m
  · cases h with
    | start n =>
      cases hm
      exact queued_push_self rfl
    | resume n =>
      cases hm
      cases outcome with
      | none =>
        have hstage : (State.setSuspended { s with batch := rest } m true).stageOf m =
          some .waiting := hw
        rw [stageOf_setSuspended] at hstage
        exact .inl (isSuspended_setSuspended_self _ _ _ (by rw [hstage]; rfl))
      | some ok => exact queued_push_self rfl
    | done n ok =>
      cases hm
      have hbefore : State.stageOf { s with batch := rest } m = some .waiting := by
        rcases stage_callback { s with batch := rest } outcome (.done m ok) m with hsame | ⟨h', -⟩
        · rwa [← hsame]
        · exact h'
      obtain ⟨stage, hstage, hpast⟩ := callback_done_past hbefore outcome ok
      rw [hstage, Option.some.injEq] at hw
      subst hw
      cases hpast
    | background => cases hm
    | stop => cases hm
  · have hq' := State.Queued.rest hbatch hm hq
    cases h with
    | start n => exact State.Queued.push hq' _
    | resume n =>
      cases outcome with
      | none =>
        refine hq'.imp_left fun hsus => ?_
        have hn : n ≠ m := by simpa [Handle.call?] using hm
        show (State.setSuspended { s with batch := rest } n true).isSuspended m = true
        rwa [isSuspended_setSuspended_ne _ _ _ _ hn]
      | some ok => exact State.Queued.push hq' _
    | done n ok =>
      refine hq'.imp_left fun hsus => ?_
      rwa [isSuspended_done]
    | background => exact hq'
    | stop => exact hq'

/-- A callback keeps an open router open. -/
lemma Open.callback {s : State} (h : Open s) {handle : Handle} {rest : List Handle}
    (hbatch : s.batch = handle :: rest) (outcome : Option Bool) :
    Open (State.callback { s with batch := rest } outcome handle) := by
  have hno := h.noStop
  rw [hbatch] at hno
  simp only [List.mem_append, List.mem_cons, not_or] at hno
  obtain ⟨hready, hhandle, hrest⟩ := hno
  obtain ⟨hrunning, hstopping, hloop, hsame, pushed, hpushed, hstop⟩ :=
    callback_loop { s with batch := rest } outcome (fun heq => hhandle heq.symm)
  refine ⟨hrunning.trans h.running, hstopping.trans h.stopping, hloop.trans h.loop, ?_, ?_, ?_⟩
  · rw [hpushed, hsame]
    simp only [List.mem_append, not_or]
    exact ⟨⟨hready, hstop⟩, hrest⟩
  · intro n
    rcases stage_callback { s with batch := rest } outcome handle n with heq | ⟨-, heq | ⟨e, heq⟩⟩
    · rw [heq]
      exact h.stages n
    · rw [heq]
      exact ⟨by simp, by simp⟩
    · rw [heq]
      exact ⟨by simp, by simp⟩
  · intro m hm
    refine queued_callback hbatch outcome ?_ hm
    rcases stage_callback { s with batch := rest } outcome handle m with heq | ⟨hw, -⟩
    · exact h.queued m (heq.symm.trans hm)
    · exact h.queued m hw

/-- As long as the flag is not set, every step keeps the router open. -/
lemma open_of_step {s s' : State} {e : Event} (hstep : step s e = some s') (h : Open s)
    (hflag : s'.flag = false) : Open s' := by
  cases steps_of_step hstep with
  | begin w =>
    refine ⟨h.running, h.stopping, h.loop, h.noStop, fun n => ?_, fun n hn => ?_⟩
    · rw [stageOf_begin]
      split
      · rcases begun_cases s w with hb | hb <;> simp [hb]
      · exact h.stages n
    · rw [stageOf_begin] at hn
      split at hn
      · rcases begun_cases s w with hb | hb <;> simp [hb] at hn
      · refine (h.queued n hn).imp_left fun hsus => ?_
        unfold State.isSuspended at hsus ⊢
        dsimp only
        rw [List.getElem?_append_left]
        · exact hsus
        · by_contra hlt
          rw [List.getElem?_eq_none (by omega)] at hsus
          cases hsus
  | refused n hn hset => exact h.setStage n (by simp) (by simp) (by simp)
  | checked n hn hset => exact h.setStage n (by simp) (by simp) (by simp)
  | unsubmitted n hn hclosed => exact h.setStage n (by simp) (by simp) (by simp)
  | submitted n hn hclosed =>
    refine ⟨h.running, h.stopping, h.loop, (h.push (k := .start n) (by simp)).noStop,
      fun m => ?_, fun m hm => ?_⟩
    · rw [stageOf_push]
      by_cases hnm : n = m
      · subst hnm
        rw [stageOf_setStage_self, hn]
        simp
      · rw [stageOf_setStage_ne _ _ _ _ hnm]
        exact h.stages m
    · rw [stageOf_push] at hm
      by_cases hnm : n = m
      · exact queued_push_self (by rw [← hnm]; rfl)
      · rw [stageOf_setStage_ne _ _ _ _ hnm] at hm
        have hq := State.Queued.push (h.queued m hm) (.start n)
        exact hq.imp_left fun hsus => by rwa [isSuspended_push, isSuspended_setStage]
  | iterated hrunning hbatch hstop =>
    refine ⟨h.running, h.stopping, h.loop, ?_, h.stages, fun m hm => ?_⟩
    · have hno := h.noStop
      rw [hbatch, List.append_nil] at hno
      simpa using hno
    · refine (h.queued m hm).imp id fun ⟨h', hmem, hcall⟩ => ⟨h', ?_, hcall⟩
      rw [hbatch, List.append_nil] at hmem
      simpa using hmem
  | handled outcome handle rest hrunning hbatch => exact h.callback hbatch outcome
  | woken n hrunning hn =>
    refine ⟨h.running, h.stopping, h.loop, (h.push (k := .resume n) (by simp)).noStop,
      fun m => ?_, fun m hm => ?_⟩
    · rw [stageOf_push, stageOf_setSuspended]
      exact h.stages m
    · rw [stageOf_push, stageOf_setSuspended] at hm
      by_cases hnm : n = m
      · exact queued_push_self (by rw [← hnm]; rfl)
      · have hq := State.Queued.push (h.queued m hm) (.resume n)
        exact hq.imp_left fun hsus => by
          rwa [isSuspended_push, isSuspended_setSuspended_ne _ _ _ _ hnm]
  | posted hclosed => exact h.push (by simp)
  | halted hrunning hbatch hstop => exact absurd (h.stopping.symm.trans hstop) (by simp)
  | left n hn hset => exact h.setStage n (by simp) (by simp) (by simp)
  | guarded n hn hset => exact h.setStage n (by simp) (by simp) (by simp)
  | flagged n hn => exact absurd hflag (by simp)
  | unposted n hn hclosed => exact absurd hn (h.stages n).1
  | stopped n hn hclosed => exact absurd hn (h.stages n).1
  | timedOut n hn hrunning => exact absurd hn (h.stages n).2
  | joined n hn hrunning => exact absurd hn (h.stages n).2

/-- `_closed` is never cleared. -/
lemma flag_stays {s s' : State} {e : Event} (hstep : step s e = some s') (hflag : s.flag = true) :
    s'.flag = true := by
  cases steps_of_step hstep with
  | handled outcome h rest hrunning hbatch => rwa [flag_callback]
  | flagged n hn => rfl
  | _ => exact hflag

/-- A router whose flag is not set is open. -/
lemma open_of_run {s : State} {events : List Event} (hrun : run step {} events = some s)
    (hflag : s.flag = false) : Open s := by
  have hkeeps : ∀ t e t', (t.flag = false → Open t) → step t e = some t' →
      t'.flag = false → Open t' := by
    intro t e t' ht hstep hflag'
    refine open_of_step hstep (ht ?_) hflag'
    by_contra hset
    rw [flag_stays hstep (by simpa using hset)] at hflag'
    cases hflag'
  exact invariant_of_run hkeeps (fun _ => open_start) hrun hflag

/-! ## What the loop can still do -/

/-- The loop can come to where the call is behind its wait. -/
def CanPass (s : State) (n : ℕ) : Prop :=
  ∃ later s' stage, run step s later = some s' ∧ (∀ e ∈ later, e.isLoops = true) ∧
    s'.stageOf n = some stage ∧ stage.isPast = true

/-- An open router whose call waits, or is behind that. -/
structure Serves (s : State) (n : ℕ) : Prop where
  flag : s.flag = false
  isOpen : Open s
  stage : s.stageOf n = some .waiting ∨ ∃ stage, s.stageOf n = some stage ∧ stage.isPast = true

/-- A call that can pass after a step of the loop could pass before it. -/
lemma CanPass.of_step {s s' : State} {e : Event} {n : ℕ} (he : e.isLoops = true)
    (hstep : step s e = some s') (h : CanPass s' n) : CanPass s n := by
  obtain ⟨later, t, stage, hrun, hloops, hstage, hpast⟩ := h
  exact ⟨e :: later, t, stage, run_cons.mpr ⟨s', hstep, hrun⟩,
    List.forall_mem_cons.mpr ⟨he, hloops⟩, hstage, hpast⟩

/-- The next callback of the batch, its coroutine ending if it is a step of one. -/
lemma Serves.handle {s : State} {n : ℕ} (h : Serves s n) {handle : Handle} {rest : List Handle}
    (hbatch : s.batch = handle :: rest) :
    step s (.handle (some true)) =
      some (State.callback { s with batch := rest } (some true) handle) ∧
    Serves (State.callback { s with batch := rest } (some true) handle) n := by
  refine ⟨?_, ⟨(flag_callback _ _ _).trans h.flag, h.isOpen.callback hbatch _, ?_⟩⟩
  · simp only [step, hbatch, h.isOpen.running, if_true]
  · rcases stage_callback { s with batch := rest } (some true) handle n with
      heq | ⟨-, heq | ⟨e, heq⟩⟩
    · rw [heq]
      exact h.stage
    · exact .inr ⟨_, heq, rfl⟩
    · exact .inr ⟨_, heq, rfl⟩

/-- The next round. -/
lemma Serves.iterate {s : State} {n : ℕ} (h : Serves s n) (hbatch : s.batch = []) :
    step s .iterate = some { s with batch := s.ready, ready := [] } ∧
    Serves { s with batch := s.ready, ready := [] } n := by
  have hstep : step s .iterate = some { s with batch := s.ready, ready := [] } :=
    if_pos ⟨h.isOpen.running, hbatch, h.isOpen.stopping⟩
  exact ⟨hstep, h.flag, open_of_step hstep h.isOpen h.flag, h.stage⟩

/-- What can be done with a callback at the head of the batch can be done with one in it: by
induction on the batch. -/
lemma canPass_of_mem_batch {n : ℕ} {handle : Handle}
    (hhead : ∀ s rest, Serves s n → s.batch = handle :: rest → CanPass s n) {s : State}
    (h : Serves s n) (hmem : handle ∈ s.batch) : CanPass s n := by
  generalize hbatch : s.batch = batch at hmem
  induction batch generalizing s with
  | nil => cases hmem
  | cons first rest ih =>
    by_cases hfirst : handle = first
    · exact hhead s rest h (hfirst ▸ hbatch)
    · have hrest : handle ∈ rest := (List.mem_cons.mp hmem).resolve_left hfirst
      obtain ⟨hstep, hserves⟩ := h.handle hbatch
      refine CanPass.of_step rfl hstep (ih hserves ?_ hrest)
      exact callback_batch _ _ _

/-- The same of one that is ready: it is in the batch of the next round. -/
lemma canPass_of_mem_ready {n : ℕ} {handle : Handle}
    (hhead : ∀ s rest, Serves s n → s.batch = handle :: rest → CanPass s n) {s : State}
    (h : Serves s n) (hmem : handle ∈ s.ready) : CanPass s n := by
  generalize hbatch : s.batch = batch
  induction batch generalizing s with
  | nil =>
    obtain ⟨hstep, hserves⟩ := h.iterate hbatch
    exact CanPass.of_step rfl hstep (canPass_of_mem_batch hhead hserves hmem)
  | cons first rest ih =>
    obtain ⟨hstep, hserves⟩ := h.handle hbatch
    exact CanPass.of_step rfl hstep
      (ih hserves (mem_ready_callback _ _ _ hmem) (callback_batch _ _ _))

/-- The result of the coroutine is the end of the wait. -/
lemma canPass_of_done {n : ℕ} {b : Bool} (s : State) (rest : List Handle) (h : Serves s n)
    (hbatch : s.batch = .done n b :: rest) : CanPass s n := by
  rcases h.stage with hw | ⟨stage, hstage, hpast⟩
  · obtain ⟨stage, hstage, hpast⟩ := callback_done_past (s := { s with batch := rest }) hw
      (some true) b
    exact ⟨[.handle (some true)], _, stage, run_cons.mpr ⟨_, (h.handle hbatch).1, rfl⟩,
      by simp [Event.isLoops], hstage, hpast⟩
  · exact ⟨[], s, stage, rfl, by simp, hstage, hpast⟩

/-- The coroutine ends, and its result is delivered in the next round. -/
lemma canPass_of_resume {n : ℕ} (s : State) (rest : List Handle) (h : Serves s n)
    (hbatch : s.batch = .resume n :: rest) : CanPass s n := by
  obtain ⟨hstep, hserves⟩ := h.handle hbatch
  refine CanPass.of_step rfl hstep (canPass_of_mem_ready (canPass_of_done (b := true)) hserves ?_)
  simp [State.callback, State.push]

/-- The task takes its first step in the next round. -/
lemma canPass_of_start {n : ℕ} (s : State) (rest : List Handle) (h : Serves s n)
    (hbatch : s.batch = .start n :: rest) : CanPass s n := by
  obtain ⟨hstep, hserves⟩ := h.handle hbatch
  refine CanPass.of_step rfl hstep (canPass_of_mem_ready canPass_of_resume hserves ?_)
  simp [State.callback, State.push]

/-- Every call that waits can still get its result. -/
lemma can_pass {s : State} {n : ℕ} (hflag : s.flag = false) (hopen : Open s)
    (hw : s.stageOf n = some .waiting) : CanPass s n := by
  have hserves : Serves s n := ⟨hflag, hopen, .inl hw⟩
  have hcallback : ∀ handle : Handle, handle.call? = some n →
      ∀ t rest, Serves t n → t.batch = handle :: rest → CanPass t n := by
    intro handle hcall
    cases handle with
    | start m =>
      cases hcall
      exact canPass_of_start
    | resume m =>
      cases hcall
      exact canPass_of_resume
    | done m ok =>
      cases hcall
      exact canPass_of_done
    | background => cases hcall
    | stop => cases hcall
  rcases hopen.queued n hw with hsus | ⟨handle, hmem, hcall⟩
  · -- what the coroutine awaits can happen
    have hstep : step s (.wake n) = some ((s.setSuspended n false).push (.resume n)) :=
      if_pos ⟨hopen.running, hsus⟩
    refine CanPass.of_step rfl hstep (canPass_of_mem_ready canPass_of_resume
      ⟨hflag, open_of_step hstep hopen hflag, .inl ?_⟩ (by simp [State.push]))
    rw [stageOf_push, stageOf_setSuspended]
    exact hw
  · rcases List.mem_append.mp hmem with hready | hbatch
    · exact canPass_of_mem_ready (hcallback handle hcall) hserves hready
    · exact canPass_of_mem_batch (hcallback handle hcall) hserves hbatch

/-- A call that waits. While the flag is not set, its result can still come. Where the flag is set,
the call was on its way as a `close` set it. Once the loop has been left, it waits for ever. -/
theorem waiting_call (events : List Event) (s : State) (hrun : run step {} events = some s) (n : ℕ)
    (hw : s.stageOf n = some .waiting) :
    (s.flag = false → CanPass s n) ∧
    (s.flag = true → ∃ before closer after sent, events = before ++ .flag closer :: after ∧
      run step {} before = some sent ∧ sent.flag = false ∧
      sent.stageOf closer = some .guarded ∧ sent.Pending n) ∧
    (s.running = false → ∀ later s', run step s later = some s' →
      s'.stageOf n = some .waiting) :=
  ⟨fun hflag => can_pass hflag (open_of_run hrun hflag) hw,
    fun hflag => pending_at_flag hrun hflag (.inr hw),
    fun hleft _ _ hlater => waits_for_ever hleft hlater hw⟩

/-- A call submits its coroutine between the flag and the stop of a `close`. -/
def overtaken : List Event :=
  [.begin .call, .begin .close, .check 0, .check 1, .submit 1, .iterate, .handle none, .iterate,
    .handle (some true), .iterate, .handle none, .guard 1, .flag 1, .submit 0, .postStop 1,
    .iterate, .handle none, .handle none, .halt, .join 1]

/-- A call that waits on an open loop can still get its result. The overtaken one had passed its
check as the flag was set, and waits for ever. -/
theorem waiting_call_sample :
    (∃ s, run step {} [.begin .call, .check 0, .submit 0] = some s ∧ s.stageOf 0 = some .waiting ∧
      CanPass s 0) ∧
    ∃ s, run step {} overtaken = some s ∧ s.stageOf 1 = some (.ended .returned) ∧
      (∃ before closer after sent, overtaken = before ++ .flag closer :: after ∧
        run step {} before = some sent ∧ sent.flag = false ∧
        sent.stageOf closer = some .guarded ∧ sent.Pending 0) ∧
      ∀ later s', run step s later = some s' → s'.stageOf 0 = some .waiting := by
  constructor
  · have hrun : ∃ s, run step {} [.begin .call, .check 0, .submit 0] = some s ∧
        s.stageOf 0 = some .waiting ∧ s.flag = false := ⟨_, rfl, rfl, rfl⟩
    obtain ⟨s, hrun, hw, hflag⟩ := hrun
    exact ⟨s, hrun, hw, (waiting_call _ s hrun 0 hw).1 hflag⟩
  · have hend : (run step {} overtaken).any (fun s => decide (s.stageOf 0 = some .waiting ∧
        s.stageOf 1 = some (.ended .returned) ∧ s.running = false ∧ s.flag = true)) = true := by
      decide
    obtain ⟨s, hrun, hs⟩ := (Option.any_eq_true _ _).mp hend
    obtain ⟨hw, hclosed, hleft, hflag⟩ := of_decide_eq_true hs
    obtain ⟨-, hpending, hforever⟩ := waiting_call overtaken s hrun 0 hw
    exact ⟨s, hrun, hclosed, hpending hflag, hforever hleft⟩

/-! ## Closes apart from calls -/

/-- What call `n` is: a call or a close. -/
def State.workOf (s : State) (n : ℕ) : Option Work := (s.calls[n]?).map Call.work

/-- The call has come to its end. -/
def State.IsOver (s : State) (n : ℕ) : Prop := ∃ e, s.stageOf n = some (.ended e)

/-- The stage is an end. -/
def Stage.isOver : Stage → Bool
  | ended _ => true
  | _ => false

/-- A `close` begins when no call is unfinished, and a call when no `close` is. -/
def Apart (s : State) : Event → Prop
  | .begin .close => ∀ c ∈ s.calls, c.stage.isOver = true
  | .begin .call => ∀ c ∈ s.calls, c.work = .close → c.stage.isOver = true
  | _ => True

instance (s : State) : (e : Event) → Decidable (Apart s e)
  | .begin .close => inferInstanceAs (Decidable (∀ c ∈ s.calls, c.stage.isOver = true))
  | .begin .call =>
    inferInstanceAs (Decidable (∀ c ∈ s.calls, c.work = .close → c.stage.isOver = true))
  | .check _ => isTrue trivial
  | .submit _ => isTrue trivial
  | .iterate => isTrue trivial
  | .handle _ => isTrue trivial
  | .wake _ => isTrue trivial
  | .post => isTrue trivial
  | .halt => isTrue trivial
  | .guard _ => isTrue trivial
  | .flag _ => isTrue trivial
  | .postStop _ => isTrue trivial
  | .join _ => isTrue trivial

/-- An unfinished `close` is the only unfinished call. -/
def Solo (s : State) : Prop :=
  ∀ n m, s.workOf n = some .close → ¬s.IsOver n → m < s.calls.length → m ≠ n → s.IsOver m

/-- Whoever is behind `run`, and not over, is a `close`. -/
def Closing (s : State) : Prop :=
  ∀ n stage, s.stageOf n = some stage → stage.isPast = true → (∀ e, stage ≠ .ended e) →
    s.workOf n = some .close

/-- A change of calls that keeps what they are. -/
lemma works_modify {f : Call → Call} (hf : ∀ c, (f c).work = c.work) (calls : List Call) (n : ℕ) :
    (calls.modify n f).map Call.work = calls.map Call.work := by
  apply List.ext_getElem?
  intro m
  rw [List.getElem?_map, List.getElem?_map, List.getElem?_modify]
  cases calls[m]? with
  | none => rfl
  | some c =>
    simp only [Option.map_eq_map, Option.map_some]
    split
    · rw [hf]
    · rfl

lemma works_setStage (s : State) (n : ℕ) (stage : Stage) :
    (s.setStage n stage).calls.map Call.work = s.calls.map Call.work :=
  works_modify (f := fun c => { c with stage := stage }) (fun _ => rfl) _ _

lemma works_setSuspended (s : State) (n : ℕ) (b : Bool) :
    (s.setSuspended n b).calls.map Call.work = s.calls.map Call.work :=
  works_modify (f := fun c => { c with suspended := b }) (fun _ => rfl) _ _

lemma works_callback (s : State) (outcome : Option Bool) (h : Handle) :
    (s.callback outcome h).calls.map Call.work = s.calls.map Call.work := by
  cases h with
  | resume n =>
    cases outcome with
    | none => exact works_setSuspended s n true
    | some ok => rfl
  | done n ok =>
    refine works_modify (f := fun c => c.finish ok) (fun c => ?_) _ _
    unfold Call.finish
    split <;> rfl
  | _ => rfl

/-- Only a beginning adds a call. -/
lemma works_of_step {s s' : State} {e : Event} (hstep : step s e = some s')
    (he : e.isBegin = false) : s'.calls.map Call.work = s.calls.map Call.work := by
  cases steps_of_step hstep with
  | begin w => cases he
  | handled outcome h rest hrunning hbatch => exact works_callback _ _ _
  | iterated hrunning hbatch hstop => rfl
  | posted hclosed => rfl
  | halted hrunning hbatch hstop => rfl
  | submitted n hn hclosed => exact works_setStage s n .waiting
  | woken n hrunning hn => exact works_setSuspended s n false
  | flagged n hn => exact works_setStage { s with flag := true } n .flagged
  | stopped n hn hclosed => exact works_setStage s n .joining
  | joined n hn hrunning =>
    exact works_setStage { s with loopClosed := true, ready := [] } n (.ended .returned)
  | _ => exact works_setStage s _ _

lemma workOf_eq {s s' : State} (h : s'.calls.map Call.work = s.calls.map Call.work) (n : ℕ) :
    s'.workOf n = s.workOf n := by
  unfold State.workOf
  rw [← List.getElem?_map, ← List.getElem?_map, h]

/-- What is over stays over. -/
lemma over_of_step {s s' : State} {e : Event} (hstep : step s e = some s') {m : ℕ}
    (hm : s.IsOver m) : s'.IsOver m := by
  obtain ⟨ending, hm⟩ := hm
  refine ⟨ending, ?_⟩
  cases steps_of_step hstep with
  | begin w =>
    rw [stageOf_begin, if_neg ?_]
    · exact hm
    · rintro rfl
      simp [State.stageOf] at hm
  | iterated hrunning hbatch hstop => exact hm
  | handled outcome h rest hrunning hbatch =>
    rcases stage_callback { s with batch := rest } outcome h m with hsame | ⟨hw, -⟩
    · rw [hsame]
      exact hm
    · exact absurd (hm.symm.trans hw) (by simp)
  | woken n hrunning hn =>
    rw [stageOf_push, stageOf_setSuspended]
    exact hm
  | posted hclosed => exact hm
  | halted hrunning hbatch hstop => exact hm
  | submitted n hn hclosed => exact stageOf_setStage_kept hn (by simp) hm
  | flagged n hn => exact stageOf_setStage_kept (s := { s with flag := true }) hn (by simp) hm
  | stopped n hn hclosed => exact stageOf_setStage_kept hn (by simp) hm
  | joined n hn hrunning =>
    exact stageOf_setStage_kept (s := { s with loopClosed := true, ready := [] }) hn (by simp) hm
  | refused n hn hset => exact stageOf_setStage_kept hn (by simp) hm
  | checked n hn hset => exact stageOf_setStage_kept hn (by simp) hm
  | unsubmitted n hn hclosed => exact stageOf_setStage_kept hn (by simp) hm
  | left n hn hset => exact stageOf_setStage_kept hn (by simp) hm
  | guarded n hn hset => exact stageOf_setStage_kept hn (by simp) hm
  | unposted n hn hclosed => exact stageOf_setStage_kept hn (by simp) hm
  | timedOut n hn hrunning => exact stageOf_setStage_kept hn (by simp) hm

lemma workOf_begin (s : State) (w : Work) (m : ℕ) :
    State.workOf { s with calls := s.calls ++ [{ work := w, stage := s.begun w }] } m =
      if m = s.calls.length then some w else s.workOf m := by
  unfold State.workOf
  dsimp only
  rcases Nat.lt_trichotomy m s.calls.length with h | h | h
  · rw [List.getElem?_append_left h, if_neg (by omega)]
  · subst h
    simp
  · rw [if_neg (by omega), List.getElem?_eq_none (by simp; omega),
      List.getElem?_eq_none (by omega)]

lemma workOf_setStage (s : State) (n m : ℕ) (stage : Stage) :
    (s.setStage n stage).workOf m = s.workOf m := workOf_eq (works_setStage s n stage) m

/-- The write of a stage that is not between `run` and the end, or is a `close`'s. -/
lemma Closing.setStage {s : State} (h : Closing s) (n : ℕ) {t : Stage}
    (hstage : t.isPast = false ∨ (∃ e, t = .ended e) ∨ s.workOf n = some .close) :
    Closing (s.setStage n t) := by
  intro m stage' hm hpast hover
  rw [workOf_setStage]
  by_cases hn : n = m
  · subst hn
    rw [stageOf_setStage_self, Option.map_eq_some_iff] at hm
    obtain ⟨-, -, rfl⟩ := hm
    rcases hstage with hp | ⟨e, he⟩ | hw
    · exact absurd (hp.symm.trans hpast) (by simp)
    · exact absurd he (hover e)
    · exact hw
  · rw [stageOf_setStage_ne _ _ _ _ hn] at hm
    exact h m stage' hm hpast hover

/-- Behind `run` it goes on for a `close` only. -/
lemma ran_callback {s : State} {outcome : Option Bool} {h : Handle} {m : ℕ}
    (hran : (s.callback outcome h).stageOf m = some .ran) (hw : s.stageOf m = some .waiting) :
    s.workOf m = some .close := by
  cases h with
  | done n ok =>
    unfold State.stageOf State.callback at hran
    unfold State.stageOf at hw
    unfold State.workOf
    dsimp only at hran
    rw [List.getElem?_modify] at hran
    cases hc : s.calls[m]? with
    | none => simp [hc] at hw
    | some c =>
      have hstage : c.stage = .waiting := by simpa [hc] using hw
      by_cases hn : n = m
      · simp only [hc, hn, if_true, Option.map_eq_map, Option.map_some, Option.some.injEq] at hran
        unfold Call.finish at hran
        rw [if_pos hstage] at hran
        cases ok with
        | false => cases hran
        | true =>
          cases hwork : c.work with
          | call =>
            rw [hwork] at hran
            cases hran
          | close => exact congrArg some hwork
      · simp [hc, hn, hstage] at hran
  | resume n =>
    have hsame : (s.callback outcome (.resume n)).stageOf m = s.stageOf m := by
      cases outcome with
      | none => exact stageOf_setSuspended s n m true
      | some ok => rfl
    exact absurd ((hw.symm.trans hsame.symm).trans hran) (by simp)
  | start n => exact absurd (hw.symm.trans hran) (by simp)
  | background => exact absurd (hw.symm.trans hran) (by simp)
  | stop => exact absurd (hw.symm.trans hran) (by simp)

/-- What goes on past its wait is still a `close`. -/
lemma closing_of_step {s s' : State} {e : Event} (hstep : step s e = some s') (h : Closing s) :
    Closing s' := by
  have hnext : ∀ {n : ℕ} {stage : Stage}, s.stageOf n = some stage → stage.isPast = true →
      (∀ e, stage ≠ .ended e) → s.workOf n = some .close := fun hn => h _ _ hn
  cases steps_of_step hstep with
  | begin w =>
    intro m stage hm hpast hover
    rw [stageOf_begin] at hm
    rw [workOf_begin]
    split at hm
    · rcases begun_cases s w with hb | hb
      · rw [hb, Option.some.injEq] at hm
        subst hm
        cases hpast
      · rw [hb, Option.some.injEq] at hm
        exact absurd hm.symm (hover _)
    · next hne =>
      rw [if_neg hne]
      exact h m stage hm hpast hover
  | refused n hn hset => exact h.setStage n (.inr (.inl ⟨_, rfl⟩))
  | checked n hn hset => exact h.setStage n (.inl rfl)
  | unsubmitted n hn hclosed => exact h.setStage n (.inr (.inl ⟨_, rfl⟩))
  | submitted n hn hclosed => exact h.setStage n (t := .waiting) (.inl rfl)
  | iterated hrunning hbatch hstop => exact h
  | handled outcome handle rest hrunning hbatch =>
    intro m stage hm hpast hover
    rw [workOf_eq (works_callback _ _ _)]
    rcases stage_callback { s with batch := rest } outcome handle m with
      hsame | ⟨hw, hran | ⟨e, he⟩⟩
    · exact h m stage (hsame.symm.trans hm) hpast hover
    · exact ran_callback hran hw
    · exact absurd (Option.some.inj (hm.symm.trans he)) (hover e)
  | woken n hrunning hn =>
    intro m stage hm hpast hover
    rw [stageOf_push, stageOf_setSuspended] at hm
    exact (workOf_eq (works_setSuspended s n false) m).trans (h m stage hm hpast hover)
  | posted hclosed => exact h
  | halted hrunning hbatch hstop => exact h
  | left n hn hset => exact h.setStage n (.inr (.inl ⟨_, rfl⟩))
  | guarded n hn hset => exact h.setStage n (.inr (.inr (hnext hn rfl (by simp))))
  | flagged n hn =>
    exact Closing.setStage (s := { s with flag := true }) h n
      (.inr (.inr (hnext hn rfl (by simp))))
  | unposted n hn hclosed => exact h.setStage n (.inr (.inl ⟨_, rfl⟩))
  | stopped n hn hclosed =>
    exact h.setStage n (t := .joining) (.inr (.inr (hnext hn rfl (by simp))))
  | timedOut n hn hrunning => exact h.setStage n (.inr (.inl ⟨_, rfl⟩))
  | joined n hn hrunning =>
    exact Closing.setStage (s := { s with loopClosed := true, ready := [] }) h n
      (.inr (.inl ⟨_, rfl⟩))

lemma isOver_of_getElem? {s : State} {n : ℕ} {c : Call} (hc : s.calls[n]? = some c)
    (hover : c.stage.isOver = true) : s.IsOver n := by
  obtain ⟨e, he⟩ : ∃ e, c.stage = .ended e := by
    cases hstage : c.stage with
    | ended e => exact ⟨e, rfl⟩
    | _ => simp [hstage, Stage.isOver] at hover
  exact ⟨e, by unfold State.stageOf; rw [hc, ← he]; rfl⟩

/-- What begins apart stays apart. -/
lemma solo_of_step {s s' : State} {e : Event} (hstep : step s e = some s') (hapart : Apart s e)
    (h : Solo s) : Solo s' := by
  intro n m hn hover hm hne
  have hstill : ¬s.IsOver n := fun ho => hover (over_of_step hstep ho)
  cases hbegin : e.isBegin with
  | false =>
    have hworks := works_of_step hstep hbegin
    have hlength : s'.calls.length = s.calls.length := by
      have := congrArg List.length hworks
      simpa using this
    rw [workOf_eq hworks] at hn
    exact over_of_step hstep (h n m hn hstill (hlength ▸ hm) hne)
  | true =>
    cases steps_of_step hstep with
    | begin w =>
      rw [workOf_begin] at hn
      simp only [List.length_append, List.length_singleton] at hm
      split at hn
      · next hlast =>
        rw [Option.some.injEq] at hn
        subst hn
        have hlt : m < s.calls.length := by omega
        exact over_of_step hstep (isOver_of_getElem? (List.getElem?_eq_getElem hlt)
          (hapart _ (List.getElem_mem hlt)))
      · next hold =>
        obtain ⟨c, hc, hwork⟩ := Option.map_eq_some_iff.mp hn
        have hmem := List.mem_of_getElem? hc
        cases w with
        | call => exact absurd (isOver_of_getElem? hc (hapart c hmem hwork)) hstill
        | close => exact absurd (isOver_of_getElem? hc (hapart c hmem)) hstill
    | _ => cases hbegin

/-! ### Every call ends -/

/-- The call can come to its end, and nobody has to call anything for that. -/
def CanEnd (s : State) (n : ℕ) : Prop :=
  ∃ later s', run step s later = some s' ∧ (∀ e ∈ later, e.isBegin = false) ∧ s'.IsOver n

/-- A call that can end after a step could end before it. -/
lemma CanEnd.of_step {s t : State} {e : Event} {n : ℕ} (he : e.isBegin = false)
    (hstep : step s e = some t) (h : CanEnd t n) : CanEnd s n := by
  obtain ⟨later, s', hrun, hbegin, hover⟩ := h
  exact ⟨e :: later, s', run_cons.mpr ⟨t, hstep, hrun⟩,
    List.forall_mem_cons.mpr ⟨he, hbegin⟩, hover⟩

lemma CanEnd.of_over {s : State} {n : ℕ} (h : s.IsOver n) : CanEnd s n :=
  ⟨[], s, rfl, by simp, h⟩

lemma isOver_setStage {s : State} {n : ℕ} (hn : (s.stageOf n).isSome) (e : Ending) :
    (s.setStage n (.ended e)).IsOver n := by
  obtain ⟨stage, hstage⟩ := Option.isSome_iff_exists.mp hn
  exact ⟨e, by rw [stageOf_setStage_self, hstage]; rfl⟩

lemma stageOf_setStage_some {s : State} {n : ℕ} {stage stage' : Stage}
    (hn : s.stageOf n = some stage') : (s.setStage n stage).stageOf n = some stage := by
  rw [stageOf_setStage_self, hn]
  rfl

/-- The join comes back, at the latest after its timeout. -/
lemma canEnd_of_joining {s : State} {n : ℕ} (hn : s.stageOf n = some .joining) : CanEnd s n := by
  rcases Bool.eq_false_or_eq_true s.running with hrunning | hrunning
  · refine CanEnd.of_step (e := .join n) (t := s.setStage n (.ended .returned)) rfl ?_
      (.of_over (isOver_setStage (by rw [hn]; rfl) _))
    simp only [step, hn, hrunning, if_true]
  · refine CanEnd.of_step (e := .join n)
      (t := State.setStage { s with loopClosed := true, ready := [] } n (.ended .returned)) rfl ?_
      (.of_over (isOver_setStage (s := { s with loopClosed := true, ready := [] })
        (show (s.stageOf n).isSome by rw [hn]; rfl) _))
    simp only [step, hn, hrunning, if_true, Bool.false_eq_true, if_false]

/-- Past the flag, `close` posts `stop` and joins, or finds the loop closed. -/
lemma canEnd_of_flagged {s : State} {n : ℕ} (hn : s.stageOf n = some .flagged) : CanEnd s n := by
  rcases Bool.eq_false_or_eq_true s.loopClosed with hclosed | hclosed
  · refine CanEnd.of_step (e := .postStop n) (t := s.setStage n (.ended .loopClosed)) rfl ?_
      (.of_over (isOver_setStage (by rw [hn]; rfl) _))
    simp only [step, hn, hclosed, if_true]
  · refine CanEnd.of_step (e := .postStop n) (t := (s.setStage n .joining).push .stop) rfl ?_
      (canEnd_of_joining ((stageOf_push _ _ _).trans (stageOf_setStage_some hn)))
    simp only [step, hn, hclosed, if_true, Bool.false_eq_true, if_false]

/-- Past its guard, `close` sets the flag. -/
lemma canEnd_of_guarded {s : State} {n : ℕ} (hn : s.stageOf n = some .guarded) : CanEnd s n := by
  refine CanEnd.of_step (e := .flag n) (t := State.setStage { s with flag := true } n .flagged) rfl
    ?_ (canEnd_of_flagged (stageOf_setStage_some (s := { s with flag := true }) hn))
  simp only [step, hn, if_true]

/-- `close` whose coroutine has run comes to its guard. -/
lemma canEnd_of_ran {s : State} {n : ℕ} (hn : s.stageOf n = some .ran) : CanEnd s n := by
  rcases Bool.eq_false_or_eq_true s.flag with hflag | hflag
  · refine CanEnd.of_step (e := .guard n) (t := s.setStage n (.ended .returned)) rfl ?_
      (.of_over (isOver_setStage (by rw [hn]; rfl) _))
    simp only [step, hn, hflag, if_true]
  · refine CanEnd.of_step (e := .guard n) (t := s.setStage n .guarded) rfl ?_
      (canEnd_of_guarded (stageOf_setStage_some hn))
    simp only [step, hn, hflag, if_true, Bool.false_eq_true, if_false]

/-- Past its wait, a call has ended or is a `close` on its way. -/
lemma canEnd_of_past {s : State} {n : ℕ} {stage : Stage} (hn : s.stageOf n = some stage)
    (hpast : stage.isPast = true) : CanEnd s n := by
  cases stage with
  | ran => exact canEnd_of_ran hn
  | guarded => exact canEnd_of_guarded hn
  | flagged => exact canEnd_of_flagged hn
  | joining => exact canEnd_of_joining hn
  | ended e => exact .of_over ⟨e, hn⟩
  | _ => cases hpast

/-- A call that can pass its wait can end. -/
lemma canEnd_of_canPass {s : State} {n : ℕ} (h : CanPass s n) : CanEnd s n := by
  obtain ⟨later, t, stage, hrun, hloops, hstage, hpast⟩ := h
  obtain ⟨later', t', hrun', hbegin, hover⟩ := canEnd_of_past hstage hpast
  refine ⟨later ++ later', t', by rw [run_append, hrun, Option.bind_some, hrun'], ?_, hover⟩
  intro e he
  rcases List.mem_append.mp he with he | he
  · have hloop := hloops e he
    cases e <;> first | rfl | cases hloop
  · exact hbegin e he

/-- In an open router a call ends that has not yet come to its wait. -/
lemma canEnd_of_checked {s : State} {n : ℕ} (hflag : s.flag = false) (hopen : Open s)
    (hn : s.stageOf n = some .checked) : CanEnd s n := by
  have hstep : step s (.submit n) = some ((s.setStage n .waiting).push (.start n)) := by
    simp only [step, hn, hopen.loop, if_true, Bool.false_eq_true, if_false]
  refine CanEnd.of_step rfl hstep (canEnd_of_canPass (can_pass hflag
    (open_of_step hstep hopen hflag) ?_))
  exact (stageOf_push _ _ _).trans (stageOf_setStage_some hn)

/-- A call at its check is refused, or goes into a loop that serves it. -/
lemma canEnd_of_created {s : State} {n : ℕ} (hopen : s.flag = false → Open s)
    (hn : s.stageOf n = some .created) : CanEnd s n := by
  rcases Bool.eq_false_or_eq_true s.flag with hflag | hflag
  · refine CanEnd.of_step (e := .check n) (t := s.setStage n (.ended .routerClosed)) rfl ?_
      (.of_over (isOver_setStage (by rw [hn]; rfl) _))
    simp only [step, hn, hflag, if_true]
  · have hstep : step s (.check n) = some (s.setStage n .checked) := by
      simp only [step, hn, hflag, if_true, Bool.false_eq_true, if_false]
    exact CanEnd.of_step rfl hstep (canEnd_of_checked hflag (open_of_step hstep (hopen hflag) hflag)
      (stageOf_setStage_some hn))

/-- Where closes are apart from calls, no call and no `close` ever hangs: each can come to its end
from wherever it is, without a further call. -/
theorem apart_calls_end (events : List Event) (hapart : Meets step Apart {} events) (s : State)
    (hrun : run step {} events = some s) (n : ℕ) (hn : n < s.calls.length) : CanEnd s n := by
  have hopen : s.flag = false → Open s := open_of_run hrun
  obtain ⟨stage, hstage⟩ : ∃ stage, s.stageOf n = some stage :=
    ⟨_, by unfold State.stageOf; rw [List.getElem?_eq_getElem hn]; rfl⟩
  -- nobody is on its way under a set flag: the `close` that set it was alone
  have hfree : s.Pending n → s.flag = false := by
    intro hpending
    by_contra hset
    obtain ⟨before, closer, after, sent, hevents, hsent, -, hguarded, hp⟩ :=
      pending_at_flag hrun (by simpa using hset) hpending
    have hstart : Meets step Apart {} before := by
      rw [hevents] at hapart
      exact hapart.of_append
    have hkeeps : ∀ t e t', Solo t ∧ Closing t → Apart t e → step t e = some t' →
        Solo t' ∧ Closing t' := fun _ _ _ ht ha hstep =>
      ⟨solo_of_step hstep ha ht.1, closing_of_step hstep ht.2⟩
    have hinv : Solo sent ∧ Closing sent := by
      refine invariant_of_meets hkeeps ⟨?_, ?_⟩ hstart hsent
      · intro a b ha
        simp [State.workOf] at ha
      · intro a stage' ha
        simp [State.stageOf] at ha
    have hne : n ≠ closer := by
      rintro rfl
      rcases hp with h | h <;> exact absurd (hguarded.symm.trans h) (by simp)
    have hlt : n < sent.calls.length := by
      by_contra hge
      unfold State.Pending State.stageOf at hp
      rw [List.getElem?_eq_none (by omega)] at hp
      simp at hp
    obtain ⟨e, he⟩ := hinv.1 closer n (hinv.2 closer _ hguarded rfl (by simp))
      (fun ⟨e, he⟩ => absurd (hguarded.symm.trans he) (by simp)) hlt hne
    rcases hp with h | h <;> exact absurd (he.symm.trans h) (by simp)
  cases stage with
  | created => exact canEnd_of_created hopen hstage
  | checked =>
    have hflag := hfree (.inl hstage)
    exact canEnd_of_checked hflag (hopen hflag) hstage
  | waiting =>
    have hflag := hfree (.inr hstage)
    exact canEnd_of_canPass (can_pass hflag (hopen hflag) hstage)
  | ran => exact canEnd_of_past hstage rfl
  | guarded => exact canEnd_of_past hstage rfl
  | flagged => exact canEnd_of_past hstage rfl
  | joining => exact canEnd_of_past hstage rfl
  | ended e => exact canEnd_of_past hstage rfl

/-- Two calls at a time, and a `close` that is in its join. -/
def closing : List Event :=
  [.begin .call, .begin .call, .check 0, .check 1, .submit 1, .submit 0, .iterate, .handle none,
    .handle none, .iterate, .handle none, .handle (some true), .wake 1, .iterate, .handle none,
    .handle (some false), .iterate, .handle none, .begin .close, .check 2, .submit 2, .iterate,
    .handle none, .iterate, .handle (some true), .iterate, .handle none, .guard 2, .flag 2,
    .postStop 2]

/-- The three calls, of which the `close` can still end. -/
theorem apart_calls_end_sample :
    ∃ s, run step {} closing = some s ∧ s.stageOf 0 = some (.ended .returned) ∧
      s.stageOf 1 = some (.ended .raised) ∧ s.stageOf 2 = some .joining ∧ CanEnd s 2 := by
  have hend : (run step {} closing).any (fun s => decide (s.stageOf 0 = some (.ended .returned) ∧
      s.stageOf 1 = some (.ended .raised) ∧ s.stageOf 2 = some .joining ∧
      2 < s.calls.length)) = true := by decide
  obtain ⟨s, hrun, hs⟩ := (Option.any_eq_true _ _).mp hend
  obtain ⟨hfirst, hsecond, hjoining, hlt⟩ := of_decide_eq_true hs
  have hapart : Meets step Apart {} closing := by decide +kernel
  exact ⟨s, hrun, hfirst, hsecond, hjoining, apart_calls_end closing hapart s hrun 2 hlt⟩

end LoopThread
end ExchangeRouter
