import ExchangeRouter.Backoff
import ExchangeRouter.Lib.Dict
import ExchangeRouter.Lib.Transition
import Mathlib.Data.List.Count
import Mathlib.Tactic.Linarith

/-!
# What slips into a backoff window

A call that is past its check does not look at the deadline again before it sends. So when the
deadline is moved, what may still be sent before it are the requests of the calls that are past
their check by then: each of them is counted by `stale` until it sends and by `sentWithin` from
then on, and no other call joins them, since one that checks inside the window sleeps past it.
-/

namespace ExchangeRouter
namespace Backoff

open MakeRequest Transition

/-! ## What each step does -/

section

variable {a : Adapter} {s s' : State} {i : ℕ} {jitter : ℚ}

/-- What `wake` asks for: a call whose sleep is over. -/
lemma step_wake (h : step a s (.wake i) = some s') :
    ∃ c wake, s.calls[i]? = some c ∧ c.phase = .asleep wake ∧ wake ≤ (s.now : WithTop ℚ) ∧
      s' = s.issue a i c := by
  cases hc : s.calls[i]? with
  | none => simp [step, hc] at h
  | some c =>
    simp only [step, hc] at h
    split at h
    · next wake hphase =>
      obtain ⟨hwoken, hs⟩ := Option.ite_none_right_eq_some.mp h
      exact ⟨c, wake, rfl, hphase, hwoken, (Option.some.inj hs).symm⟩
    · cases h

/-- What `slot` asks for: a call at the gate. -/
lemma step_slot (h : step a s (.slot i jitter) = some s') :
    ∃ c g, s.calls[i]? = some c ∧ a.gate = some g ∧ c.phase = .atSlot ∧
      s' = { s with slotsTaken := s.slotsTaken + 1 }.throughBucket g i c jitter := by
  cases hc : s.calls[i]? with
  | none => simp [step, hc] at h
  | some c =>
    cases hgate : a.gate with
    | none => simp [step, hc, hgate] at h
    | some g =>
      simp only [step, hc, hgate] at h
      obtain ⟨⟨hphase, -⟩, hs⟩ := Option.ite_none_right_eq_some.mp h
      exact ⟨c, g, rfl, rfl, hphase, (Option.some.inj hs).symm⟩

/-- What `bucketWake` asks for: a call whose sleep in the bucket is over. -/
lemma step_bucketWake (h : step a s (.bucketWake i jitter) = some s') :
    ∃ c g wake, s.calls[i]? = some c ∧ a.gate = some g ∧ c.phase = .inBucket wake ∧
      wake ≤ s.now ∧ s' = s.throughBucket g i c jitter := by
  cases hc : s.calls[i]? with
  | none => simp [step, hc] at h
  | some c =>
    cases hgate : a.gate with
    | none => simp [step, hc, hgate] at h
    | some g =>
      simp only [step, hc, hgate] at h
      split at h
      · next wake hphase =>
        obtain ⟨⟨hwoken, -⟩, hs⟩ := Option.ite_none_right_eq_some.mp h
        exact ⟨c, g, wake, rfl, rfl, hphase, hwoken, (Option.some.inj hs).symm⟩
      · cases h

/-- What `reply` asks for: a call whose request is in flight. -/
lemma step_reply {r : Reply} (h : step a s (.reply i r jitter) = some s') :
    ∃ c, s.calls[i]? = some c ∧ c.phase = .inFlight ∧ isJitter jitter = true ∧
      s' = s.reply a i c r jitter := by
  cases hc : s.calls[i]? with
  | none => simp [step, hc] at h
  | some c =>
    simp only [step, hc] at h
    obtain ⟨⟨hphase, hjitter⟩, hs⟩ := Option.ite_none_right_eq_some.mp h
    exact ⟨c, rfl, hphase, hjitter, (Option.some.inj hs).symm⟩

lemma step_resume (h : step a s (.resume i jitter) = some s') :
    ∃ c, s.calls[i]? = some c ∧ isJitter jitter = true ∧ s' = s.head a i c jitter := by
  cases hc : s.calls[i]? with
  | none => simp [step, hc] at h
  | some c =>
    simp only [step, hc] at h
    split at h
    · obtain ⟨⟨-, hjitter⟩, hs⟩ := Option.ite_none_right_eq_some.mp h
      exact ⟨c, rfl, hjitter, (Option.some.inj hs).symm⟩
    · cases h

end

/-! ## Counting -/

section

variable {s : State} {i : ℕ} {c : Call}

/-- A call that moves on is counted as before, or no more. -/
lemma stale_setPhase_le (hc : s.calls[i]? = some c) {c' : Call} {phase : Phase} {d : WithTop ℚ}
    (h : phase.isStale d = true → c.phase.isStale d = true) :
    (s.setPhase i c' phase).stale d ≤ s.stale d := by
  obtain ⟨hlt, hget⟩ := List.getElem?_eq_some_iff.mp hc
  have hpos : c.phase.isStale d = true → 0 < s.stale d := by
    intro hstale
    exact List.countP_pos_iff.mpr ⟨c, hget ▸ List.getElem_mem hlt, hstale⟩
  unfold State.stale at hpos ⊢
  show (s.calls.set i { c' with phase := phase }).countP _ ≤ _
  rw [List.countP_set hlt, hget]
  by_cases hold : c.phase.isStale d = true
  · have := hpos hold
    rw [if_pos hold]
    split <;> omega
  · rw [if_neg hold, if_neg fun hnew => hold (h hnew)]
    omega

/-- A call that sends is counted no more. -/
lemma stale_send (hc : s.calls[i]? = some c) {d : WithTop ℚ} (h : c.phase.isStale d = true)
    (c' : Call) : (s.send i c').stale d + 1 = s.stale d := by
  obtain ⟨hlt, hget⟩ := List.getElem?_eq_some_iff.mp hc
  have hpos : 0 < s.stale d :=
    List.countP_pos_iff.mpr ⟨c, hget ▸ List.getElem_mem hlt, h⟩
  unfold State.stale at hpos ⊢
  show (s.calls.set i { c' with phase := .inFlight }).countP _ + 1 = _
  rw [List.countP_set hlt, hget, if_pos h, if_neg (by simp [Phase.isStale]), Nat.add_zero]
  exact Nat.sub_add_cancel hpos

/-- A request is counted in the windows that are open as it is sent. -/
lemma sentWithin_send (c' : Call) (window : ℚ × WithTop ℚ) :
    (s.send i c').sentWithin window = s.sentWithin window +
      if window.1 < s.now ∧ (s.now : WithTop ℚ) < window.2 then 1 else 0 := by
  show (s.sends ++ [s.now]).countP _ = _
  rw [List.countP_append, List.countP_singleton, State.sentWithin]
  simp only [decide_eq_true_eq]

end

/-! ## What a run keeps -/

/-- No request and no window is of a time to come, no window ends after the deadline, and to a
window that is open the requests sent in it and the calls that may still send in it are one at
most. -/
structure Kept (s : State) : Prop where
  sent : ∀ t ∈ s.sends, t ≤ s.now
  windows : ∀ window ∈ s.raises, window.1 ≤ s.now ∧ window.2 ≤ s.deadline
  slipped : ∀ window ∈ s.raises, s.sentWithin window ≤ 1
  pending : ∀ window ∈ s.raises, (s.now : WithTop ℚ) < window.2 →
    s.sentWithin window + s.stale window.2 ≤ 1

/-- A call moves on, and not to where it may send in an open window without a check. -/
lemma Kept.setPhase {s : State} (h : Kept s) {i : ℕ} {c : Call} (hc : s.calls[i]? = some c)
    (c' : Call) {phase : Phase}
    (hstale : ∀ d, (s.now : WithTop ℚ) < d → d ≤ s.deadline → phase.isStale d = true →
      c.phase.isStale d = true) : Kept (s.setPhase i c' phase) := by
  refine ⟨h.sent, h.windows, h.slipped, ?_⟩
  intro window hwindow hopen
  have hpending := h.pending window hwindow hopen
  have hle : (s.setPhase i c' phase).stale window.2 ≤ s.stale window.2 :=
    stale_setPhase_le hc (hstale window.2 hopen (h.windows window hwindow).2)
  show s.sentWithin window + _ ≤ 1
  omega

/-- A call sends, one that was counted in the open windows. -/
lemma Kept.send {s : State} (h : Kept s) {i : ℕ} {c : Call} (hc : s.calls[i]? = some c)
    (c' : Call) (hstale : ∀ d, (s.now : WithTop ℚ) < d → d ≤ s.deadline →
      c.phase.isStale d = true) : Kept (s.send i c') := by
  have hpending : ∀ window ∈ s.raises, (s.now : WithTop ℚ) < window.2 →
      (s.send i c').sentWithin window + (s.send i c').stale window.2 ≤ 1 := by
    intro window hwindow hopen
    have hold := h.pending window hwindow hopen
    have hone := stale_send hc (hstale window.2 hopen (h.windows window hwindow).2) c'
    rw [sentWithin_send]
    split <;> omega
  refine ⟨?_, h.windows, ?_, hpending⟩
  · intro t ht
    rcases List.mem_append.mp ht with hold | hnew
    · exact h.sent t hold
    · rw [List.mem_singleton.mp hnew]
      exact le_rfl
  · intro window hwindow
    by_cases hopen : (s.now : WithTop ℚ) < window.2
    · have := hpending window hwindow hopen
      omega
    · -- a window that is over gets no more requests
      rw [sentWithin_send, if_neg fun hin => hopen hin.2]
      exact h.slipped window hwindow

/-- A call that was counted in the open windows goes on to its request. -/
lemma Kept.issue {a : Adapter} {s : State} (h : Kept s) {i : ℕ} {c : Call}
    (hc : s.calls[i]? = some c) (c' : Call)
    (hstale : ∀ d, (s.now : WithTop ℚ) < d → d ≤ s.deadline → c.phase.isStale d = true) :
    Kept (s.issue a i c') := by
  unfold State.issue
  split
  · exact h.send hc c' hstale
  · exact h.setPhase hc c' fun d hnow hd _ => hstale d hnow hd

/-- A call that checks passes when no window is open, and else sleeps past the deadline. -/
lemma Kept.head {a : Adapter} {s : State} (h : Kept s) {i : ℕ} {c : Call}
    (hc : s.calls[i]? = some c) (c' : Call) {jitter : ℚ} (hjitter : isJitter jitter = true) :
    Kept (s.head a i c' jitter) := by
  have hpos : (0 : ℚ) < jitter := by
    have := (of_decide_eq_true hjitter).1
    linarith
  unfold State.head
  split
  · exact h.setPhase hc c' fun d _ _ hstale => by cases hstale
  · split
    · exact h.setPhase hc c' fun d _ _ hstale => by cases hstale
    · split
      · apply h.setPhase hc c'
        intro d _ hd hstale
        have hlt : s.deadline + (jitter : WithTop ℚ) < d := of_decide_eq_true hstale
        have hle : s.deadline ≤ s.deadline + (jitter : WithTop ℚ) :=
          le_add_of_nonneg_right (by exact_mod_cast hpos.le)
        exact absurd (hle.trans_lt hlt) (not_lt.mpr hd)
      · next hpassed =>
        apply h.issue hc c'
        intro d hnow hd
        exact absurd (hnow.trans_le hd) hpassed

/-- A call that was counted in the open windows sends, or sleeps in the bucket. -/
lemma Kept.throughBucket {s : State} (h : Kept s) {i : ℕ} {c : Call} (g : Gate)
    (hc : s.calls[i]? = some c) (jitter : ℚ)
    (hstale : ∀ d, (s.now : WithTop ℚ) < d → c.phase.isStale d = true) :
    Kept (s.throughBucket g i c jitter) := by
  have hkept : ∀ timestamps, Kept { s with timestamps := timestamps } :=
    fun _ => ⟨h.sent, h.windows, h.slipped, h.pending⟩
  unfold State.throughBucket
  dsimp only
  split
  · apply Kept.send (hkept _)
    · exact hc
    · exact fun d hnow _ => hstale d hnow
  · apply Kept.setPhase (hkept _)
    · exact hc
    · exact fun d hnow _ _ => hstale d hnow

/-- The deadline is moved, with one call at most that is past its check. -/
lemma Kept.written {a : Adapter} {s : State} (h : Kept s) {c : Call} {r : Reply}
    (hfree : s.deadline < s.deadlineAfter a c r → (s.now : WithTop ℚ) < s.deadlineAfter a c r →
      s.stale (s.deadlineAfter a c r) ≤ 1) : Kept (s.written a c r) := by
  have hle : s.deadline ≤ s.deadlineAfter a c r := a.never_earlier ..
  -- all requests so far were sent by the time of the move
  have hnone : s.sentWithin (s.now, s.deadlineAfter a c r) = 0 := by
    apply List.countP_eq_zero.mpr
    intro t ht hin
    have := h.sent t ht
    have := (of_decide_eq_true hin).1
    linarith
  have hcases : ∀ window ∈ (s.written a c r).raises, window ∈ s.raises ∨
      (s.deadline < s.deadlineAfter a c r ∧ window = (s.now, s.deadlineAfter a c r)) := by
    intro window hwindow
    simp only [State.written] at hwindow
    split at hwindow
    · next hraised =>
      exact (List.mem_append.mp hwindow).imp_right fun hnew =>
        ⟨hraised, List.mem_singleton.mp hnew⟩
    · exact Or.inl hwindow
  refine ⟨h.sent, ?_, ?_, ?_⟩
  · intro window hwindow
    rcases hcases window hwindow with hold | ⟨-, rfl⟩
    · have hwindow := h.windows window hold
      exact ⟨hwindow.1, hwindow.2.trans hle⟩
    · exact ⟨le_rfl, le_rfl⟩
  · intro window hwindow
    rcases hcases window hwindow with hold | ⟨-, rfl⟩
    · exact h.slipped window hold
    · show s.sentWithin _ ≤ 1
      omega
  · intro window hwindow hopen
    rcases hcases window hwindow with hold | ⟨hraised, rfl⟩
    · exact h.pending window hold hopen
    · have hone := hfree hraised hopen
      show s.sentWithin (s.now, s.deadlineAfter a c r) + s.stale (s.deadlineAfter a c r) ≤ 1
      omega

/-- What a step that is not crowded keeps. -/
lemma Kept.step {a : Adapter} {s s' : State} {e : Event} (h : Kept s)
    (hnot : s.crowded a e = false) (hstep : Backoff.step a s e = some s') : Kept s' := by
  cases e with
  | tick t =>
    simp only [Backoff.step, Option.ite_none_right_eq_some, Option.some.injEq] at hstep
    obtain ⟨ht, rfl⟩ := hstep
    have hlt : ∀ d : WithTop ℚ, (t : WithTop ℚ) < d → (s.now : WithTop ℚ) < d := by
      intro d hd
      exact lt_of_le_of_lt (by exact_mod_cast ht) hd
    refine ⟨fun u hu => (h.sent u hu).trans ht, ?_, h.slipped, ?_⟩
    · exact fun window hwindow =>
        ⟨(h.windows window hwindow).1.trans ht, (h.windows window hwindow).2⟩
    · exact fun window hwindow hopen => h.pending window hwindow (hlt _ hopen)
  | start base endpoint jitter =>
    simp only [Backoff.step, Option.ite_none_right_eq_some, Option.some.injEq] at hstep
    obtain ⟨hjitter, rfl⟩ := hstep
    have hadded : Kept { s with calls := s.calls ++
        [{ base := base, endpoint := endpoint, retries := 3, phase := .ended }] } := by
      refine ⟨h.sent, h.windows, h.slipped, ?_⟩
      intro window hwindow hopen
      have hpending := h.pending window hwindow hopen
      show s.sentWithin window + (s.calls ++ [_]).countP _ ≤ 1
      rw [List.countP_append, List.countP_singleton]
      exact hpending
    exact hadded.head (List.getElem?_concat_length ..) _ hjitter
  | wake i =>
    obtain ⟨c, wake, hc, hphase, hwoken, rfl⟩ := step_wake hstep
    apply h.issue hc c
    intro d hnow _
    rw [hphase]
    exact decide_eq_true (hwoken.trans_lt hnow)
  | slot i jitter =>
    obtain ⟨c, g, hc, -, hphase, rfl⟩ := step_slot hstep
    have htaken : Kept { s with slotsTaken := s.slotsTaken + 1 } :=
      ⟨h.sent, h.windows, h.slipped, h.pending⟩
    apply htaken.throughBucket g hc
    intro d _
    rw [hphase]
    rfl
  | bucketWake i jitter =>
    obtain ⟨c, g, wake, hc, -, hphase, hwoken, rfl⟩ := step_bucketWake hstep
    apply h.throughBucket g hc
    intro d hnow
    have hle : (wake : WithTop ℚ) ≤ s.now := by exact_mod_cast hwoken
    rw [hphase]
    exact decide_eq_true (hle.trans_lt hnow)
  | reply i r jitter =>
    obtain ⟨c, hc, -, hjitter, rfl⟩ := step_reply hstep
    have hwritten : Kept (s.written a c r) := by
      apply h.written
      intro hraised hopen
      by_contra hcrowd
      simp [State.crowded, hc, hraised, hopen, not_le.mp hcrowd] at hnot
    have hc' : (s.written a c r).calls[i]? = some c := hc
    unfold State.reply
    split
    · exact hwritten.setPhase hc' c fun d _ _ hstale => by cases hstale
    · exact hwritten.setPhase hc' c fun d _ _ hstale => by cases hstale
    · exact hwritten.head hc' _ hjitter
    · exact hwritten.setPhase hc' _ fun d _ _ hstale => by cases hstale
    · exact hwritten.head hc' c hjitter
  | resume i jitter =>
    obtain ⟨c, hc, hjitter, rfl⟩ := step_resume hstep
    exact h.head hc c hjitter

/-- Before the first call. -/
lemma kept_init (now : ℚ) : Kept { now := now } :=
  ⟨by simp, by simp, by simp, by simp⟩

/-! ## The deadline -/

section

variable {a : Adapter} {s s' : State} {i : ℕ} {c : Call} {jitter : ℚ}

lemma deadline_issue : (s.issue a i c).deadline = s.deadline := by
  unfold State.issue
  split <;> rfl

lemma deadline_head : (s.head a i c jitter).deadline = s.deadline := by
  unfold State.head
  split
  · rfl
  · split
    · rfl
    · split
      · rfl
      · exact deadline_issue

lemma deadline_throughBucket {g : Gate} : (s.throughBucket g i c jitter).deadline = s.deadline := by
  unfold State.throughBucket
  dsimp only
  split <;> rfl

/-- A reply writes the deadline, and what follows leaves it. -/
lemma deadline_reply {r : Reply} :
    (s.reply a i c r jitter).deadline = s.deadlineAfter a c r := by
  unfold State.reply
  split
  · rfl
  · rfl
  · exact deadline_head
  · rfl
  · exact deadline_head

/-- No step moves the deadline earlier. -/
lemma deadline_le_step {e : Event} (hstep : step a s e = some s') : s.deadline ≤ s'.deadline := by
  cases e with
  | tick t =>
    simp only [step, Option.ite_none_right_eq_some, Option.some.injEq] at hstep
    rw [← hstep.2]
  | start base endpoint jitter =>
    simp only [step, Option.ite_none_right_eq_some, Option.some.injEq] at hstep
    rw [← hstep.2, deadline_head]
  | wake i =>
    obtain ⟨c, wake, -, -, -, rfl⟩ := step_wake hstep
    rw [deadline_issue]
  | slot i jitter =>
    obtain ⟨c, g, -, -, -, rfl⟩ := step_slot hstep
    rw [deadline_throughBucket]
  | bucketWake i jitter =>
    obtain ⟨c, g, wake, -, -, -, -, rfl⟩ := step_bucketWake hstep
    rw [deadline_throughBucket]
  | reply i r jitter =>
    obtain ⟨c, -, -, -, rfl⟩ := step_reply hstep
    rw [deadline_reply]
    exact a.never_earlier ..
  | resume i jitter =>
    obtain ⟨c, -, -, rfl⟩ := step_resume hstep
    rw [deadline_head]

end

/-! ## Two callers past their check -/

/-- A list that has two entries of a kind has them at two places. -/
lemma exists_two_of_countP {β : Type*} {p : β → Bool} {xs : List β} (h : 1 < xs.countP p) :
    ∃ (j k : ℕ) (x y : β), j ≠ k ∧ xs[j]? = some x ∧ xs[k]? = some y ∧
      p x = true ∧ p y = true := by
  induction xs with
  | nil => simp at h
  | cons z zs ih =>
    by_cases hz : p z = true
    · have hrest : 0 < zs.countP p := by
        rw [List.countP_cons_of_pos hz] at h
        omega
      obtain ⟨y, hy, hpy⟩ := List.countP_pos_iff.mp hrest
      obtain ⟨k, hk⟩ := List.mem_iff_getElem?.mp hy
      exact ⟨0, k + 1, z, y, by omega, rfl, hk, hz, hpy⟩
    · rw [List.countP_cons_of_neg hz] at h
      obtain ⟨j, k, x, y, hne, hj, hk, hx, hy⟩ := ih h
      exact ⟨j + 1, k + 1, x, y, by omega, hj, hk, hx, hy⟩

/-- No call is at the semaphore or in a bucket. -/
def Ungated (s : State) : Prop :=
  ∀ (i : ℕ) (c : Call), s.calls[i]? = some c → c.phase ≠ .atSlot ∧ ∀ wake, c.phase ≠ .inBucket wake

section

variable {a : Adapter} {s s' : State} {i : ℕ} {c : Call} {jitter : ℚ}

lemma Ungated.setPhase (h : Ungated s) (hc : s.calls[i]? = some c) (c' : Call) {phase : Phase}
    (hslot : phase ≠ .atSlot) (hbucket : ∀ wake, phase ≠ .inBucket wake) :
    Ungated (s.setPhase i c' phase) := by
  intro j d hd
  have hd : (s.calls.set i { c' with phase := phase })[j]? = some d := hd
  rw [Dict.get_set hc] at hd
  by_cases hj : j = i
  · rw [if_pos hj, Option.some.injEq] at hd
    rw [← hd]
    exact ⟨hslot, hbucket⟩
  · rw [if_neg hj] at hd
    exact h j d hd

/-- Without a gate a request goes out at once. -/
lemma Ungated.issue (h : Ungated s) (hgate : a.gate = none) (hc : s.calls[i]? = some c)
    (c' : Call) : Ungated (s.issue a i c') := by
  unfold State.issue
  rw [hgate]
  have hsent : Ungated { s with sends := s.sends ++ [s.now] } := h
  exact hsent.setPhase hc c' (by simp) (by simp)

lemma Ungated.head (h : Ungated s) (hgate : a.gate = none) (hc : s.calls[i]? = some c)
    (c' : Call) : Ungated (s.head a i c' jitter) := by
  unfold State.head
  split
  · exact h.setPhase hc c' (by simp) (by simp)
  · split
    · exact h.setPhase hc c' (by simp) (by simp)
    · split
      · exact h.setPhase hc c' (by simp) (by simp)
      · exact h.issue hgate hc c'

/-- The adapters without a gate keep their calls out of it. -/
lemma Ungated.step {e : Event} (h : Ungated s) (hgate : a.gate = none)
    (hstep : Backoff.step a s e = some s') : Ungated s' := by
  cases e with
  | tick t =>
    simp only [Backoff.step, Option.ite_none_right_eq_some, Option.some.injEq] at hstep
    rw [← hstep.2]
    exact h
  | start base endpoint jitter =>
    simp only [Backoff.step, Option.ite_none_right_eq_some, Option.some.injEq] at hstep
    rw [← hstep.2]
    refine Ungated.head ?_ hgate (List.getElem?_concat_length ..) _
    intro j d hd
    simp only [Dict.get_append] at hd
    by_cases hj : j = s.calls.length
    · rw [if_pos hj, Option.some.injEq] at hd
      rw [← hd]
      simp
    · rw [if_neg hj] at hd
      exact h j d hd
  | wake i =>
    obtain ⟨c, wake, hc, -, -, rfl⟩ := step_wake hstep
    exact h.issue hgate hc c
  | slot i jitter =>
    obtain ⟨c, g, -, hsome, -, -⟩ := step_slot hstep
    rw [hgate] at hsome
    cases hsome
  | bucketWake i jitter =>
    obtain ⟨c, g, wake, -, hsome, -, -, -⟩ := step_bucketWake hstep
    rw [hgate] at hsome
    cases hsome
  | reply i r jitter =>
    obtain ⟨c, hc, -, -, rfl⟩ := step_reply hstep
    have hwritten : Ungated (s.written a c r) := h
    have hc' : (s.written a c r).calls[i]? = some c := hc
    unfold State.reply
    split
    · exact hwritten.setPhase hc' c (by simp) (by simp)
    · exact hwritten.setPhase hc' c (by simp) (by simp)
    · exact hwritten.head hgate hc' _
    · exact hwritten.setPhase hc' _ (by simp) (by simp)
    · exact hwritten.head hgate hc' c
  | resume i jitter =>
    obtain ⟨c, hc, -, rfl⟩ := step_resume hstep
    exact h.head hgate hc c

/-- A call that is past its check sleeps, where there is no gate. -/
lemma Ungated.asleep (h : Ungated s) (hc : s.calls[i]? = some c) {d : WithTop ℚ}
    (hstale : c.phase.isStale d = true) : ∃ wake, c.phase = .asleep wake ∧ wake < d := by
  obtain ⟨hslot, hbucket⟩ := h i c hc
  cases hphase : c.phase with
  | asleep wake =>
    rw [hphase] at hstale
    exact ⟨wake, rfl, of_decide_eq_true hstale⟩
  | atSlot => exact absurd hphase hslot
  | inBucket wake => exact absurd hphase (hbucket wake)
  | inFlight => rw [hphase] at hstale; cases hstale
  | pausing wake => rw [hphase] at hstale; cases hstale
  | ended => rw [hphase] at hstale; cases hstale

/-- What a call does leaves the other calls, the clock and the windows alone. -/
structure Frame (i : ℕ) (s s' : State) : Prop where
  now : s'.now = s.now
  raises : s'.raises = s.raises
  calls : ∀ j, j ≠ i → s'.calls[j]? = s.calls[j]?

lemma frame_setPhase (s : State) (i : ℕ) (c : Call) (phase : Phase) :
    Frame i s (s.setPhase i c phase) := by
  refine ⟨rfl, rfl, ?_⟩
  intro j hj
  exact List.getElem?_set_ne (Ne.symm hj)

lemma frame_send (s : State) (i : ℕ) (c : Call) : Frame i s (s.send i c) := by
  refine ⟨rfl, rfl, ?_⟩
  intro j hj
  exact List.getElem?_set_ne (Ne.symm hj)

/-- The head of a round touches only its own call. -/
lemma frame_head (a : Adapter) (s : State) (i : ℕ) (c : Call) (jitter : ℚ) :
    Frame i s (s.head a i c jitter) := by
  unfold State.head
  split
  · exact frame_setPhase s i c _
  · split
    · exact frame_setPhase s i c _
    · split
      · exact frame_setPhase s i c _
      · unfold State.issue
        split
        · exact frame_send s i c
        · exact frame_setPhase s i c _

/-- A reply touches only its own call and the deadline. -/
lemma frame_reply (a : Adapter) (s : State) (i : ℕ) (c : Call) (r : Reply) (jitter : ℚ) :
    Frame i (s.written a c r) (s.reply a i c r jitter) := by
  unfold State.reply
  split
  · exact frame_setPhase _ i c _
  · exact frame_setPhase _ i c _
  · exact frame_head a _ i _ jitter
  · exact frame_setPhase _ i _ _
  · exact frame_head a _ i c jitter

/-- There is a time between a time and a deadline after it. -/
lemma exists_between_deadline {m : ℚ} {d : WithTop ℚ} (h : (m : WithTop ℚ) < d) :
    ∃ t : ℚ, m < t ∧ (t : WithTop ℚ) < d := by
  induction d using WithTop.recTopCoe with
  | top => exact ⟨m + 1, by linarith, WithTop.coe_lt_top _⟩
  | coe q =>
    have hlt : m < q := by exact_mod_cast h
    refine ⟨(m + q) / 2, by linarith, ?_⟩
    exact_mod_cast (show (m + q) / 2 < q by linarith)

/-- A sleeping call wakes, and sends where there is no gate. -/
lemma step_wake_send (hgate : a.gate = none) (hc : s.calls[i]? = some c) {wake : WithTop ℚ}
    (hphase : c.phase = .asleep wake) (hwoken : wake ≤ (s.now : WithTop ℚ)) :
    step a s (.wake i) = some (s.send i c) := by
  simp only [step, hc, hphase, State.issue, hgate]
  exact if_pos hwoken

/-- Where there is no gate, a crowded reply can be followed by two requests inside the window it
opens: the condition leaves out no reply that is harmless. -/
theorem slips_twice (hgate : a.gate = none) {now : ℚ} {es : List Event}
    (hrun : run (step a) { now := now } es = some s) {r : Reply}
    (hcrowded : s.crowded a (.reply i r jitter) = true)
    (hstep : step a s (.reply i r jitter) = some s') :
    ∃ es' s'', run (step a) s' es' = some s'' ∧
      ∃ window ∈ s''.raises, 1 < s''.sentWithin window := by
  have hungated : Ungated s :=
    invariant_of_run (fun _ _ _ h hstep => h.step hgate hstep) (fun j d hd => by cases hd) hrun
  obtain ⟨c, hc, hflight, -, rfl⟩ := step_reply hstep
  simp only [State.crowded, hc, decide_eq_true_eq] at hcrowded
  obtain ⟨hraised, hopen, htwo⟩ := hcrowded
  obtain ⟨j, k, x, y, hne, hj, hk, hx, hy⟩ := exists_two_of_countP htwo
  obtain ⟨wakeX, hphaseX, hltX⟩ := hungated.asleep hj hx
  obtain ⟨wakeY, hphaseY, hltY⟩ := hungated.asleep hk hy
  -- the two are other calls than the one that got the reply
  have hother : ∀ {l : ℕ} {z : Call} {wake : WithTop ℚ}, s.calls[l]? = some z →
      z.phase = .asleep wake → l ≠ i := by
    rintro l z wake hz hphase rfl
    rw [hc] at hz
    rw [← Option.some.inj hz, hflight] at hphase
    cases hphase
  have hframe := frame_reply a s i c r jitter
  set s₁ := s.reply a i c r jitter with hs₁
  have hj₁ : s₁.calls[j]? = some x := (hframe.calls j (hother hj hphaseX)).trans hj
  have hk₁ : s₁.calls[k]? = some y := (hframe.calls k (hother hk hphaseY)).trans hk
  have hwindow : (s.now, s.deadlineAfter a c r) ∈ s₁.raises := by
    rw [hframe.raises]
    simp [State.written, hraised]
  obtain ⟨qx, rfl⟩ := WithTop.ne_top_iff_exists.mp hltX.ne_top
  obtain ⟨qy, rfl⟩ := WithTop.ne_top_iff_exists.mp hltY.ne_top
  have hmax : ((max s.now (max qx qy) : ℚ) : WithTop ℚ) < s.deadlineAfter a c r := by
    rw [WithTop.coe_max, WithTop.coe_max]
    exact max_lt hopen (max_lt hltX hltY)
  obtain ⟨t, ht, htd⟩ := exists_between_deadline hmax
  have hnow : s.now < t := (le_max_left _ _).trans_lt ht
  have hqx : qx < t := ((le_max_left _ _).trans (le_max_right _ _)).trans_lt ht
  have hqy : qy < t := ((le_max_right _ _).trans (le_max_right _ _)).trans_lt ht
  have htick : step a s₁ (.tick t) = some { s₁ with now := t } := by
    apply if_pos
    rw [hframe.now]
    exact hnow.le
  have hfirst : step a { s₁ with now := t } (.wake j) = some (State.send { s₁ with now := t } j x) :=
    step_wake_send hgate hj₁ hphaseX (by exact_mod_cast hqx.le)
  have hk₂ : (State.send { s₁ with now := t } j x).calls[k]? = some y :=
    ((frame_send _ j x).calls k (Ne.symm hne)).trans hk₁
  have hsecond : step a (State.send { s₁ with now := t } j x) (.wake k) =
      some ((State.send { s₁ with now := t } j x).send k y) :=
    step_wake_send hgate hk₂ hphaseY (by exact_mod_cast hqy.le)
  refine ⟨[.tick t, .wake j, .wake k], (State.send { s₁ with now := t } j x).send k y, ?_,
    (s.now, s.deadlineAfter a c r), hwindow, ?_⟩
  · rw [run_cons]
    refine ⟨_, htick, ?_⟩
    rw [run_cons]
    refine ⟨_, hfirst, ?_⟩
    rw [run_cons]
    exact ⟨_, hsecond, rfl⟩
  · have hin : s.now < t ∧ (t : WithTop ℚ) < s.deadlineAfter a c r := ⟨hnow, htd⟩
    rw [sentWithin_send, sentWithin_send]
    show 1 < _ + (if s.now < t ∧ (t : WithTop ℚ) < s.deadlineAfter a c r then 1 else 0) +
      if s.now < t ∧ (t : WithTop ℚ) < s.deadlineAfter a c r then 1 else 0
    rw [if_pos hin]
    omega

end

/-! ## The three adapters -/

/-- On Bybit, OKX and KuCoin the deadline never moves earlier, and in a run whose replies are
not crowded at most one request is sent between a move of the deadline and the deadline. -/
theorem at_most_one_slips (texts : Texts) :
    ∀ a ∈ [bybit texts, okx texts, kucoin texts], ∀ (now : ℚ) (es : List Event) (s : State),
      run (step a) { now := now } es = some s →
        (∀ es' s', run (step a) s es' = some s' → s.deadline ≤ s'.deadline) ∧
        (Meets (step a) (fun s e => s.crowded a e = false) { now := now } es →
          ∀ window ∈ s.raises, s.sentWithin window ≤ 1) := by
  intro a _ now es s hrun
  constructor
  · intro es' s' hrun'
    have hpres : ∀ (t : State) e t', s.deadline ≤ t.deadline → step a t e = some t' →
        s.deadline ≤ t'.deadline :=
      fun _ _ _ hle hstep => hle.trans (deadline_le_step hstep)
    exact invariant_of_run hpres le_rfl hrun'
  · intro hmeets
    have hkept : Kept s :=
      invariant_of_meets (fun _ _ _ h hnot hstep => h.step hnot hstep) (kept_init now) hmeets hrun
    exact hkept.slipped

/-- Conversions for the examples: no header is read. -/
def plainTexts : Texts :=
  { int := fun _ => none, float := fun _ => none, str := fun _ => "", fixed0 := fun _ => "" }

/-- A 429. -/
def limited : Reply := .response { status := 429 }

/-- Two requests of Bybit are answered with a 429, the second after the first one's call has
gone to sleep. -/
def oneAsleep : List Event :=
  [.start "" "/v5/market/tickers" 1, .start "" "/v5/market/tickers" 1, .reply 0 limited 1,
    .tick 5, .reply 1 limited 1, .tick 7, .wake 0]

/-- The call that slept sends in the second window, and no other does. -/
theorem at_most_one_slips_bybit :
    ∃ s, run (step (bybit plainTexts)) { now := 1 } oneAsleep = some s ∧
      s.raises = [(1, ((6 : ℚ) : WithTop ℚ)), (5, ((10 : ℚ) : WithTop ℚ))] ∧
      ∀ window ∈ s.raises, s.sentWithin window ≤ 1 := by
  have hraises : (run (step (bybit plainTexts)) { now := 1 } oneAsleep).map State.raises =
      some [(1, ((6 : ℚ) : WithTop ℚ)), (5, ((10 : ℚ) : WithTop ℚ))] := by
    with_unfolding_all rfl
  obtain ⟨s, hs, hwindows⟩ := Option.map_eq_some_iff.mp hraises
  have hmeets : Meets (step (bybit plainTexts))
      (fun s e => s.crowded (bybit plainTexts) e = false) { now := 1 } oneAsleep := by
    with_unfolding_all decide
  exact ⟨s, hs, hwindows,
    (at_most_one_slips plainTexts (bybit plainTexts) (by simp) 1 oneAsleep s hs).2 hmeets⟩

/-- Three requests of Bybit are answered with a 429, the third after the calls of the first two
have gone to sleep: both wake inside the window that it opens, and send. -/
theorem two_slip :
    ∃ s, run (step (bybit plainTexts)) { now := 1 }
        [.start "" "/v5/market/tickers" 1, .start "" "/v5/market/tickers" 1,
          .start "" "/v5/market/tickers" 1, .reply 0 limited 1, .reply 1 limited 1, .tick 5,
          .reply 2 limited 1, .tick 7, .wake 0, .wake 1] = some s ∧
      (5, ((10 : ℚ) : WithTop ℚ)) ∈ s.raises ∧ s.sentWithin (5, ((10 : ℚ) : WithTop ℚ)) = 2 := by
  have hraises : (run (step (bybit plainTexts)) { now := 1 }
      [.start "" "/v5/market/tickers" 1, .start "" "/v5/market/tickers" 1,
        .start "" "/v5/market/tickers" 1, .reply 0 limited 1, .reply 1 limited 1, .tick 5,
        .reply 2 limited 1, .tick 7, .wake 0, .wake 1]).map (fun s => (s.raises, s.sends)) =
      some ([(1, ((6 : ℚ) : WithTop ℚ)), (5, ((10 : ℚ) : WithTop ℚ))], [1, 1, 1, 7, 7]) := by
    with_unfolding_all rfl
  obtain ⟨s, hs, heq⟩ := Option.map_eq_some_iff.mp hraises
  obtain ⟨hwindows, hsends⟩ := Prod.mk.inj heq
  refine ⟨s, hs, ?_, ?_⟩
  · rw [hwindows]
    simp
  · unfold State.sentWithin
    rw [hsends]
    with_unfolding_all decide

end Backoff
end ExchangeRouter
