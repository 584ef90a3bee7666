import ExchangeRouter.KrakenRequests
import ExchangeRouter.KrakenThrottleTheorems

/-!
# What the calls of `_make_request` do to each other

They share the throttle and nothing else. `Rounded` is what a round of `_await_throttle` does to
the throttle; every request has a grant of its own, so the spacing of grants is that of requests.
What a call returns or raises is what its own replies come to: `Attempts` is the loop alone.
-/

namespace ExchangeRouter
namespace KrakenThrottle

open Transition MakeRequest

/-! ## The throttle as a call sees it -/

/-- What a round of caller `i` does: it returns or sleeps, and the others stand as they stood. -/
structure Rounded (s s' : State) (i : ℕ) (r : Request) : Prop where
  others : ∀ j, j ≠ i → ∀ c, s.callers[j]? = some c → s'.callers[j]? = some c
  outcome : (s'.callers[i]? = some .returned ∧
      s'.grants = s.grants ++ [⟨i, r, s'.now, s'.backoffUntil, s'.slowdownUntil⟩]) ∨
    ((∃ wake, s'.callers[i]? = some (.asleep r wake)) ∧ s'.grants = s.grants)

/-- A round grants its caller or puts it to sleep. -/
lemma rounded_round (s : State) {i : ℕ} (hi : i < s.callers.length) (r : Request) (jitter : ℚ) :
    Rounded s (s.round i r jitter) i r := by
  have hset : ∀ c, (s.callers.set i c)[i]? = some c := fun c => List.getElem?_set_self hi
  have hothers : ∀ c j, j ≠ i → ∀ c', s.callers[j]? = some c' →
      (s.callers.set i c)[j]? = some c' := by
    intro c j hj c' hc'
    rw [List.getElem?_set_ne hj.symm]
    exact hc'
  unfold State.round
  split
  · exact ⟨hothers _, Or.inl ⟨hset _, rfl⟩⟩
  · exact ⟨hothers _, Or.inr ⟨⟨_, hset _⟩, rfl⟩⟩

/-- A call of `_await_throttle` begins with a round. -/
lemma rounded_awaitThrottle {s s' : State} {r : Request} {jitter : ℚ}
    (hstep : step s (.awaitThrottle r jitter) = some s') : Rounded s s' s.callers.length r := by
  simp only [step] at hstep
  split at hstep
  · have h := rounded_round { s with callers := s.callers ++ [.cancelled] } (i := s.callers.length)
      (by simp) r jitter
    rw [Option.some.inj hstep] at h
    refine ⟨fun j hj c hc => h.others j hj c ?_, h.outcome⟩
    show (s.callers ++ [_])[j]? = some c
    rw [List.getElem?_append_left (List.getElem?_eq_some_iff.mp hc).1]
    exact hc
  · exact absurd hstep (by simp)

/-- A caller that wakes makes another round. -/
lemma rounded_wake {s s' : State} {i : ℕ} {r : Request} {wake : WithTop ℚ} {jitter : ℚ}
    (hi : s.callers[i]? = some (.asleep r wake)) (hstep : step s (.wake i jitter) = some s') :
    Rounded s s' i r := by
  simp only [step, hi] at hstep
  split at hstep
  · rw [← Option.some.inj hstep]
    exact rounded_round s (List.getElem?_eq_some_iff.mp hi).1 r jitter
  · exact absurd hstep (by simp)

/-- A backoff grants nothing and wakes no one. -/
lemma setBackoff_keeps {s s' : State} {attempt : ℕ} {retryUntil : Option PyFloat} {strong : Bool}
    {random : ℚ} (hstep : step s (.setBackoff attempt retryUntil strong random) = some s') :
    s'.callers = s.callers ∧ s'.grants = s.grants := by
  simp only [step] at hstep
  split at hstep
  · obtain ⟨backoffUntil, slowdownUntil, extraIntervalMs, heq, -⟩ :=
      setBackoff_eq s attempt retryUntil strong random
    rw [← Option.some.inj hstep, heq]
    exact ⟨rfl, rfl⟩
  · exact absurd hstep (by simp)

/-- Grants along a run are under the deadlines at its start, or later ones. -/
lemma granted_along_run {s s' : State} {events : List Event}
    (hrun : run KrakenThrottle.step s events = some s') :
    ∃ later, s'.grants = s.grants ++ later ∧
      ∀ g ∈ later, s.backoffUntil ≤ g.backoffUntil ∧ s.slowdownUntil ≤ g.slowdownUntil := by
  have hkeeps : ∀ t e t', ((s.backoffUntil ≤ t.backoffUntil ∧ s.slowdownUntil ≤ t.slowdownUntil) ∧
      ∃ later, t.grants = s.grants ++ later ∧
        ∀ g ∈ later, s.backoffUntil ≤ g.backoffUntil ∧ s.slowdownUntil ≤ g.slowdownUntil) →
      KrakenThrottle.step t e = some t' →
      (s.backoffUntil ≤ t'.backoffUntil ∧ s.slowdownUntil ≤ t'.slowdownUntil) ∧
        ∃ later, t'.grants = s.grants ++ later ∧
          ∀ g ∈ later, s.backoffUntil ≤ g.backoffUntil ∧ s.slowdownUntil ≤ g.slowdownUntil := by
    intro t e t' ⟨hafter, later, hgrants, hlater⟩ hstep
    have hon := deadlines_step hstep
    refine ⟨⟨hafter.1.trans hon.1, hafter.2.trans hon.2⟩, ?_⟩
    rcases step_cases hstep with ⟨t', -, rfl⟩ | ⟨i, r, callers, -, rfl⟩ | ⟨callers, rfl⟩ |
      ⟨attempt, retryUntil, strong, random, rfl⟩
    · exact ⟨later, hgrants, hlater⟩
    · refine ⟨later ++ [⟨i, r, t.now, t.backoffUntil, t.slowdownUntil⟩], ?_, ?_⟩
      · show t.grants ++ [_] = _
        rw [hgrants, List.append_assoc]
      · intro g hg
        rcases List.mem_append.mp hg with hg | hg
        · exact hlater g hg
        · rw [List.mem_singleton.mp hg]
          exact hafter
    · exact ⟨later, hgrants, hlater⟩
    · obtain ⟨backoffUntil, slowdownUntil, extraIntervalMs, heq, -⟩ :=
        setBackoff_eq t attempt retryUntil strong random
      rw [heq]
      exact ⟨later, hgrants, hlater⟩
  have hinit : (s.backoffUntil ≤ s.backoffUntil ∧ s.slowdownUntil ≤ s.slowdownUntil) ∧
      ∃ later, s.grants = s.grants ++ later ∧
        ∀ g ∈ later, s.backoffUntil ≤ g.backoffUntil ∧ s.slowdownUntil ≤ g.slowdownUntil :=
    ⟨⟨le_rfl, le_rfl⟩, [], (List.append_nil _).symm, fun g hg => absurd hg List.not_mem_nil⟩
  exact (invariant_of_run hkeeps hinit hrun).2

end KrakenThrottle

namespace KrakenRequests

open Transition
open MakeRequest (Json PyFloat)
open KrakenThrottle (Grant Rounded pairKey)

/-! ## A call alone -/

/-- The loop of `_make_request` over the replies alone. -/
structure Attempts where
  attempt : ℕ := 0
  lastStatus : Option ℕ := none
  lastBodyError : Option String := none
  result : Option (Except Raised Json) := none

/-- The next attempt, or the last `raise`. -/
def Attempts.again (a : Attempts) (url : String) : Attempts :=
  { a with
    attempt := a.attempt + 1
    result :=
      if a.attempt + 1 < maxRetries url then none
      else some (.error (.upstreamUnavailable (exhausted url a.lastStatus a.lastBodyError))) }

/-- After a verdict. -/
def Attempts.after (a : Attempts) (url : String) : Verdict → Attempts
  | .returned value => { a with result := some (.ok value) }
  | .raised e => { a with result := some (.error e) }
  | .falls => a.again url
  | .backoff _ _ bodyError => { a with lastBodyError := bodyError.or a.lastBodyError }.again url

/-- A call that has ended reads no more replies. -/
def Attempts.hear (py : Python) (url : String) (a : Attempts) (reply : Reply) : Attempts :=
  if a.result.isSome then a
  else { a with lastStatus := statusAfter a.lastStatus reply }.after url (read py url 0 reply)

/-- How far the replies alone bring a call. -/
def alone (py : Python) (url : String) (replies : List Reply) : Attempts :=
  replies.foldl (Attempts.hear py url) {}

/-- A verdict without the deadline that it took from the reply. -/
def Verdict.untimed : Verdict → Verdict
  | .backoff _ strong bodyError => .backoff none strong bodyError
  | v => v

/-- Only the deadline depends on when the reply is read. -/
lemma untimed_read (py : Python) (url : String) (now now' : ℚ) (reply : Reply) :
    (read py url now reply).untimed = (read py url now' reply).untimed := by
  cases reply with
  | response r =>
    simp only [read, readResponse]
    split
    · rfl
    · rfl
  | valueError message => rfl
  | raised error => rfl

/-- The deadline of a verdict does not matter to how far the call has come. -/
lemma after_untimed (a : Attempts) (url : String) (v : Verdict) :
    a.after url v.untimed = a.after url v := by
  cases v <;> rfl

/-- A reply may be read at any time. -/
lemma after_read (py : Python) (url : String) (now now' : ℚ) (a : Attempts) (reply : Reply) :
    a.after url (read py url now reply) = a.after url (read py url now' reply) := by
  rw [← after_untimed, untimed_read py url now now', after_untimed]

/-! ## What holds in every run -/

/-- What a call that has ended came to. -/
def Stage.result : Stage → Option (Except Raised Json)
  | .ended result => some result
  | _ => none

/-- How far a call has come, but for where it waits. -/
def Call.progress (c : Call) : Attempts :=
  ⟨c.attempt, c.lastStatus, c.lastBodyError, c.stage.result⟩

/-- How many requests call `n` sent. -/
def State.sentBy (s : State) (n : ℕ) : ℕ := s.requests.countP fun q => q.call = n

/-- How many requests, replies and attempts a call has had, where it stands. -/
def Stage.Counts (sent replies attempt limit : ℕ) : Stage → Prop
  | .throttled _ => sent = replies ∧ attempt = replies ∧ attempt < limit
  | .requested => sent = replies + 1 ∧ attempt = replies ∧ attempt < limit
  | .ended _ => sent = replies ∧ replies ≤ limit
  | .cancelled => sent ≤ replies + 1 ∧ attempt = replies ∧ attempt < limit

/-- No call sends more than `max_retries` requests. -/
lemma Stage.Counts.sent_le {stage : Stage} {sent replies attempt limit : ℕ}
    (h : stage.Counts sent replies attempt limit) : sent ≤ limit := by
  cases stage with
  | throttled i =>
    obtain ⟨hsent, hattempt, hlt⟩ := h
    omega
  | requested =>
    obtain ⟨hsent, hattempt, hlt⟩ := h
    omega
  | ended result => exact h.1.le.trans h.2
  | cancelled =>
    obtain ⟨hsent, hattempt, hlt⟩ := h
    omega

/-- A call has come as far as its replies bring it. -/
structure Kept (py : Python) (s : State) (n : ℕ) (c : Call) : Prop where
  alone : c.progress = alone py c.request.url c.replies
  counts : c.stage.Counts (s.sentBy n) c.replies.length c.attempt (maxRetries c.request.url)

/-- What every reachable state has: each request was granted by the throttle to its own call. -/
structure Sound (py : Python) (s : State) : Prop where
  throttle : KrakenThrottle.Sound s.throttle
  grants : s.requests.map (fun q => (q.request, q.time)) =
    s.throttle.grants.map fun g => (g.request, g.time)
  owned : ∀ q ∈ s.requests, ∃ c, s.calls[q.call]? = some c ∧ q.request = c.request
  waits : ∀ (n : ℕ) (c : Call) (i : ℕ), s.calls[n]? = some c → c.stage = .throttled i →
    ∃ wake, s.throttle.callers[i]? = some (.asleep c.request wake)
  apart : ∀ (n m : ℕ) (c d : Call) (i : ℕ), s.calls[n]? = some c → s.calls[m]? = some d →
    c.stage = .throttled i → d.stage = .throttled i → n = m
  kept : ∀ n c, s.calls[n]? = some c → Kept py s n c

/-- Before the first call. -/
lemma Sound.start (py : Python) {now : ℚ} (hpos : 0 < now) :
    Sound py { throttle := { now := now } } where
  throttle := KrakenThrottle.Sound.start hpos
  grants := rfl
  owned := fun _ h => absurd h List.not_mem_nil
  waits := fun _ _ _ h => absurd h (by simp)
  apart := fun _ _ _ _ _ h => absurd h (by simp)
  kept := fun _ _ h => absurd h (by simp)

/-- The throttle goes on and no call is granted. -/
lemma Sound.throttle_moves {py : Python} {s : State} (h : Sound py s)
    {throttle : KrakenThrottle.State} (hth : KrakenThrottle.Sound throttle)
    (hcallers : throttle.callers = s.throttle.callers)
    (hgrants : throttle.grants = s.throttle.grants) :
    Sound py { s with throttle := throttle } where
  throttle := hth
  grants := by
    show _ = throttle.grants.map _
    rw [hgrants]
    exact h.grants
  owned := h.owned
  waits := by
    intro n c i hn hc
    show ∃ wake, throttle.callers[i]? = _
    rw [hcallers]
    exact h.waits n c i hn hc
  apart := h.apart
  kept := fun n c hn => ⟨(h.kept n c hn).alone, (h.kept n c hn).counts⟩

lemma sentBy_append (s : State) {n : ℕ} (sent : List Sent) (hsent : ∀ q ∈ sent, q.call = n)
    (m : ℕ) :
    State.sentBy { s with requests := s.requests ++ sent } m =
      s.sentBy m + if m = n then sent.length else 0 := by
  unfold State.sentBy
  rw [List.countP_append]
  congr 1
  split
  · next hm => exact List.countP_eq_length.mpr fun q hq => by simpa [hm] using hsent q hq
  · next hm =>
    refine List.countP_eq_zero.mpr fun q hq => ?_
    rw [hsent q hq]
    simpa using Ne.symm hm

/-- Call `n` moves on from `c` to `c'`, and sends what it has grants for. -/
lemma Sound.put {py : Python} {s : State} (h : Sound py s) {n : ℕ} {c : Call}
    (hn : s.calls[n]? = some c) (c' : Call) (throttle : KrakenThrottle.State) (sent : List Sent)
    (hrequest : c'.request = c.request) (hth : KrakenThrottle.Sound throttle)
    (hgrants : throttle.grants.map (fun g => (g.request, g.time)) =
      s.throttle.grants.map (fun g => (g.request, g.time)) ++ sent.map fun q => (q.request, q.time))
    (hsent : ∀ q ∈ sent, q.call = n ∧ q.request = c.request)
    (hothers : ∀ (m : ℕ) (d : Call) (i : ℕ), m ≠ n → s.calls[m]? = some d → d.stage = .throttled i →
      (∃ wake, throttle.callers[i]? = some (.asleep d.request wake)) ∧ c'.stage ≠ .throttled i)
    (hself : ∀ i, c'.stage = .throttled i →
      ∃ wake, throttle.callers[i]? = some (.asleep c'.request wake))
    (halone : c'.progress = alone py c'.request.url c'.replies)
    (hcounts : c'.stage.Counts (s.sentBy n + sent.length) c'.replies.length c'.attempt
      (maxRetries c'.request.url)) :
    Sound py
      { s with throttle := throttle, calls := s.calls.set n c', requests := s.requests ++ sent } := by
  have hlt := (List.getElem?_eq_some_iff.mp hn).1
  have hat : ∀ (m : ℕ) (d : Call), (s.calls.set n c')[m]? = some d →
      (m = n ∧ d = c') ∨ (m ≠ n ∧ s.calls[m]? = some d) := by
    intro m d hd
    by_cases hm : m = n
    · rw [hm, List.getElem?_set_self hlt] at hd
      exact Or.inl ⟨hm, (Option.some.inj hd).symm⟩
    · rw [List.getElem?_set_ne (Ne.symm hm)] at hd
      exact Or.inr ⟨hm, hd⟩
  have hcount := sentBy_append { s with throttle := throttle, calls := s.calls.set n c' }
    sent fun q hq => (hsent q hq).1
  refine ⟨hth, ?_, ?_, ?_, ?_, ?_⟩
  · show (s.requests ++ sent).map _ = throttle.grants.map _
    rw [List.map_append, h.grants, hgrants]
  · intro q hq
    rcases List.mem_append.mp hq with hq | hq
    · obtain ⟨d, hd, hr⟩ := h.owned q hq
      by_cases hm : q.call = n
      · refine ⟨c', ?_, ?_⟩
        · show (s.calls.set n c')[q.call]? = some c'
          rw [hm, List.getElem?_set_self hlt]
        · rw [hm, hn, Option.some.injEq] at hd
          rw [hr, hrequest, hd]
      · refine ⟨d, ?_, hr⟩
        show (s.calls.set n c')[q.call]? = some d
        rw [List.getElem?_set_ne (Ne.symm hm)]
        exact hd
    · obtain ⟨hcall, hr⟩ := hsent q hq
      refine ⟨c', ?_, hr.trans hrequest.symm⟩
      show (s.calls.set n c')[q.call]? = some c'
      rw [hcall, List.getElem?_set_self hlt]
  · intro m d i hd hi
    rcases hat m d hd with ⟨-, rfl⟩ | ⟨hm, hd⟩
    · exact hself i hi
    · exact (hothers m d i hm hd hi).1
  · intro m m' d d' i hd hd' hi hi'
    rcases hat m d hd with ⟨hm, heq⟩ | ⟨hm, hbefore⟩
    · rcases hat m' d' hd' with ⟨hm', -⟩ | ⟨hm', hbefore'⟩
      · exact hm.trans hm'.symm
      · rw [heq] at hi
        exact absurd hi (hothers m' d' i hm' hbefore' hi').2
    · rcases hat m' d' hd' with ⟨-, heq'⟩ | ⟨-, hbefore'⟩
      · rw [heq'] at hi'
        exact absurd hi' (hothers m d i hm hbefore hi).2
      · exact h.apart m m' d d' i hbefore hbefore' hi hi'
  · intro m d hd
    rcases hat m d hd with ⟨rfl, rfl⟩ | ⟨hm, hd⟩
    · refine ⟨halone, ?_⟩
      rw [hcount, if_pos rfl]
      exact hcounts
    · refine ⟨(h.kept m d hd).alone, ?_⟩
      rw [hcount, if_neg hm]
      exact (h.kept m d hd).counts

/-- Call `n` moves on to where no throttle holds it. -/
lemma Sound.set {py : Python} {s : State} (h : Sound py s) {n : ℕ} {c c' : Call}
    (hn : s.calls[n]? = some c) (hrequest : c'.request = c.request)
    (hfree : ∀ i, c'.stage ≠ .throttled i) (hkept : Kept py s n c') :
    Sound py { s with calls := s.calls.set n c' } := by
  have hput := h.put hn c' s.throttle [] hrequest h.throttle (by simp)
    (fun q hq => absurd hq List.not_mem_nil)
    (fun m d i _ hd hi => ⟨h.waits m d i hd hi, hfree i⟩) (fun i hi => absurd hi (hfree i))
    hkept.alone hkept.counts
  rw [List.append_nil] at hput
  exact hput

/-- What a call has to be that comes to `_await_throttle`. -/
structure Waiting (py : Python) (s : State) (n : ℕ) (c : Call) : Prop where
  alone : { c with stage := .requested }.progress = alone py c.request.url c.replies
  sent : s.sentBy n = c.replies.length
  attempt : c.attempt = c.replies.length
  below : c.attempt < maxRetries c.request.url

/-- A round of call `n`. -/
lemma Sound.settle {py : Python} {s : State} (h : Sound py s) {n i : ℕ} {c c' : Call}
    {throttle : KrakenThrottle.State} (hn : s.calls[n]? = some c)
    (hrequest : c'.request = c.request) (hth : KrakenThrottle.Sound throttle)
    (hround : Rounded s.throttle throttle i c.request)
    (hothers : ∀ (m : ℕ) (d : Call), m ≠ n → s.calls[m]? = some d → d.stage ≠ .throttled i)
    (hwaiting : Waiting py s n c') : Sound py (s.settle throttle i n c') := by
  have hapart : ∀ (m : ℕ) (d : Call) (j : ℕ), m ≠ n → s.calls[m]? = some d →
      d.stage = .throttled j →
      j ≠ i ∧ ∃ wake, throttle.callers[j]? = some (.asleep d.request wake) := by
    intro m d j hm hd hj
    have hne : j ≠ i := fun heq => hothers m d hm hd (heq ▸ hj)
    obtain ⟨wake, hwake⟩ := h.waits m d j hd hj
    exact ⟨hne, wake, hround.others j hne _ hwake⟩
  rcases hround.outcome with ⟨hreturned, hgrants⟩ | ⟨⟨wake, hasleep⟩, hgrants⟩
  · unfold State.settle
    rw [if_pos hreturned]
    refine h.put hn { c' with stage := .requested } throttle
      [⟨n, c'.request, throttle.now⟩] hrequest hth ?_ ?_ ?_ ?_ hwaiting.alone ?_
    · rw [hgrants, List.map_append, hrequest]
      rfl
    · intro q hq
      rw [List.mem_singleton.mp hq]
      exact ⟨rfl, hrequest⟩
    · intro m d j hm hd hj
      exact ⟨(hapart m d j hm hd hj).2, by simp⟩
    · intro j hj
      exact absurd hj (by simp)
    · exact ⟨by rw [hwaiting.sent, List.length_singleton], hwaiting.attempt, hwaiting.below⟩
  · unfold State.settle
    rw [if_neg (by rw [hasleep]; simp)]
    have hput := h.put hn { c' with stage := .throttled i } throttle [] hrequest hth
      (by rw [hgrants]; simp) (fun q hq => absurd hq List.not_mem_nil)
      (fun m d j hm hd hj => ⟨(hapart m d j hm hd hj).2, fun heq =>
        (hapart m d j hm hd hj).1 (Stage.throttled.inj heq).symm⟩)
      (fun j hj => ⟨wake, by rw [← Stage.throttled.inj hj, hasleep, hrequest]⟩)
      hwaiting.alone ⟨hwaiting.sent, hwaiting.attempt, hwaiting.below⟩
    rw [List.append_nil] at hput
    exact hput

/-- Call `n`, that no throttle holds, comes to `_await_throttle`. -/
lemma Sound.await {py : Python} {s s' : State} (h : Sound py s) {n : ℕ} {c c' : Call} {jitter : ℚ}
    (hn : s.calls[n]? = some c) (hrequest : c'.request = c.request)
    (hwaiting : Waiting py s n c') (hawait : s.await n c' jitter = some s') : Sound py s' := by
  obtain ⟨throttle, hstep, rfl⟩ := Option.map_eq_some_iff.mp hawait
  rw [hrequest] at hstep
  refine h.settle hn hrequest (h.throttle.step hstep)
    (KrakenThrottle.rounded_awaitThrottle hstep) ?_ hwaiting
  -- the caller is a new one
  intro m d _ hd hi
  obtain ⟨wake, hwake⟩ := h.waits m d _ hd hi
  exact absurd (List.getElem?_eq_some_iff.mp hwake).1 (lt_irrefl _)

/-- What a call has to be that has read a reply. -/
structure Heard (py : Python) (s : State) (n : ℕ) (c : Call) : Prop where
  sent : s.sentBy n = c.replies.length
  attempt : c.attempt + 1 = c.replies.length
  below : c.attempt < maxRetries c.request.url

/-- The call goes on to its next attempt, or ends. -/
lemma Sound.next {py : Python} {s s' : State} (h : Sound py s) {n : ℕ} {c : Call} {jitter : ℚ}
    (hn : s.calls[n]? = some c) (c' : Call) (hrequest : c'.request = c.request)
    (hheard : Heard py s n c')
    (halone : Attempts.again ⟨c'.attempt, c'.lastStatus, c'.lastBodyError, none⟩ c'.request.url =
      alone py c'.request.url c'.replies)
    (hnext : s.next n c' jitter = some s') : Sound py s' := by
  unfold Attempts.again at halone
  unfold State.next at hnext
  simp only at halone hnext
  split at hnext
  · next hlt =>
    rw [if_pos hlt] at halone
    have hwaiting : Waiting py s n { c' with attempt := c'.attempt + 1 } :=
      ⟨halone, hheard.sent, hheard.attempt, hlt⟩
    exact h.await hn (by exact hrequest) hwaiting hnext
  · next hlt =>
    rw [if_neg hlt] at halone
    have hle : c'.replies.length ≤ maxRetries c'.request.url := by
      rw [← hheard.attempt]
      exact hheard.below
    rw [← Option.some.inj hnext]
    exact h.set hn hrequest (fun i => by simp) ⟨halone, hheard.sent, hle⟩

/-- Call `n` reads a reply. -/
lemma Sound.reply {py : Python} {s s' : State} (h : Sound py s) {n : ℕ} {c : Call} {reply : Reply}
    {random jitter : ℚ} (hn : s.calls[n]? = some c) (hc : c.stage = .requested)
    (hreply : s.reply py n c reply random jitter = some s') : Sound py s' := by
  have hkept := h.kept n c hn
  obtain ⟨hsent, hattempt, hbelow⟩ : s.sentBy n = c.replies.length + 1 ∧
      c.attempt = c.replies.length ∧ c.attempt < maxRetries c.request.url := by
    have hcounts := hkept.counts
    rw [hc] at hcounts
    exact hcounts
  have hlength : (c.heard reply).replies.length = c.replies.length + 1 := List.length_append
  have hheard : Heard py s n (c.heard reply) :=
    ⟨hsent.trans hlength.symm, by rw [hlength, ← hattempt]; rfl, hbelow⟩
  have hle : (c.heard reply).replies.length ≤ maxRetries c.request.url := by
    rw [hlength, ← hattempt]
    exact hbelow
  -- the loop alone over one reply more
  have halone : Attempts.after ⟨c.attempt, statusAfter c.lastStatus reply, c.lastBodyError, none⟩
      c.request.url (read py c.request.url s.throttle.now reply) =
        alone py c.request.url (c.replies ++ [reply]) := by
    have hprogress : alone py c.request.url c.replies =
        ⟨c.attempt, c.lastStatus, c.lastBodyError, none⟩ := by
      rw [← hkept.alone]
      unfold Call.progress
      rw [hc]
      rfl
    unfold alone at hprogress ⊢
    rw [List.foldl_append, hprogress, after_read py c.request.url s.throttle.now 0]
    rfl
  unfold State.reply at hreply
  simp only at hreply
  have hurl : (c.heard reply).request.url = c.request.url := rfl
  rw [hurl] at hreply
  cases hread : read py c.request.url s.throttle.now reply with
  | returned value =>
    rw [hread] at hreply halone
    rw [← Option.some.inj hreply]
    exact h.set hn (by rfl) (fun i => by simp) ⟨halone, hheard.sent, hle⟩
  | raised e =>
    rw [hread] at hreply halone
    rw [← Option.some.inj hreply]
    exact h.set hn (by rfl) (fun i => by simp) ⟨halone, hheard.sent, hle⟩
  | falls =>
    rw [hread] at hreply halone
    exact h.next hn (c.heard reply) rfl hheard halone hreply
  | backoff retryUntil strong bodyError =>
    rw [hread] at hreply halone
    obtain ⟨throttle, hstep, hnext⟩ := Option.bind_eq_some_iff.mp hreply
    obtain ⟨hcallers, hgrants⟩ := KrakenThrottle.setBackoff_keeps hstep
    have hmoved := h.throttle_moves (h.throttle.step hstep) hcallers hgrants
    have hheard' : Heard py { s with throttle := throttle } n
        { c.heard reply with lastBodyError := bodyError.or c.lastBodyError } :=
      ⟨hheard.sent, hheard.attempt, hheard.below⟩
    exact hmoved.next hn _ (by rfl) hheard' halone hnext

/-- A call begins. -/
lemma Sound.makeRequest {py : Python} {s s' : State} (h : Sound py s)
    {r : KrakenThrottle.Request} {jitter : ℚ} (hstep : step py s (.makeRequest r jitter) = some s') :
    Sound py s' := by
  -- it is nowhere until it comes to `_await_throttle`
  have hnone : s.sentBy s.calls.length = 0 := by
    refine List.countP_eq_zero.mpr fun q hq => ?_
    obtain ⟨c, hc, -⟩ := h.owned q hq
    simpa using Nat.ne_of_lt (List.getElem?_eq_some_iff.mp hc).1
  have hlimit : 0 < maxRetries r.url := by
    unfold maxRetries
    split <;> norm_num
  have hat : ∀ (m : ℕ) (d : Call), (s.calls ++ [{ request := r }])[m]? = some d →
      (m = s.calls.length ∧ d = { request := r }) ∨ s.calls[m]? = some d := by
    intro m d hd
    rcases Nat.lt_trichotomy m s.calls.length with hlt | rfl | hlt
    · rw [List.getElem?_append_left hlt] at hd
      exact Or.inr hd
    · rw [List.getElem?_concat_length] at hd
      exact Or.inl ⟨rfl, (Option.some.inj hd).symm⟩
    · have hlast := (List.getElem?_eq_some_iff.mp hd).1
      rw [List.length_append, List.length_singleton] at hlast
      omega
  have hbegun : Sound py { s with calls := s.calls ++ [{ request := r }] } := by
    refine ⟨h.throttle, h.grants, ?_, ?_, ?_, ?_⟩
    · intro q hq
      obtain ⟨c, hc, hr⟩ := h.owned q hq
      refine ⟨c, ?_, hr⟩
      show (s.calls ++ [_])[q.call]? = some c
      rw [List.getElem?_append_left (List.getElem?_eq_some_iff.mp hc).1]
      exact hc
    · intro m d i hd hi
      rcases hat m d hd with ⟨-, rfl⟩ | hd
      · exact absurd hi (by simp)
      · exact h.waits m d i hd hi
    · intro m m' d d' i hd hd' hi hi'
      rcases hat m d hd with ⟨-, heq⟩ | hbefore
      · exact absurd hi (by simp [heq])
      · rcases hat m' d' hd' with ⟨-, heq'⟩ | hbefore'
        · exact absurd hi' (by simp [heq'])
        · exact h.apart m m' d d' i hbefore hbefore' hi hi'
    · intro m d hd
      rcases hat m d hd with ⟨rfl, rfl⟩ | hd
      · exact ⟨rfl, hnone.le.trans (Nat.zero_le _), rfl, hlimit⟩
      · exact ⟨(h.kept m d hd).alone, (h.kept m d hd).counts⟩
  have hn : (s.calls ++ [{ request := r }])[s.calls.length]? = some { request := r } :=
    List.getElem?_concat_length
  exact hbegun.await hn rfl ⟨rfl, hnone, rfl, hlimit⟩ hstep

/-- A call is cancelled. -/
lemma Sound.cancel {py : Python} {s s' : State} (h : Sound py s) {n : ℕ}
    (hstep : step py s (.cancel n) = some s') : Sound py s' := by
  simp only [KrakenRequests.step] at hstep
  split at hstep
  · next c hn =>
    have hkept := h.kept n c hn
    have halone := hkept.alone
    have hcounts := hkept.counts
    unfold Call.progress at halone
    split at hstep
    · next i hi =>
      rw [hi] at halone hcounts
      obtain ⟨throttle, hcancel, rfl⟩ := Option.map_eq_some_iff.mp hstep
      obtain ⟨wake, hasleep⟩ := h.waits n c i hn hi
      have hthrottle := h.throttle.step hcancel
      simp only [KrakenThrottle.step, hasleep] at hcancel
      obtain rfl := Option.some.inj hcancel
      have hput := h.put hn { c with stage := .cancelled }
        { s.throttle with callers := s.throttle.callers.set i .cancelled } [] rfl hthrottle
        (by simp) (fun q hq => absurd hq List.not_mem_nil) ?_ (fun j hj => absurd hj (by simp))
        halone ⟨hcounts.1.le.trans (Nat.le_succ _), hcounts.2.1, hcounts.2.2⟩
      · rw [List.append_nil] at hput
        exact hput
      · intro m d j hm hd hj
        have hne : i ≠ j := by
          rintro rfl
          exact hm (h.apart m n d c i hd hn hj hi)
        obtain ⟨wake', hwake'⟩ := h.waits m d j hd hj
        exact ⟨⟨wake', (List.getElem?_set_ne hne).trans hwake'⟩, by simp⟩
    · next hi =>
      rw [hi] at halone hcounts
      rw [← Option.some.inj hstep]
      exact h.set hn (by rfl) (fun i => by simp)
        ⟨halone, hcounts.1.le, hcounts.2.1, hcounts.2.2⟩
    · exact absurd hstep (by simp)
  · exact absurd hstep (by simp)

/-- Every step keeps the calls and the throttle in order. -/
lemma Sound.step {py : Python} {s s' : State} {e : Event} (h : Sound py s)
    (hstep : step py s e = some s') : Sound py s' := by
  cases e with
  | tick t =>
    obtain ⟨throttle, htick, rfl⟩ := Option.map_eq_some_iff.mp hstep
    have hsame : throttle.callers = s.throttle.callers ∧ throttle.grants = s.throttle.grants := by
      simp only [KrakenThrottle.step] at htick
      split at htick
      · rw [← Option.some.inj htick]
        exact ⟨rfl, rfl⟩
      · exact absurd htick (by simp)
    exact h.throttle_moves (h.throttle.step htick) hsame.1 hsame.2
  | makeRequest r jitter =>
    exact h.makeRequest hstep
  | wake n jitter =>
    simp only [KrakenRequests.step] at hstep
    split at hstep
    · next c hn =>
      split at hstep
      · next i hi =>
        obtain ⟨throttle, hwake, rfl⟩ := Option.map_eq_some_iff.mp hstep
        obtain ⟨wake, hasleep⟩ := h.waits n c i hn hi
        have hcounts := (h.kept n c hn).counts
        rw [hi] at hcounts
        have halone := (h.kept n c hn).alone
        unfold Call.progress at halone
        rw [hi] at halone
        refine h.settle hn rfl (h.throttle.step hwake)
          (KrakenThrottle.rounded_wake hasleep hwake) ?_
          ⟨halone, hcounts.1, hcounts.2.1, hcounts.2.2⟩
        intro m d hm hd hj
        exact hm (h.apart m n d c i hd hn hj hi)
      · exact absurd hstep (by simp)
    · exact absurd hstep (by simp)
  | reply n reply random jitter =>
    simp only [KrakenRequests.step] at hstep
    split at hstep
    · next c hn =>
      split at hstep
      · next hc => exact h.reply hn hc hstep
      · exact absurd hstep (by simp)
    · exact absurd hstep (by simp)
  | cancel n =>
    exact h.cancel hstep

lemma sound_of_run {py : Python} {now : ℚ} (hpos : 0 < now) {events : List Event} {s : State}
    (hrun : run (step py) { throttle := { now := now } } events = some s) : Sound py s :=
  invariant_of_run (fun _ _ _ hs hstep => hs.step hstep) (Sound.start py hpos) hrun

/-! ## Spacing -/

/-- Whatever is true of consecutive grants, by request and time, is true of consecutive
requests. -/
lemma Sound.isChain {py : Python} {s : State} (h : Sound py s)
    {R : KrakenThrottle.Request × ℚ → KrakenThrottle.Request × ℚ → Prop}
    (hgrants : s.throttle.grants.IsChain fun g g' => R (g.request, g.time) (g'.request, g'.time)) :
    s.requests.IsChain fun q q' => R (q.request, q.time) (q'.request, q'.time) := by
  have hmap := (List.isChain_map (R := R) fun g : Grant => (g.request, g.time)).mpr hgrants
  rw [← h.grants] at hmap
  exact (List.isChain_map (R := R) fun q : Sent => (q.request, q.time)).mp hmap

/-- The same for any two requests. -/
lemma Sound.pairwise {py : Python} {s : State} (h : Sound py s)
    {R : KrakenThrottle.Request × ℚ → KrakenThrottle.Request × ℚ → Prop}
    (hgrants : s.throttle.grants.Pairwise fun g g' => R (g.request, g.time) (g'.request, g'.time)) :
    s.requests.Pairwise fun q q' => R (q.request, q.time) (q'.request, q'.time) := by
  have hmap := (List.pairwise_map (R := R) (f := fun g : Grant => (g.request, g.time))).mpr hgrants
  rw [← h.grants] at hmap
  exact (List.pairwise_map (R := R)).mp hmap

/-- Whatever the calls of an adapter do, two of its requests are 200 ms apart, and 1100 ms where
they are for one endpoint and pair; no call sends more than its `max_retries`. -/
theorem requests_spaced (py : Python) (now : ℚ) (hpos : 0 < now) (events : List Event) (s : State)
    (hrun : run (step py) { throttle := { now := now } } events = some s) :
    s.requests.IsChain (fun q q' => q.time + 1 / 5 ≤ q'.time) ∧
      s.requests.Pairwise (fun q q' =>
        ∀ key, pairKey q.request = some key → pairKey q'.request = some key →
          q.time + 11 / 10 ≤ q'.time) ∧
      ∀ n c, s.calls[n]? = some c →
        (∀ q ∈ s.requests, q.call = n → q.request = c.request) ∧
          (s.requests.filter fun q => q.call = n).length ≤ maxRetries c.request.url := by
  have h := sound_of_run hpos hrun
  refine ⟨?_, ?_, ?_⟩
  · exact h.isChain (R := fun x y => x.2 + 1 / 5 ≤ y.2) (h.throttle.spaced.imp fun g g' hg => hg.1)
  · exact h.pairwise (R := fun x y => ∀ key, pairKey x.1 = some key → pairKey y.1 = some key →
      x.2 + 11 / 10 ≤ y.2) h.throttle.pairSpaced
  · intro n c hn
    refine ⟨?_, ?_⟩
    · intro q hq hcall
      obtain ⟨d, hd, hr⟩ := h.owned q hq
      rw [hcall, hn, Option.some.injEq] at hd
      rw [hr, hd]
    · have hcounts := (h.kept n c hn).counts
      rw [← List.countP_eq_length_filter]
      show s.sentBy n ≤ _
      exact hcounts.sent_le

/-- A language with one number. -/
def sampleTexts : Python :=
  { int := fun _ => none
    float := fun text => if text = "3" then some (.finite 3) else none
    str := fun _ => ""
    fixed0 := fun _ => ""
    isSpace := fun c => decide (c = ' ') }

/-- A 429 that says to wait three seconds. -/
def tooMany : Reply :=
  .response
    { status := 429, headers := fun name => if name = "Retry-After" then some "3" else none }

/-- A reply with a result. -/
def candles : Reply := .response { status := 200, json := .ok (.obj [("result", .obj [])]) }

/-- A request for candles of a pair. -/
def ohlcRequest : KrakenThrottle.Request :=
  ⟨"https://api.kraken.com/0/public/OHLC", some [("pair", .text "XBTUSD"), ("interval", .int 60)]⟩

/-- A request that names no pair. -/
def tickerRequest : KrakenThrottle.Request := ⟨"https://api.kraken.com/0/public/Ticker", none⟩

/-- Two calls at once: one sends, the other sleeps. -/
def twoBegin : List Event :=
  [.makeRequest ohlcRequest (1 / 100), .makeRequest tickerRequest (1 / 100)]

/-- After the 429 of the first: both come round again, and it has its reply. -/
def afterTooMany : List Event :=
  [.tick (801 / 100), .wake 1 (1 / 100), .wake 0 (1 / 100), .tick (922 / 100), .wake 0 (1 / 100),
    .reply 0 candles 0 (1 / 100)]

/-- The two calls, through the 429 of the first. -/
def twoRequests : List Event := twoBegin ++ .reply 0 tooMany 0 (1 / 100) :: afterTooMany

lemma twoRequests_run :
    ∃ s c, run (step sampleTexts) { throttle := { now := 5 } } twoRequests = some s ∧
      (s.requests.map fun q => (q.call, q.time)) = [(0, 5), (1, 801 / 100), (0, 922 / 100)] ∧
      s.calls[0]? = some c ∧ c.replies.length = 2 ∧ c.stage.result.isSome := by
  have hrun : (run (step sampleTexts) { throttle := { now := 5 } } twoRequests).any (fun s =>
      decide ((s.requests.map fun q => (q.call, q.time)) =
        [(0, 5), (1, 801 / 100), (0, 922 / 100)]) &&
      s.calls[0]?.any fun c => decide (c.replies.length = 2) && c.stage.result.isSome) = true := by
    decide +kernel
  obtain ⟨s, hs, hall⟩ := (Option.any_eq_true _ _).mp hrun
  obtain ⟨htimes, hcall⟩ := Bool.and_eq_true_iff.mp hall
  obtain ⟨c, hc, hends⟩ := (Option.any_eq_true _ _).mp hcall
  obtain ⟨hreplies, hended⟩ := Bool.and_eq_true_iff.mp hends
  exact ⟨s, c, hs, of_decide_eq_true htimes, hc, of_decide_eq_true hreplies, hended⟩

theorem requests_spaced_sample :
    ∃ s, run (step sampleTexts) { throttle := { now := 5 } } twoRequests = some s ∧
      (s.requests.map fun q => (q.call, q.time)) = [(0, 5), (1, 801 / 100), (0, 922 / 100)] ∧
      s.requests.IsChain fun q q' => q.time + 1 / 5 ≤ q'.time := by
  obtain ⟨s, c, hrun, htimes, -⟩ := twoRequests_run
  exact ⟨s, hrun, htimes, (requests_spaced sampleTexts 5 (by norm_num) _ s hrun).1⟩

/-- What a call comes to, and whether it has ended, its own replies decide, as if it were alone. -/
theorem call_as_if_alone (py : Python) (now : ℚ) (hpos : 0 < now) (events : List Event) (s : State)
    (hrun : run (step py) { throttle := { now := now } } events = some s) (n : ℕ) (c : Call)
    (hn : s.calls[n]? = some c) (result : Except Raised Json) :
    c.stage = .ended result ↔ (alone py c.request.url c.replies).result = some result := by
  have halone := ((sound_of_run hpos hrun).kept n c hn).alone
  rw [← halone]
  unfold Call.progress
  cases c.stage <;> simp [Stage.result]

theorem call_as_if_alone_sample :
    ∃ s c result, run (step sampleTexts) { throttle := { now := 5 } } twoRequests = some s ∧
      s.calls[0]? = some c ∧ c.replies.length = 2 ∧
      (alone sampleTexts c.request.url c.replies).result = some result := by
  obtain ⟨s, c, hrun, -, hc, hreplies, hended⟩ := twoRequests_run
  obtain ⟨result, hresult⟩ := Option.isSome_iff_exists.mp hended
  have hstage : c.stage = .ended result := by
    cases hc' : c.stage with
    | ended result' =>
      rw [hc'] at hresult
      rw [Option.some.inj hresult]
    | throttled i => exact absurd (hc' ▸ hresult) (by simp [Stage.result])
    | requested => exact absurd (hc' ▸ hresult) (by simp [Stage.result])
    | cancelled => exact absurd (hc' ▸ hresult) (by simp [Stage.result])
  exact ⟨s, c, result, hrun, hc, hreplies,
    (call_as_if_alone sampleTexts 5 (by norm_num) _ s hrun 0 c hc result).mp hstage⟩

/-! ## A backoff -/

/-- The throttle goes on by its own events, and requests are only added. -/
structure Moves (s s' : State) : Prop where
  throttle : ∃ events, run KrakenThrottle.step s.throttle events = some s'.throttle
  requests : s.requests <+: s'.requests

lemma Moves.refl (s : State) : Moves s s := ⟨⟨[], rfl⟩, List.prefix_refl _⟩

lemma Moves.trans {s s' s'' : State} (h : Moves s s') (h' : Moves s' s'') : Moves s s'' := by
  obtain ⟨events, hrun⟩ := h.throttle
  obtain ⟨events', hrun'⟩ := h'.throttle
  refine ⟨⟨events ++ events', ?_⟩, h.requests.trans h'.requests⟩
  rw [run_append, hrun, Option.bind_some]
  exact hrun'

/-- One event of the throttle, and then a state with that throttle and no request less. -/
lemma moves_of_step {s s' : State} {throttle : KrakenThrottle.State} {e : KrakenThrottle.Event}
    (hstep : KrakenThrottle.step s.throttle e = some throttle) (hth : s'.throttle = throttle)
    (hrequests : s.requests <+: s'.requests) : Moves s s' :=
  ⟨⟨[e], run_cons.mpr ⟨throttle, hstep, by rw [run_nil, hth]⟩⟩, hrequests⟩

lemma settle_throttle (s : State) (throttle : KrakenThrottle.State) (i n : ℕ) (c : Call) :
    (s.settle throttle i n c).throttle = throttle := by
  unfold State.settle
  split <;> rfl

lemma settle_requests (s : State) (throttle : KrakenThrottle.State) (i n : ℕ) (c : Call) :
    s.requests <+: (s.settle throttle i n c).requests := by
  unfold State.settle
  split
  · exact List.prefix_append _ _
  · exact List.prefix_refl _

lemma moves_await {s s' : State} {n : ℕ} {c : Call} {jitter : ℚ}
    (hawait : s.await n c jitter = some s') : Moves s s' := by
  obtain ⟨throttle, hstep, rfl⟩ := Option.map_eq_some_iff.mp hawait
  exact moves_of_step hstep (settle_throttle _ _ _ _ _) (settle_requests _ _ _ _ _)

/-- The next attempt is a run of the throttle, and keeps the requests that were sent. -/
lemma moves_next {s s' : State} {n : ℕ} {c : Call} {jitter : ℚ}
    (hnext : s.next n c jitter = some s') : Moves s s' := by
  unfold State.next at hnext
  simp only at hnext
  split at hnext
  · exact moves_await hnext
  · rw [← Option.some.inj hnext]
    exact ⟨⟨[], rfl⟩, List.prefix_refl _⟩

/-- What a backoff does, and then the next attempt. -/
lemma reply_backoff {py : Python} {s s' : State} {n : ℕ} {c : Call} {reply : Reply}
    {random jitter : ℚ} {retryUntil : Option PyFloat} {strong : Bool} {bodyError : Option String}
    (hread : read py c.request.url s.throttle.now reply = .backoff retryUntil strong bodyError)
    (hreply : s.reply py n c reply random jitter = some s') :
    KrakenThrottle.step s.throttle (.setBackoff c.attempt retryUntil strong random) =
        some (s.throttle.setBackoff c.attempt retryUntil strong random) ∧
      Moves { s with throttle := s.throttle.setBackoff c.attempt retryUntil strong random } s' := by
  unfold State.reply at hreply
  simp only at hreply
  have hurl : (c.heard reply).request.url = c.request.url := rfl
  rw [hurl, hread] at hreply
  obtain ⟨throttle, hstep, hnext⟩ := Option.bind_eq_some_iff.mp hreply
  have heq : throttle = s.throttle.setBackoff c.attempt retryUntil strong random := by
    simp only [KrakenThrottle.step] at hstep
    split at hstep
    · exact (Option.some.inj hstep).symm
    · exact absurd hstep (by simp)
  subst heq
  exact ⟨hstep, moves_next hnext⟩

/-- So is the handling of a reply. -/
lemma moves_reply {py : Python} {s s' : State} {n : ℕ} {c : Call} {reply : Reply}
    {random jitter : ℚ} (hreply : s.reply py n c reply random jitter = some s') : Moves s s' := by
  cases hread : read py c.request.url s.throttle.now reply with
  | backoff retryUntil strong bodyError =>
    obtain ⟨hstep, hmoves⟩ := reply_backoff hread hreply
    have hbacked : Moves s
        { s with throttle := s.throttle.setBackoff c.attempt retryUntil strong random } :=
      moves_of_step hstep rfl (List.prefix_refl _)
    exact hbacked.trans hmoves
  | returned value =>
    unfold State.reply at hreply
    have hurl : (c.heard reply).request.url = c.request.url := rfl
    simp only [hurl, hread] at hreply
    rw [← Option.some.inj hreply]
    exact ⟨⟨[], rfl⟩, List.prefix_refl _⟩
  | raised e =>
    unfold State.reply at hreply
    have hurl : (c.heard reply).request.url = c.request.url := rfl
    simp only [hurl, hread] at hreply
    rw [← Option.some.inj hreply]
    exact ⟨⟨[], rfl⟩, List.prefix_refl _⟩
  | falls =>
    unfold State.reply at hreply
    have hurl : (c.heard reply).request.url = c.request.url := rfl
    simp only [hurl, hread] at hreply
    exact moves_next hreply

/-- The throttle of the calls is one run of the throttle. -/
lemma moves_step {py : Python} {s s' : State} {e : Event} (hstep : step py s e = some s') :
    Moves s s' := by
  cases e with
  | tick t =>
    obtain ⟨throttle, htick, rfl⟩ := Option.map_eq_some_iff.mp hstep
    exact moves_of_step htick rfl (List.prefix_refl _)
  | makeRequest r jitter =>
    have hbegun : Moves s { s with calls := s.calls ++ [{ request := r }] } :=
      ⟨⟨[], rfl⟩, List.prefix_refl _⟩
    exact hbegun.trans (moves_await hstep)
  | wake n jitter =>
    simp only [KrakenRequests.step] at hstep
    split at hstep
    · next c hn =>
      split at hstep
      · obtain ⟨throttle, hwake, rfl⟩ := Option.map_eq_some_iff.mp hstep
        exact moves_of_step hwake (settle_throttle _ _ _ _ _) (settle_requests _ _ _ _ _)
      · exact absurd hstep (by simp)
    · exact absurd hstep (by simp)
  | reply n reply random jitter =>
    simp only [KrakenRequests.step] at hstep
    split at hstep
    · next c hn =>
      split at hstep
      · exact moves_reply hstep
      · exact absurd hstep (by simp)
    · exact absurd hstep (by simp)
  | cancel n =>
    simp only [KrakenRequests.step] at hstep
    split at hstep
    · next c hn =>
      split at hstep
      · obtain ⟨throttle, hcancel, rfl⟩ := Option.map_eq_some_iff.mp hstep
        exact moves_of_step hcancel rfl (List.prefix_refl _)
      · rw [← Option.some.inj hstep]
        exact ⟨⟨[], rfl⟩, List.prefix_refl _⟩
      · exact absurd hstep (by simp)
    · exact absurd hstep (by simp)

/-- A run of the calls is a run of the throttle, and keeps the requests that were sent. -/
lemma moves_run {py : Python} {s s' : State} {events : List Event}
    (hrun : run (step py) s events = some s') : Moves s s' := by
  have hkeeps : ∀ t e t', Moves s t → step py t e = some t' → Moves s t' :=
    fun t e t' ht hstep => ht.trans (moves_step hstep)
  exact invariant_of_run hkeeps (Moves.refl s) hrun

/-- What `_set_backoff` puts the deadlines to, at least. -/
lemma setBackoff_deadlines (s : KrakenThrottle.State) (attempt : ℕ) (retryUntil : Option PyFloat)
    (strong : Bool) (random : ℚ) :
    (s.now : WithTop ℚ) +
        (KrakenThrottle.retryWait s.now retryUntil).getD
          (KrakenThrottle.attemptWait attempt random) ≤
      (s.setBackoff attempt retryUntil strong random).backoffUntil ∧
    (strong = true →
      s.now + 60 ≤ (s.setBackoff attempt retryUntil strong random).slowdownUntil) := by
  cases strong with
  | false => exact ⟨le_max_right _ _, fun h => absurd h (by simp)⟩
  | true => exact ⟨le_max_right _ _, fun _ => le_max_right _ _⟩

/-- A reply that one call backs off on holds every call of the adapter: none of them sends before
the wait is over, and after a rate limit not twice within 1200 ms for a minute. -/
theorem backoff_holds_every_call (py : Python) (now : ℚ) (hpos : 0 < now)
    (events later : List Event) (s s' s'' : State) (hrun : run (step py) { throttle := { now := now } } events = some s)
    (n : ℕ) (c : Call) (hn : s.calls[n]? = some c) (reply : Reply) (random jitter : ℚ)
    (retryUntil : Option PyFloat) (strong : Bool) (bodyError : Option String)
    (hread : read py c.request.url s.throttle.now reply = .backoff retryUntil strong bodyError)
    (hstep : step py s (.reply n reply random jitter) = some s')
    (hlater : run (step py) s' later = some s'') :
    ∃ sent, s''.requests = s.requests ++ sent ∧
      (∀ q ∈ sent, (s.throttle.now : WithTop ℚ) +
        (KrakenThrottle.retryWait s.throttle.now retryUntil).getD
          (KrakenThrottle.attemptWait c.attempt random) ≤ (q.time : WithTop ℚ)) ∧
      (strong = true → sent.IsChain fun q q' =>
        q'.time < s.throttle.now + 60 → q.time + 6 / 5 ≤ q'.time) := by
  have hsound := sound_of_run hpos hrun
  have hsound' := sound_of_run hpos (run_concat hrun hstep)
  have hsound'' : Sound py s'' :=
    invariant_of_run (fun _ _ _ hs hstep => hs.step hstep) hsound' hlater
  have hreply : s.reply py n c reply random jitter = some s' := by
    simp only [KrakenRequests.step, hn] at hstep
    split at hstep
    · exact hstep
    · exact absurd hstep (by simp)
  obtain ⟨hback, hmoves⟩ := reply_backoff hread hreply
  obtain ⟨moved, hthrottle⟩ := (hmoves.trans (moves_run hlater)).throttle
  obtain ⟨sent, hsent⟩ := (hmoves.trans (moves_run hlater)).requests
  obtain ⟨granted, hgranted, hunder⟩ := KrakenThrottle.granted_along_run hthrottle
  obtain ⟨hwait, hslow⟩ := setBackoff_deadlines s.throttle c.attempt retryUntil strong random
  -- what was sent is what was granted since
  have hsame : sent.map (fun q => (q.request, q.time)) =
      granted.map fun g => (g.request, g.time) := by
    have hgrants := hsound''.grants
    rw [← hsent, hgranted, List.map_append, List.map_append,
      (KrakenThrottle.setBackoff_keeps hback).2, hsound.grants] at hgrants
    exact List.append_cancel_left hgrants
  refine ⟨sent, hsent.symm, ?_, ?_⟩
  · intro q hq
    have hmem : (q.request, q.time) ∈ granted.map fun g => (g.request, g.time) := by
      rw [← hsame]
      exact List.mem_map_of_mem hq
    obtain ⟨g, hg, heq⟩ := List.mem_map.mp hmem
    have hall : g ∈ s''.throttle.grants := by
      rw [hgranted]
      exact List.mem_append_right _ hg
    have htime : g.time = q.time := (Prod.mk.inj heq).2
    rw [← htime]
    exact hwait.trans ((hunder g hg).1.trans (hsound''.throttle.backoff g hall))
  · intro hstrong
    have hchain : granted.IsChain KrakenThrottle.Spaced := by
      have hspaced := hsound''.throttle.spaced
      rw [hgranted] at hspaced
      exact hspaced.right_of_append
    have hlong : granted.IsChain fun g g' =>
        g'.time < s.throttle.now + 60 → g.time + 6 / 5 ≤ g'.time := by
      refine hchain.imp_of_mem_imp fun g g' _ hg' hspaced hlt => hspaced.2 ?_
      exact lt_of_lt_of_le hlt ((hslow hstrong).trans (hunder g' hg').2)
    have hmap := (List.isChain_map (R := fun x y : KrakenThrottle.Request × ℚ =>
      y.2 < s.throttle.now + 60 → x.2 + 6 / 5 ≤ y.2) fun g : Grant => (g.request, g.time)).mpr hlong
    rw [← hsame] at hmap
    exact (List.isChain_map (R := fun x y : KrakenThrottle.Request × ℚ =>
      y.2 < s.throttle.now + 60 → x.2 + 6 / 5 ≤ y.2) fun q : Sent => (q.request, q.time)).mp hmap

theorem backoff_holds_every_call_sample :
    ∃ s s' sent, run (step sampleTexts) { throttle := { now := 5 } } twoBegin = some s ∧
      run (step sampleTexts) { throttle := { now := 5 } } twoRequests = some s' ∧
      s'.requests = s.requests ++ sent ∧ sent.length = 2 ∧
      (∀ q ∈ sent, 8 ≤ q.time) ∧
      sent.IsChain fun q q' => q'.time < 65 → q.time + 6 / 5 ≤ q'.time := by
  obtain ⟨s'', -, hall, htimes, -⟩ := twoRequests_run
  have hbegin : (run (step sampleTexts) { throttle := { now := 5 } } twoBegin).any (fun s =>
      decide (s.throttle.now = 5 ∧ s.requests.length = 1 ∧ 0 < s.calls.length)) = true := by
    decide +kernel
  obtain ⟨s, hs, hbegun⟩ := (Option.any_eq_true _ _).mp hbegin
  obtain ⟨hnow, hlength, hcalls⟩ := of_decide_eq_true hbegun
  have hrest := hall
  rw [twoRequests, run_append, hs, Option.bind_some] at hrest
  obtain ⟨s', hstep, hlater⟩ := run_cons.mp hrest
  have hread : read sampleTexts (s.calls.get ⟨0, hcalls⟩).request.url s.throttle.now tooMany =
      .backoff (some (.finite 8)) true none := by
    rw [hnow]
    simp [read, readResponse, retryHeader, tooMany, sampleTexts]
    norm_num
  obtain ⟨sent, hsent, hheld, hslow⟩ := backoff_holds_every_call sampleTexts 5 (by norm_num)
    twoBegin afterTooMany s s' s'' hs 0 _ (List.getElem?_eq_getElem hcalls) tooMany 0 (1 / 100) _ _ _ hread
    hstep hlater
  rw [hnow] at hheld hslow
  have hwait : KrakenThrottle.retryWait 5 (some (.finite 8)) = some ((3 : ℚ) : WithTop ℚ) := by
    unfold KrakenThrottle.retryWait
    norm_num
  refine ⟨s, s'', sent, hs, hall, hsent, ?_, ?_, ?_⟩
  · have hthree := congrArg List.length htimes
    rw [List.length_map, hsent, List.length_append, hlength] at hthree
    have hsum : 1 + sent.length = 3 := hthree
    omega
  · intro q hq
    have hle := hheld q hq
    rw [hwait, Option.getD_some, ← WithTop.coe_add] at hle
    have hle' := WithTop.coe_le_coe.mp hle
    linarith
  · refine (hslow rfl).imp fun q q' hq hlt => hq ?_
    linarith

end KrakenRequests
end ExchangeRouter
