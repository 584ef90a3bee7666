import ExchangeRouter.MakeRequest
import Mathlib.Logic.Function.Basic

/-!
# The backoff window

Any number of `_make_request` calls of one Bybit, OKX or KuCoin adapter, which share
`_backoff_until`. A stretch is what a call does between two awaits: the check at the head of the
loop, the sleep and what follows it, the reading of a reply. Where nothing is awaited the next
round's check is in the same stretch. OKX passes each request through a semaphore and a rate
bucket, `gate`, and the others send at once.

`sends` are the times of the requests, and `raises` the moves of the deadline: the time, and
where it was moved to. `_backoff_lock` and the locks of the buckets are held over no await.
-/

namespace ExchangeRouter
namespace Backoff

open MakeRequest

/-- The rate buckets of OKX. -/
inductive Bucket where
  | rubik
  | default
deriving DecidableEq, Repr

/-- The semaphore and the rate buckets. -/
structure Gate where
  slots : ℕ
  bucketOf : String → Bucket
  maxRequests : Bucket → ℕ
  window : ℚ

/-- An adapter, by the base address and the endpoint of a request. What it reads from a reply
moves the deadline later or not at all. -/
structure Adapter where
  venue : String → String → Venue
  gate : Option Gate
  never_earlier : ∀ base endpoint retries now deadline reply,
    deadline ≤ ((venue base endpoint).read retries now deadline reply).1

/-! ## The three adapters -/

/-- A `try` block that moves the deadline later or not at all, in the headers and in the body. -/
lemma le_read {v : Venue}
    (hheaders : ∀ now deadline r deadline', v.readHeaders now deadline r = .ok deadline' →
      deadline ≤ deadline')
    (hbody : ∀ retries now deadline r, deadline ≤ (v.body retries now deadline r).1)
    (retries : ℕ) (now : ℚ) (deadline : WithTop ℚ) (reply : Reply) :
    deadline ≤ (v.read retries now deadline reply).1 := by
  cases reply with
  | transportError => exact le_rfl
  | response r =>
    show deadline ≤ (v.tryBlock retries now deadline r).1
    unfold Venue.tryBlock
    split
    · exact le_rfl
    · next deadline' hread => exact (hheaders _ _ _ _ hread).trans (hbody _ _ _ _)

/-- No header is read. -/
lemma le_of_ok {deadline deadline' : WithTop ℚ}
    (h : (.ok deadline : Except Exc (WithTop ℚ)) = .ok deadline') : deadline ≤ deadline' := by
  injection h with h
  exact h.le

lemma Bybit.le_readHeaders {texts : Texts} {now : ℚ} {deadline deadline' : WithTop ℚ}
    {r : Response} (h : MakeRequest.Bybit.readHeaders texts now deadline r = .ok deadline') :
    deadline ≤ deadline' := by
  unfold MakeRequest.Bybit.readHeaders at h
  split at h
  · cases h
  · split at h
    · cases hreset : MakeRequest.Bybit.resetTime texts now r with
      | error e =>
        rw [hreset] at h
        cases h
      | ok reset =>
        rw [hreset] at h
        injection h with h
        rw [← h]
        exact le_max_left _ _
    · exact le_of_ok h

lemma Bybit.le_body (texts : Texts) (now : ℚ) (deadline : WithTop ℚ) (r : Response) :
    deadline ≤ (MakeRequest.Bybit.body texts now deadline r).1 := by
  unfold MakeRequest.Bybit.body
  split
  · split
    · exact le_rfl
    · unfold MakeRequest.Bybit.readData
      split
      · exact le_rfl
      · split
        · exact le_max_left _ _
        · split
          · split <;> exact le_rfl
          · split <;> exact le_rfl
  · split
    · exact le_max_left _ _
    · split
      · exact le_max_left _ _
      · exact le_rfl

lemma Kucoin.le_body (texts : Texts) (now : ℚ) (deadline : WithTop ℚ) (r : Response) :
    deadline ≤ (MakeRequest.Kucoin.body texts now deadline r).1 := by
  unfold MakeRequest.Kucoin.body
  split
  · exact le_max_left _ _
  · split <;> exact le_rfl

lemma Okx.le_extend (texts : Texts) (now : ℚ) (deadline : WithTop ℚ) (r : Response) :
    deadline ≤ MakeRequest.Okx.extend texts now deadline r := by
  unfold MakeRequest.Okx.extend
  split
  · exact le_max_left _ _
  · exact le_max_left _ _
  · split
    · exact le_max_left _ _
    · exact le_max_left _ _
    · exact le_top
    · exact le_max_left _ _
    · exact le_rfl

lemma Okx.le_body (texts : Texts) (now : ℚ) (deadline : WithTop ℚ) (r : Response) :
    deadline ≤ (MakeRequest.Okx.body texts now deadline r).1 := by
  unfold MakeRequest.Okx.body
  split
  · exact Okx.le_extend texts now deadline r
  · split <;> exact le_rfl

/-- Bybit's `make_request`. -/
def bybit (texts : Texts) : Adapter where
  venue := MakeRequest.Bybit.venue texts
  gate := none
  never_earlier := fun _ _ => le_read (fun _ _ _ _ => Bybit.le_readHeaders)
    fun _ now deadline r => Bybit.le_body texts now deadline r

/-- KuCoin's `make_request`. -/
def kucoin (texts : Texts) : Adapter where
  venue := MakeRequest.Kucoin.venue texts
  gate := none
  never_earlier := fun _ _ => le_read (fun _ _ _ _ => le_of_ok)
    fun _ now deadline r => Kucoin.le_body texts now deadline r

/-- `_request_sem`, `_bucket_rubik` and `_bucket_default`. -/
def okxGate : Gate where
  slots := 40
  bucketOf := fun endpoint =>
    if (endpoint.splitOn "/rubik/stat/").length = 1 then .default else .rubik
  maxRequests := fun
    | .rubik => 4
    | .default => 18
  window := 2

/-- OKX's `make_request`, behind its gate. -/
def okx (texts : Texts) : Adapter where
  venue := MakeRequest.Okx.venue texts
  gate := some okxGate
  never_earlier := fun _ _ => le_read (fun _ _ _ _ => le_of_ok)
    fun _ now deadline r => Okx.le_body texts now deadline r

/-! ## The calls -/

/-- Where a call awaits. `asleep` is the sleep that the check orders, and `pausing` the second
after a fault. -/
inductive Phase where
  | asleep (wake : WithTop ℚ)
  | atSlot
  | inBucket (wake : ℚ)
  | inFlight
  | pausing (wake : ℚ)
  | ended
deriving DecidableEq

/-- A call of `make_request`: what it asks for, its retries and where it stands. -/
structure Call where
  base : String
  endpoint : String
  retries : ℕ
  phase : Phase

/-- The adapter's clock, deadline and calls. -/
structure State where
  now : ℚ
  deadline : WithTop ℚ := (0 : ℚ)
  calls : List Call := []
  slotsTaken : ℕ := 0
  timestamps : Bucket → List ℚ := fun _ => []
  sends : List ℚ := []
  raises : List (ℚ × WithTop ℚ) := []

/-- The clock goes on, or call `i` makes a stretch. A `jitter` is what `random.uniform` returns
in it. -/
inductive Event where
  | tick (t : ℚ)
  | start (base endpoint : String) (jitter : ℚ)
  | wake (i : ℕ)
  | slot (i : ℕ) (jitter : ℚ)
  | bucketWake (i : ℕ) (jitter : ℚ)
  | reply (i : ℕ) (r : Reply) (jitter : ℚ)
  | resume (i : ℕ) (jitter : ℚ)

/-- Call `i` comes to `phase`. -/
def State.setPhase (s : State) (i : ℕ) (c : Call) (phase : Phase) : State :=
  { s with calls := s.calls.set i { c with phase := phase } }

/-- `self.http_client.request`. -/
def State.send (s : State) (i : ℕ) (c : Call) : State :=
  { s with sends := s.sends ++ [s.now] }.setPhase i c .inFlight

/-- From the `try` to the next await. -/
def State.issue (a : Adapter) (s : State) (i : ℕ) (c : Call) : State :=
  match a.gate with
  | none => s.send i c
  | some _ => s.setPhase i c .atSlot

/-- The head of the loop, and past the loop. -/
def State.head (a : Adapter) (s : State) (i : ℕ) (c : Call) (jitter : ℚ) : State :=
  if c.retries = 0 then s.setPhase i c .ended
  else if ((a.venue c.base c.endpoint).refuse s.now s.deadline).isSome then s.setPhase i c .ended
  else if (s.now : WithTop ℚ) < s.deadline then
    s.setPhase i c (.asleep (s.deadline + (jitter : WithTop ℚ)))
  else s.issue a i c

/-- One round of `bucket.acquire`, with the request that follows it. -/
def State.throughBucket (g : Gate) (s : State) (i : ℕ) (c : Call) (jitter : ℚ) : State :=
  let bucket := g.bucketOf c.endpoint
  let kept := (s.timestamps bucket).dropWhile fun t => t < s.now - g.window
  if kept.length < g.maxRequests bucket then
    { s with timestamps := Function.update s.timestamps bucket (kept ++ [s.now]) }.send i c
  else
    let wait := kept.headD 0 + g.window - s.now
    { s with timestamps := Function.update s.timestamps bucket kept }.setPhase i c
      (.inBucket (s.now + max wait (1 / 100) + jitter))

/-- The deadline after a reply. -/
def State.deadlineAfter (a : Adapter) (s : State) (c : Call) (r : Reply) : WithTop ℚ :=
  ((a.venue c.base c.endpoint).read c.retries s.now s.deadline r).1

/-- The `try` statement writes the deadline, and the semaphore was left before. -/
def State.written (a : Adapter) (s : State) (c : Call) (r : Reply) : State :=
  let deadline := s.deadlineAfter a c r
  { s with
    deadline := deadline
    raises := if s.deadline < deadline then s.raises ++ [(s.now, deadline)] else s.raises
    slotsTaken := s.slotsTaken - 1 }

/-- What the call does after a reply. -/
def State.reply (a : Adapter) (s : State) (i : ℕ) (c : Call) (r : Reply) (jitter : ℚ) : State :=
  let s' := s.written a c r
  match ((a.venue c.base c.endpoint).read c.retries s.now s.deadline r).2 with
  | .returned _ => s'.setPhase i c .ended
  | .raised _ => s'.setPhase i c .ended
  | .retry false => s'.head a i { c with retries := c.retries - 1 } jitter
  | .retry true => s'.setPhase i { c with retries := c.retries - 1 } (.pausing (s.now + 1))
  | .again => s'.head a i c jitter

/-- `random.uniform(0.05, 1.0)`. -/
def isJitter (jitter : ℚ) : Bool := decide (1 / 20 ≤ jitter ∧ jitter ≤ 1)

/-- A step of the adapter, `none` where the event cannot happen. -/
def step (a : Adapter) (s : State) : Event → Option State
  | .tick t => if s.now ≤ t then some { s with now := t } else none
  | .start base endpoint jitter =>
    let c : Call := { base := base, endpoint := endpoint, retries := 3, phase := .ended }
    if isJitter jitter then
      some ({ s with calls := s.calls ++ [c] }.head a s.calls.length c jitter)
    else none
  | .wake i =>
    match s.calls[i]? with
    | some c =>
      match c.phase with
      | .asleep wake => if wake ≤ (s.now : WithTop ℚ) then some (s.issue a i c) else none
      | _ => none
    | none => none
  | .slot i jitter =>
    match s.calls[i]?, a.gate with
    | some c, some g =>
      if c.phase = .atSlot ∧ s.slotsTaken < g.slots ∧ 0 ≤ jitter ∧ jitter ≤ 1 / 20 then
        some ({ s with slotsTaken := s.slotsTaken + 1 }.throughBucket g i c jitter)
      else none
    | _, _ => none
  | .bucketWake i jitter =>
    match s.calls[i]?, a.gate with
    | some c, some g =>
      match c.phase with
      | .inBucket wake =>
        if wake ≤ s.now ∧ 0 ≤ jitter ∧ jitter ≤ 1 / 20 then some (s.throughBucket g i c jitter)
        else none
      | _ => none
    | _, _ => none
  | .reply i r jitter =>
    match s.calls[i]? with
    | some c =>
      if c.phase = .inFlight ∧ isJitter jitter then some (s.reply a i c r jitter) else none
    | none => none
  | .resume i jitter =>
    match s.calls[i]? with
    | some c =>
      match c.phase with
      | .pausing wake =>
        if wake ≤ s.now ∧ isJitter jitter then some (s.head a i c jitter) else none
      | _ => none
    | none => none

/-! ## Windows -/

/-- How many requests were sent strictly between the move of a deadline and the deadline. -/
def State.sentWithin (s : State) (window : ℚ × WithTop ℚ) : ℕ :=
  s.sends.countP fun t => decide (window.1 < t ∧ (t : WithTop ℚ) < window.2)

/-- The call is past its check, and may send before `d` without another. -/
def Phase.isStale (d : WithTop ℚ) : Phase → Bool
  | asleep wake => decide (wake < d)
  | atSlot => true
  | inBucket wake => decide ((wake : WithTop ℚ) < d)
  | _ => false

/-- How many calls are. -/
def State.stale (s : State) (d : WithTop ℚ) : ℕ := s.calls.countP fun c => c.phase.isStale d

/-- A reply moves the deadline to a later time to come, while two calls are past their check and
may send before it. -/
def State.crowded (a : Adapter) (s : State) : Event → Bool
  | .reply i r _ =>
    match s.calls[i]? with
    | some c =>
      let d := s.deadlineAfter a c r
      decide (s.deadline < d ∧ (s.now : WithTop ℚ) < d ∧ 1 < s.stale d)
    | none => false
  | _ => false

end Backoff
end ExchangeRouter
