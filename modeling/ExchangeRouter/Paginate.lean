import ExchangeRouter.Errors
import ExchangeRouter.Lib.Newest

/-!
# `_paginate_backwards`

The walk of `BaseExchange` from the newest page of a history to older ones. A page is
asked for by the timestamp it may end at (`none` on the first page, where the adapter
puts its own `start_time`), the next page by the oldest timestamp of this one, and a
record that a page repeats is dropped by its `model_dump_json()`.

The upstream is a function of the request's number and of the request, so it may answer
the same anchor differently each time. `asked` records the requests, in order.
-/

namespace ExchangeRouter

/-- One call of `fetch_func_by_end`: the anchor and the page size. -/
structure PageRequest where
  endTs : Option ℤ
  limit : ℤ
deriving DecidableEq, Repr

/-- `end_ts if end_ts is not None else start_time`, the first line of the adapters' fetches. -/
def anchor (endTs startTime : Option ℤ) : Option ℤ :=
  match endTs with
  | some e => some e
  | none => startTime

@[simp] lemma anchor_none (startTime : Option ℤ) : anchor none startTime = startTime := rfl

@[simp] lemma anchor_some (e : ℤ) (startTime : Option ℤ) : anchor (some e) startTime = some e := rfl

/-- What the upstream answers to request number `n` of a call. -/
abbrev Upstream (α : Type*) := ℕ → PageRequest → Except Fault (List α)

/-- A read that has come to its end: the requests it sent and what it returned or raised. -/
structure Call (α : Type*) where
  asked : List PageRequest
  result : Except Fault (List α)

/-- Python's `xs[-n:]`. -/
def sliceTail {α : Type*} (xs : List α) (n : ℤ) : List α :=
  if 0 < n then xs.rtake n.toNat else xs.drop (-n).toNat

/-- The local variables of the walk. -/
structure PageState (α κ : Type*) where
  chunks : List (List α) := []
  seen : List κ := []
  collected : ℕ := 0
  currentEnd : Option ℤ := none
  reqCount : ℕ := 0
  asked : List PageRequest := []

/-- How the body of the loop ends: by `break` or an exception, or by going round again. -/
inductive PageStep (α κ : Type*) where
  | stop (s : PageState α κ) (fault : Option Fault)
  | again (s : PageState α κ)

/-- `max_requests`. -/
def maxRequests : ℕ := 100

section

variable {α κ : Type*} [DecidableEq κ] (timestamp : α → ℤ) (modelDumpJson : α → κ)

/-- The `seen` loop: the records of a batch whose dump is new, and the dumps seen by then. -/
def dropSeen : List κ → List α → List α × List κ
  | seen, [] => ([], seen)
  | seen, x :: xs =>
    if modelDumpJson x ∈ seen then dropSeen seen xs
    else
      let rest := dropSeen (modelDumpJson x :: seen) xs
      (x :: rest.1, rest.2)

/-- `next_end <= 0 or (current_end is not None and next_end >= current_end)`. -/
def stalled (currentEnd : Option ℤ) (nextEnd : ℤ) : Bool :=
  decide (nextEnd ≤ 0) || currentEnd.any fun a => decide (a ≤ nextEnd)

/-- The request of this round has gone out. -/
def PageState.sent (s : PageState α κ) (request : PageRequest) : PageState α κ :=
  { s with asked := s.asked ++ [request] }

/-- The page's new records are in. -/
def PageState.absorb (s : PageState α κ) (newItems : List α) (seen : List κ) : PageState α κ :=
  { s with
    chunks := s.chunks ++ [newItems]
    seen := seen
    collected := s.collected + newItems.length
    reqCount := s.reqCount + 1 }

/-- The body of the loop, once `collected < total_limit and req_count < max_requests`. -/
def pageStep (fetchFuncByEnd : Upstream α) (limitPerReq : ℤ) (s : PageState α κ) :
    PageStep α κ :=
  let request : PageRequest := ⟨s.currentEnd, limitPerReq⟩
  match fetchFuncByEnd s.reqCount request with
  -- the `except` clause breaks out of the loop on any page
  | .error e => .stop (s.sent request) (if e.isRejection then none else some e)
  | .ok batch =>
    match Newest.sortByTime timestamp batch with
    | [] => .stop (s.sent request) none
    | oldest :: rest =>
      match dropSeen modelDumpJson s.seen (oldest :: rest) with
      -- a page that repeats records only is the last one
      | ([], _) => .stop (s.sent request) none
      | (newItems, seen) =>
        let s := (s.sent request).absorb newItems seen
        if stalled s.currentEnd (timestamp oldest) then .stop s none
        else .again { s with currentEnd := some (timestamp oldest) }

/-- The `while` loop, by the requests it may still send. -/
def pageLoop (fetchFuncByEnd : Upstream α) (totalLimit limitPerReq : ℤ) :
    ℕ → PageState α κ → PageState α κ × Option Fault
  | 0, s => (s, none)
  | left + 1, s =>
    if (s.collected : ℤ) < totalLimit then
      match pageStep timestamp modelDumpJson fetchFuncByEnd limitPerReq s with
      | .stop s fault => (s, fault)
      | .again s => pageLoop fetchFuncByEnd totalLimit limitPerReq left s
    else (s, none)

/-- Where the walk ends, with the exception that ended it when one did. -/
def pageRun (fetchFuncByEnd : Upstream α) (totalLimit limitPerReq : ℤ) :
    PageState α κ × Option Fault :=
  pageLoop timestamp modelDumpJson fetchFuncByEnd totalLimit limitPerReq maxRequests {}

/-- The `safety cap` warning: the cap ended the walk before it had what was asked for. -/
def PageState.truncated (s : PageState α κ) (totalLimit : ℤ) : Prop :=
  maxRequests ≤ s.reqCount ∧ (s.collected : ℤ) < totalLimit

/-- The records of the walk, oldest page first. -/
def PageState.out (s : PageState α κ) : List α :=
  Newest.sortByTime timestamp s.chunks.reverse.flatten

/-- `paginate_backwards`. -/
def paginateBackwards (fetchFuncByEnd : Upstream α) (totalLimit limitPerReq : ℤ) : Call α :=
  let run := pageRun timestamp modelDumpJson fetchFuncByEnd totalLimit limitPerReq
  { asked := run.1.asked
    result := match run.2 with
      | some e => .error e
      | none => .ok (sliceTail (run.1.out timestamp) totalLimit) }

end

end ExchangeRouter
