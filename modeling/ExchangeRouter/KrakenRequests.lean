import ExchangeRouter.KrakenThrottle

/-!
# `_make_request` of Kraken

Any number of calls of one adapter over its throttle. A call waits for a grant, sends, reads the
reply, backs off where it is told to, and comes round again, at most `max_retries` times; what it
waits in is a caller of `KrakenThrottle`. Between the return of `_await_throttle` and the request,
and between a reply and the first round of the next wait, nothing else runs: `_rate_lock` is never
held over an await.

`requests` records which call sent what when, and `replies` of a call what it has read; no code
reads them.
-/

namespace ExchangeRouter
namespace KrakenRequests

open MakeRequest (Json Response PyFloat Texts)
open KrakenThrottle (spotRestUrl)

/-! ## A reply -/

/-- The conversions of the language, and `str.isspace` of a character. -/
structure Python extends Texts where
  isSpace : Char → Bool

/-- What a request comes back with: a response, or an exception, a `ValueError` or another with its
class and text. -/
inductive Reply where
  | response (r : Response)
  | valueError (message : String)
  | raised (error : String)

/-- What a call raises. -/
inductive Raised where
  | valueError (message : String)
  | upstreamUnavailable (message : String)
deriving DecidableEq

/-- What the `try` statement does with a reply: an end of the call, a wait before the next attempt
with what `last_body_error` becomes, or nothing at all. -/
inductive Verdict where
  | returned (value : Json)
  | raised (e : Raised)
  | backoff (retryUntil : Option PyFloat) (strong : Bool) (bodyError : Option String)
  | falls

/-- `futures_chart_url`. -/
def futuresChartUrl : String := "https://futures.kraken.com/api/charts/v1"

/-- `"EService:Throttled:"`. -/
def throttledMark : List Char := "EService:Throttled:".toList

/-- What stands after the first occurrence of a pattern. -/
def afterFirst (pat : List Char) : List Char → Option (List Char)
  | [] => if pat = [] then some [] else none
  | c :: s => if pat <+: c :: s then some ((c :: s).drop pat.length) else afterFirst pat s

/-- `s.split()[0]`, `none` where it is an `IndexError`. -/
def firstWord (isSpace : Char → Bool) (s : List Char) : Option (List Char) :=
  match s.dropWhile isSpace with
  | [] => none
  | c :: s => some ((c :: s).takeWhile fun c => !isSpace c)

/-- `s.rstrip(chars)`. -/
def rstrip (chars : List Char) (s : List Char) : List Char := s.rdropWhile (· ∈ chars)

/-- `_parse_throttle_until`. -/
def parseThrottleUntil (py : Python) (errStr : String) : Option PyFloat := do
  let tail ← afterFirst throttledMark errStr.toList
  let stripped := (tail.dropWhile py.isSpace).rdropWhile py.isSpace
  let word ← firstWord py.isSpace (rstrip [']', '"', '\''] stripped)
  py.float (String.ofList (rstrip [']', '"', '\'', ','] word))

/-- `bool(x)` of a float or `None`. -/
def truthy : Option PyFloat → Bool
  | none => false
  | some (.finite q) => decide (q ≠ 0)
  | some _ => true

/-- `sub in s`. -/
def contains (sub s : String) : Bool := (afterFirst sub.toList s.toList).isSome

/-- `time.time() + float(ra)`, `None` where there is no header or no number in it. -/
def retryHeader (py : Python) (now : ℚ) (r : Response) : Option PyFloat :=
  match r.headers "Retry-After" with
  | none => none
  | some "" => none
  | some text => (py.float text).map fun
    | .finite q => .finite (now + q)
    | x => x

/-- The fields of a body that is a dictionary. -/
def fields? : Json → Option (List (String × Json))
  | .obj fields => some fields
  | _ => none

/-- A parsed body with status 200. -/
def readData (py : Python) (url : String) (data : Json) : Verdict :=
  match fields? data with
  | none => .returned data
  | some _ =>
    let err := (data.item? "error").getD .null
    if err.truthy then
      let errStr := py.str err
      let throttleUntil := parseThrottleUntil py errStr
      if truthy throttleUntil ∨ contains "Rate limit exceeded" errStr ∨
          contains "Too many requests" errStr then
        .backoff throttleUntil true (some errStr)
      else .raised (.valueError ("Kraken Spot API Error: " ++ errStr))
    else if ((data.item? "result").getD .null).isStr "error" then
      .raised (.valueError
        ("Kraken Futures API Error: " ++ py.str ((data.item? "errors").getD data)))
    else
      match data.item? "result" with
      | some (.obj result) =>
        if futuresChartUrl.toList <+: url.toList then .returned data else .returned (.obj result)
      | _ => .returned data

/-- A response, up to the end of the `try` statement. -/
def readResponse (py : Python) (url : String) (now : ℚ) (r : Response) : Verdict :=
  if r.status ∈ [429, 418, 502, 503, 504, 520] then
    .backoff (retryHeader py now r) (decide (r.status ∈ [429, 418])) none
  else if r.status = 200 then
    match r.json with
    | .error _ => .backoff none false (some "JSONDecodeError")
    | .ok data => readData py url data
  else if 200 ≤ r.status ∧ r.status < 300 then .falls
  else
    let message := "Kraken API Error (" ++ toString r.status ++ ") on " ++ url ++ ": " ++ r.text
    if 500 ≤ r.status then .raised (.upstreamUnavailable message) else .raised (.valueError message)

/-- The `try` statement, which reads its reply at `now`. -/
def read (py : Python) (url : String) (now : ℚ) : Reply → Verdict
  | .response r => readResponse py url now r
  | .valueError message => .raised (.valueError message)
  | .raised error => .backoff none false (some error)

/-! ## The calls -/

/-- `max_retries`. -/
def maxRetries (url : String) : ℕ := if spotRestUrl.toList <+: url.toList then 8 else 5

/-- Where a call stands: in `_await_throttle`, as the caller of that number, at its request, or
ended. -/
inductive Stage where
  | throttled (caller : ℕ)
  | requested
  | ended (result : Except Raised Json)
  | cancelled

/-- A call of `make_request`. `replies` are those it has had. -/
structure Call where
  request : KrakenThrottle.Request
  attempt : ℕ := 0
  lastStatus : Option ℕ := none
  lastBodyError : Option String := none
  stage : Stage := .cancelled
  replies : List Reply := []

/-- A request that was sent: by which call, what and when. -/
structure Sent where
  call : ℕ
  request : KrakenThrottle.Request
  time : ℚ
deriving DecidableEq

/-- The throttle, the calls, and the requests that were sent. -/
structure State where
  throttle : KrakenThrottle.State
  calls : List Call := []
  requests : List Sent := []

/-- The clock goes on; a call begins, wakes in its throttle, has a reply, or is cancelled. A
`jitter` and a `random` are what the two draws return. -/
inductive Event where
  | tick (t : ℚ)
  | makeRequest (r : KrakenThrottle.Request) (jitter : ℚ)
  | wake (n : ℕ) (jitter : ℚ)
  | reply (n : ℕ) (reply : Reply) (random jitter : ℚ)
  | cancel (n : ℕ)

/-- Call `n` after a round of its caller `i`: it sends, or sleeps. -/
def State.settle (s : State) (throttle : KrakenThrottle.State) (i n : ℕ) (c : Call) : State :=
  if throttle.callers[i]? = some .returned then
    { s with
      throttle := throttle
      calls := s.calls.set n { c with stage := .requested }
      requests := s.requests ++ [⟨n, c.request, throttle.now⟩] }
  else { s with throttle := throttle, calls := s.calls.set n { c with stage := .throttled i } }

/-- Call `n` comes to `_await_throttle`. -/
def State.await (s : State) (n : ℕ) (c : Call) (jitter : ℚ) : Option State :=
  (KrakenThrottle.step s.throttle (.awaitThrottle c.request jitter)).map fun throttle =>
    s.settle throttle s.throttle.callers.length n c

/-- The message of the last `raise`. -/
def exhausted (url : String) (lastStatus : Option ℕ) (lastBodyError : Option String) :
    String :=
  let status := match lastStatus with
    | none => "None"
    | some n => toString n
  "Kraken throttled or unavailable: " ++ url ++ " (last_status=" ++ status ++
    ", last_body_error=" ++ lastBodyError.getD "None" ++ ")"

/-- Call `n` comes to the end of an attempt: the next one, or the last `raise`. -/
def State.next (s : State) (n : ℕ) (c : Call) (jitter : ℚ) : Option State :=
  let c := { c with attempt := c.attempt + 1 }
  if c.attempt < maxRetries c.request.url then s.await n c jitter
  else
    some { s with calls := s.calls.set n { c with
      stage := .ended (.error (.upstreamUnavailable
        (exhausted c.request.url c.lastStatus c.lastBodyError))) } }

/-- `last_status` after a reply. -/
def statusAfter (lastStatus : Option ℕ) : Reply → Option ℕ
  | .response r => some r.status
  | .valueError _ => lastStatus
  | .raised _ => lastStatus

/-- The call once it has read a reply. -/
def Call.heard (c : Call) (reply : Reply) : Call :=
  { c with lastStatus := statusAfter c.lastStatus reply, replies := c.replies ++ [reply] }

/-- Call `n` reads its reply. -/
def State.reply (py : Python) (s : State) (n : ℕ) (c : Call) (reply : Reply) (random jitter : ℚ) :
    Option State :=
  let c := c.heard reply
  match read py c.request.url s.throttle.now reply with
  | .returned value => some { s with calls := s.calls.set n { c with stage := .ended (.ok value) } }
  | .raised e => some { s with calls := s.calls.set n { c with stage := .ended (.error e) } }
  | .falls => s.next n c jitter
  | .backoff retryUntil strong bodyError =>
    (KrakenThrottle.step s.throttle (.setBackoff c.attempt retryUntil strong random)).bind
      fun throttle => State.next { s with throttle := throttle } n
        { c with lastBodyError := bodyError.or c.lastBodyError } jitter

/-- A step of the calls and their throttle, `none` where the event cannot happen. -/
def step (py : Python) (s : State) : Event → Option State
  | .tick t =>
    (KrakenThrottle.step s.throttle (.tick t)).map fun throttle => { s with throttle := throttle }
  | .makeRequest r jitter =>
    State.await { s with calls := s.calls ++ [{ request := r }] } s.calls.length { request := r }
      jitter
  | .wake n jitter =>
    match s.calls[n]? with
    | some c =>
      match c.stage with
      | .throttled i =>
        (KrakenThrottle.step s.throttle (.wake i jitter)).map fun throttle =>
          s.settle throttle i n c
      | _ => none
    | none => none
  | .reply n reply random jitter =>
    match s.calls[n]? with
    | some c =>
      match c.stage with
      | .requested => s.reply py n c reply random jitter
      | _ => none
    | none => none
  | .cancel n =>
    match s.calls[n]? with
    | some c =>
      match c.stage with
      | .throttled i =>
        (KrakenThrottle.step s.throttle (.cancel i)).map fun throttle =>
          { s with throttle := throttle, calls := s.calls.set n { c with stage := .cancelled } }
      | .requested => some { s with calls := s.calls.set n { c with stage := .cancelled } }
      | _ => none
    | none => none

end KrakenRequests
end ExchangeRouter
