import ExchangeRouter.Backend
import ExchangeRouter.MakeRequest

/-!
# `RemoteBackend.fetch`

The loop over whatever the transport hands back: a response of any status, headers and body, or
an exception. `httpx.TransportError` is asked for again, any other `httpx.HTTPError` is not, and
what `httpx` raises outside that class (`InvalidURL`) meets no `except` clause. The service that
answers is left open here. `Backend.lean` has the loop against the router's own service, with what
that answers, and `fetchLoop_matches` says that the two agree there.
-/

namespace ExchangeRouter
namespace RemoteFetch

open MakeRequest (Json PyFloat Response Texts)

/-! ## Outcomes -/

/-- How one `request` ends. An exception has the name of its class and its text. -/
inductive Outcome where
  | response (r : Response)
  | transportError (name message : String)
  | httpError (name message : String)
  | outside (message : String)

/-- An error that `error_for_status` makes. The detail of a body need not be a text. -/
structure StatusError where
  cls : ErrorClass
  detail : Json
  status : ℕ
  retryAfter : Option PyFloat := none

/-- How a call ends: `unreachable` is a `RouterUnreachable`, `escaped` an exception that is no
`RouterError`. -/
inductive Ending where
  | returned (body : Json)
  | raised (e : StatusError)
  | unreachable (detail : String)
  | escaped (message : String)

/-- A call: how many requests it sent, and how it ended. -/
structure Run where
  sent : ℕ
  ending : Ending

/-! ## Reading a response -/

/-- `_detail`. A body that is no dictionary has no `get`. -/
def detailOf (texts : Texts) (r : Response) : Json :=
  let fallback := Json.str (if r.text ≠ "" then r.text else "HTTP " ++ toString r.status)
  match r.json with
  | .error _ => fallback
  | .ok body =>
    match body.get? .null "detail", body.get? .null "error" with
    | some detail, some error =>
      if detail.truthy then detail
      else if error.truthy then error
      else .str (texts.str body)
    | _, _ => fallback

/-- `_retry_after`. -/
def retryAfterOf (texts : Texts) (r : Response) : Option PyFloat :=
  match r.headers "Retry-After" with
  | none => none
  | some raw => texts.float raw

/-- `error_for_status`, for any detail and any number of seconds. -/
def errorForStatus (status : ℕ) (detail : Json) (retryAfter : Option PyFloat) : StatusError :=
  if status = 400 then ⟨.badRequest, detail, status, none⟩
  else if status = 404 then ⟨.notFound, detail, status, none⟩
  else if status = 429 then ⟨.rateLimited, detail, status, none⟩
  else if status = 501 then ⟨.notSupported, detail, status, none⟩
  else if status = 503 then ⟨.upstreamUnavailable, detail, status, retryAfter⟩
  else ⟨.routerError, detail, status, none⟩

/-- The error of a response. -/
def errorOf (texts : Texts) (r : Response) : StatusError :=
  errorForStatus r.status (detailOf texts r) (retryAfterOf texts r)

/-! ## Waiting -/

/-- `_sleep_for`, with what `random.uniform(0, base)` draws. `min` of a NaN and `MAX_SLEEP_S` is
the NaN. -/
def sleepFor (attempt : ℕ) (jitter : ℚ) : Option PyFloat → PyFloat
  | some (.finite q) => .finite (min q 60)
  | some .inf => .finite 60
  | some .negInf => .negInf
  | some .nan => .nan
  | none => .finite (1 * attempt + jitter)

/-- What `asyncio.sleep` raises: from Python 3.13 on it refuses a NaN. -/
def sleepRaises (refusesNan : Bool) : PyFloat → Option String
  | .nan => if refusesNan then some "Invalid delay: NaN (not a number)" else none
  | _ => none

/-! ## The loop -/

/-- 2xx, where `raise_for_status` does not raise. -/
def Success (status : ℕ) : Prop := 200 ≤ status ∧ status < 300

instance (status : ℕ) : Decidable (Success status) := inferInstanceAs (Decidable (_ ∧ _))

/-- What an attempt comes to. `again` is counted, and carries what is raised where no retry is
left and the `Retry-After` that the wait goes by. -/
inductive Verdict where
  | ends (e : Ending)
  | again (e : Ending) (retryAfter : Option PyFloat)

/-- The `try` block and its `except` clauses, up to `attempt += 1`. No clause names the
`ValueError` that `response.json()` raises on a body that is no JSON. -/
def read (texts : Texts) : Outcome → Verdict
  | .response r =>
    if Success r.status then
      match r.json with
      | .ok body => .ends (.returned body)
      | .error message => .ends (.escaped message)
    else if r.status ∉ retriedStatuses then .ends (.raised (errorOf texts r))
    else .again (.raised (errorOf texts r)) (retryAfterOf texts r)
  | .transportError name message => .again (.unreachable (name ++ ": " ++ message)) none
  | .httpError name message => .ends (.unreachable (name ++ ": " ++ message))
  | .outside message => .ends (.escaped message)

/-- The `while True` of `fetch`, with the attempts that were made: `outcomes` are those of the
requests in turn, `jitter` the random parts of the waits. -/
def fetchLoop (texts : Texts) (refusesNan : Bool) (jitter : ℕ → ℚ) (maxRetries : ℤ)
    (outcomes : ℕ → Outcome) (attempt : ℕ) : Run :=
  match read texts (outcomes attempt) with
  | .ends e => ⟨attempt + 1, e⟩
  | .again e retryAfter =>
    if h : maxRetries < attempt + 1 then ⟨attempt + 1, e⟩
    else
      match sleepRaises refusesNan (sleepFor (attempt + 1) (jitter attempt) retryAfter) with
      | some message => ⟨attempt + 1, .escaped message⟩
      | none => fetchLoop texts refusesNan jitter maxRetries outcomes (attempt + 1)
termination_by (maxRetries - attempt).toNat
decreasing_by omega

/-- `RemoteBackend.fetch`. -/
def fetch (texts : Texts) (refusesNan : Bool) (jitter : ℕ → ℚ) (maxRetries : ℤ)
    (outcomes : ℕ → Outcome) : Run :=
  fetchLoop texts refusesNan jitter maxRetries outcomes 0

end RemoteFetch
end ExchangeRouter
