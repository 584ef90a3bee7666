import Mathlib.Data.Rat.Cast.Order
import Mathlib.Algebra.Order.Monoid.WithTop
import Mathlib.Algebra.Order.Ring.Rat
import Mathlib.Data.Nat.Notation

/-!
# `_make_request`

The retry loop of the Binance, Bybit, KuCoin, OKX and Hyperliquid adapters. The five are one
loop: wait out `_backoff_until` or fail fast on it, send, and read the reply in a `try` block
whose `except` clauses decide what an exception does. A `Venue` is what they differ in.

Times are numbers of seconds, and the deadline may be infinite: OKX takes `float()` of a header.
`time.time()` is read once for a stretch without an await. The client does not follow redirects,
and its `raise_for_status` raises exactly on the statuses that are not 2xx.
-/

namespace ExchangeRouter
namespace MakeRequest

/-! ## Replies -/

/-- A parsed JSON value. An object keeps its keys as they came. -/
inductive Json where
  | null
  | bool (b : Bool)
  | num (q : ℚ)
  | str (s : String)
  | arr (xs : List Json)
  | obj (fields : List (String × Json))

namespace Json

/-- `data[key]`, `none` where it raises a `KeyError` or a `TypeError`. -/
def item? : Json → String → Option Json
  | obj fields, key => (fields.find? fun f => f.1 = key).map Prod.snd
  | _, _ => none

/-- `body.get(key, default)`, `none` where `body` is no dictionary. -/
def get? : Json → Json → String → Option Json
  | obj fields, default, key =>
    some (((fields.find? fun f => f.1 = key).map Prod.snd).getD default)
  | _, _, _ => none

/-- `value == n`: in Python `True` is 1 and `False` is 0. -/
def isInt (n : ℤ) : Json → Bool
  | num q => decide (q = n)
  | bool b => decide ((if b then 1 else 0) = n)
  | _ => false

/-- `value == s`. -/
def isStr (s : String) : Json → Bool
  | str t => decide (t = s)
  | _ => false

/-- `bool(value)`. -/
def truthy : Json → Bool
  | null => false
  | bool b => b
  | num q => decide (q ≠ 0)
  | str s => decide (s ≠ "")
  | arr xs => !xs.isEmpty
  | obj fields => !fields.isEmpty

/-- `result.setdefault(key, value)`. -/
def setDefault : Json → String → Json → Json
  | obj fields, key, value =>
    if (fields.find? fun f => f.1 = key).isSome then obj fields else obj (fields ++ [(key, value)])
  | other, _, _ => other

end Json

/-- `resp.json()` may raise, a `ValueError` with a text. -/
structure Response where
  status : ℕ
  headers : String → Option String := fun _ => none
  json : Except String Json := .ok .null
  text : String := ""

/-- What `http_client.request` comes back with: a response, or an exception of the transport. -/
inductive Reply where
  | response (r : Response)
  | transportError

/-- What `float()` makes of a text. -/
inductive PyFloat where
  | finite (q : ℚ)
  | inf
  | negInf
  | nan
deriving DecidableEq, Repr

/-- The conversions of the language: `int(s)` and `float(s)`, `none` where they raise, `str` of
a parsed value, and a number of seconds in `:.0f`. -/
structure Texts where
  int : String → Option ℤ
  float : String → Option PyFloat
  str : Json → String
  fixed0 : WithTop ℚ → String

/-- `float(n)` of an `int`, `none` where it raises an `OverflowError`. -/
def floatOfInt (n : ℤ) : Option ℚ := if |n| < 2 ^ 1024 - 2 ^ 970 then some n else none

/-! ## How a round ends -/

/-- What a call raises. -/
inductive Raised where
  | valueError (message : String)
  | httpStatusError (status : ℕ)
  | upstreamUnavailable (message : String) (retryAfter : Option (WithTop ℚ))

/-- What is raised in the `try` block, by the classes that the `except` clauses tell apart. -/
inductive Exc where
  | httpStatus (r : Response)
  | valueError (message : String)
  | unavailable (message : String) (retryAfter : Option (WithTop ℚ))
  | other

/-- How the `try` block ends: `continues` is `retries -= 1` and `continue`, and a block that
falls off its end does neither. -/
inductive TryEnd where
  | returns (value : Json)
  | continues
  | falls
  | raises (e : Exc)

/-- What a round comes to. A retry counts, and may sleep a second. -/
inductive Verdict where
  | returned (value : Json)
  | raised (e : Raised)
  | retry (pause : Bool)
  | again

/-- The round ends the call. -/
def Verdict.final : Verdict → Bool
  | returned _ => true
  | raised _ => true
  | retry _ => false
  | again => false

/-- The end of a `try` block: `resp.raise_for_status()`. -/
def raiseForStatus (r : Response) : TryEnd :=
  if 200 ≤ r.status ∧ r.status < 300 then .falls else .raises (.httpStatus r)

/-- What the adapters differ in. `readHeaders` and `body` are the `try` block, from the time and
the deadline to the deadline and the end; `handle` is its `except` clauses. -/
structure Venue where
  failFast : Option ℚ
  refusal : WithTop ℚ → String
  readHeaders : ℚ → WithTop ℚ → Response → Except Exc (WithTop ℚ) := fun _ deadline _ => .ok deadline
  body : ℕ → ℚ → WithTop ℚ → Response → WithTop ℚ × TryEnd
  handle : Exc → Verdict
  exhausted : String

/-- The `try` block once there is a response: the deadline after it, and its end. -/
def Venue.tryBlock (v : Venue) (retries : ℕ) (now : ℚ) (deadline : WithTop ℚ) (r : Response) :
    WithTop ℚ × TryEnd :=
  match v.readHeaders now deadline r with
  | .error e => (deadline, .raises e)
  | .ok deadline => v.body retries now deadline r

/-- What the end of the block means, the `except` clauses included. -/
def Venue.verdict (v : Venue) : TryEnd → Verdict
  | .returns value => .returned value
  | .continues => .retry false
  | .falls => .again
  | .raises e => v.handle e

/-- The `try` statement: the deadline after it, and the verdict. -/
def Venue.read (v : Venue) (retries : ℕ) (now : ℚ) (deadline : WithTop ℚ) :
    Reply → WithTop ℚ × Verdict
  | .transportError => (deadline, v.handle .other)
  | .response r =>
    let out := v.tryBlock retries now deadline r
    (out.1, v.verdict out.2)

/-- `self._backoff_until - now`. -/
def remaining (deadline : WithTop ℚ) (now : ℚ) : WithTop ℚ := deadline.map fun d => d - now

/-- The check at the head of the loop raises: the wait is longer than the adapter sleeps. -/
def Venue.refuse (v : Venue) (now : ℚ) (deadline : WithTop ℚ) : Option Raised :=
  if (now : WithTop ℚ) < deadline then
    let wait := remaining deadline now
    if v.failFast.any fun limit => decide ((limit : WithTop ℚ) < wait) then
      some (.upstreamUnavailable (v.refusal wait) (some wait))
    else none
  else none

/-! ## The adapters -/

/-- The `except` clauses that Bybit, KuCoin, OKX and Hyperliquid share. Two of them let their
own `UpstreamUnavailableError` through. -/
def exceptClauses (name target : String) (letsThrough : Bool) : Exc → Verdict
  | .httpStatus r =>
    if r.status ∈ [502, 503, 504, 520] then .retry true
    else if 500 ≤ r.status then
      .raised (.upstreamUnavailable
        (name ++ " upstream error " ++ toString r.status ++ " on " ++ target) none)
    else .raised (.httpStatusError r.status)
  | .valueError message => .raised (.valueError message)
  | .unavailable message retryAfter =>
    if letsThrough then .raised (.upstreamUnavailable message retryAfter) else .retry true
  | .other => .retry true

/-- `int(resp.headers.get(name, default))`. -/
def intHeader (texts : Texts) (r : Response) (name : String) (default : ℤ) : Except Exc ℤ :=
  match r.headers name with
  | none => .ok default
  | some text =>
    match texts.int text with
    | none => .error (.valueError ("invalid literal for int() with base 10: '" ++ text ++ "'"))
    | some n => .ok n

namespace Binance

/-- `_WEIGHT_LIMITS.get(host, 1200)`. -/
def weightLimit (host : String) : ℤ :=
  if host = "api.binance.com" then 6000
  else if host = "fapi.binance.com" then 2400
  else if host = "dapi.binance.com" then 2400
  else 1200

/-- The block that reads `x-mbx-used-weight-1m`. -/
def readHeaders (texts : Texts) (host : String) (now : ℚ) (deadline : WithTop ℚ) (r : Response) :
    Except Exc (WithTop ℚ) :=
  (intHeader texts r "x-mbx-used-weight-1m" 0).map fun usedWeight =>
    if (usedWeight : ℚ) > weightLimit host * (95 / 100) then
      if deadline < (now : WithTop ℚ) then ((now + 2 : ℚ) : WithTop ℚ) else deadline
    else deadline

/-- `int(resp.headers.get("Retry-After", 5))`, or 5 where it is no number. -/
def retryAfter (texts : Texts) (r : Response) : ℤ :=
  match intHeader texts r "Retry-After" 5 with
  | .ok n => n
  | .error _ => 5

/-- The `try` block of Binance's `make_request` from the status on. -/
def body (texts : Texts) (now : ℚ) (deadline : WithTop ℚ) (r : Response) : WithTop ℚ × TryEnd :=
  if r.status = 200 then
    (deadline, match r.json with
      | .ok value => .returns value
      | .error message => .raises (.valueError message))
  else if r.status ∈ [429, 418] then
    match floatOfInt (retryAfter texts r) with
    | none => (deadline, .raises .other)
    | some seconds => (max deadline ((now + seconds : ℚ) : WithTop ℚ), .continues)
  else (deadline, raiseForStatus r)

/-- The `msg` of an error body, or its text. -/
def errMsg (texts : Texts) (r : Response) : String :=
  match r.json with
  | .error _ => r.text
  | .ok data =>
    match data.get? (.str "Unknown API Error") "msg" with
    | none => r.text
    | some msg => texts.str msg

/-- The `except` clauses of Binance's `make_request`. -/
def handle (texts : Texts) (url : String) : Exc → Verdict
  | .httpStatus r =>
    if r.status ∈ [400, 404, 405] then
      .raised (.valueError
        ("Binance API Error (" ++ toString r.status ++ "): " ++ errMsg texts r))
    else if r.status ∈ [502, 503, 504, 520] then .retry true
    else if 500 ≤ r.status then
      .raised (.upstreamUnavailable
        ("Binance upstream error " ++ toString r.status ++ " on " ++ url) none)
    else .raised (.httpStatusError r.status)
  | .valueError message => .raised (.valueError message)
  | .unavailable _ _ => .retry true
  | .other => .retry true

/-- Binance sleeps through any wait. -/
def venue (texts : Texts) (url host : String) : Venue where
  failFast := none
  refusal := fun _ => ""
  readHeaders := readHeaders texts host
  body := fun _ => body texts
  handle := handle texts url
  exhausted := "Max retries exceeded for " ++ url

end Binance

namespace Bybit

/-- The reset time that a nearly used up limit names, in seconds. -/
def resetTime (texts : Texts) (now : ℚ) (r : Response) : Except Exc ℚ :=
  match intHeader texts r "X-Bapi-Limit-Reset-Timestamp" ((now * 1000).floor + 5000) with
  | .error e => .error e
  | .ok ms =>
    match floatOfInt ms with
    | none => .error .other
    | some q => .ok (q / 1000)

/-- The block that reads `X-Bapi-Limit-Status`. -/
def readHeaders (texts : Texts) (now : ℚ) (deadline : WithTop ℚ) (r : Response) :
    Except Exc (WithTop ℚ) :=
  match intHeader texts r "X-Bapi-Limit-Status" 100 with
  | .error e => .error e
  | .ok remaining =>
    if remaining < 10 then
      (resetTime texts now r).map fun reset => max deadline (reset : WithTop ℚ)
    else .ok deadline

/-- A body with status 200, from `data["retCode"]` on. -/
def readData (texts : Texts) (now : ℚ) (deadline : WithTop ℚ) (data : Json) :
    WithTop ℚ × TryEnd :=
  match data.item? "retCode" with
  | none => (deadline, .raises .other)
  | some retCode =>
    if retCode.isInt 10006 then (max deadline ((now + 2 : ℚ) : WithTop ℚ), .continues)
    else if retCode.isInt 0 then
      match data.item? "result" with
      | none => (deadline, .raises .other)
      | some result =>
        (deadline, .returns (match data.item? "time" with
          | some time => result.setDefault "_envelope_ts" time
          | none => result))
    else
      match data.item? "retMsg" with
      | none => (deadline, .raises .other)
      | some retMsg =>
        (deadline, .raises (.valueError
          ("Bybit API Error (" ++ texts.str retCode ++ "): " ++ texts.str retMsg)))

/-- The `try` block of Bybit's `make_request` from the status on. -/
def body (texts : Texts) (now : ℚ) (deadline : WithTop ℚ) (r : Response) : WithTop ℚ × TryEnd :=
  if r.status = 200 then
    match r.json with
    | .error message => (deadline, .raises (.valueError message))
    | .ok data => readData texts now deadline data
  else if r.status = 403 then
    (max deadline ((now + 600 : ℚ) : WithTop ℚ), .raises (.unavailable
      "Bybit IP ban triggered (403). Retry in 10 minutes." (some ((600 : ℚ) : WithTop ℚ))))
  else if r.status = 429 then (max deadline ((now + 5 : ℚ) : WithTop ℚ), .continues)
  else (deadline, raiseForStatus r)

/-- Bybit's `make_request`. -/
def venue (texts : Texts) (restUrl endpoint : String) : Venue where
  failFast := some 30
  refusal := fun wait => "Bybit IP ban in effect. Retry in " ++ texts.fixed0 wait ++ "s."
  readHeaders := readHeaders texts
  body := fun _ => body texts
  handle := exceptClauses "Bybit" endpoint true
  exhausted := "Max retries exceeded for " ++ restUrl ++ endpoint

end Bybit

namespace Kucoin

/-- A body with status 200. -/
def readBody (texts : Texts) (body : Json) : TryEnd :=
  match body.get? (.str "200000") "code" with
  | none => .raises .other
  | some code =>
    if code.isStr "200000" then
      match body.get? .null "data" with
      | none => .raises .other
      | some data => .returns data
    else
      match body.get? (.str "Unknown error") "msg" with
      | none => .raises .other
      | some msg =>
        .raises (.valueError
          ("KuCoin API Error (" ++ texts.str code ++ "): " ++ texts.str msg))

/-- The `try` block of KuCoin's `make_request` from the status on. -/
def body (texts : Texts) (now : ℚ) (deadline : WithTop ℚ) (r : Response) : WithTop ℚ × TryEnd :=
  if r.status = 429 then (max deadline ((now + 5 : ℚ) : WithTop ℚ), .continues)
  else if r.status = 200 then
    (deadline, match r.json with
      | .error message => .raises (.valueError message)
      | .ok body => readBody texts body)
  else (deadline, raiseForStatus r)

/-- KuCoin's `make_request`. -/
def venue (texts : Texts) (base endpoint : String) : Venue where
  failFast := some 30
  refusal := fun wait => "KuCoin backoff active. Retry in " ++ texts.fixed0 wait ++ "s."
  body := fun _ => body texts
  handle := exceptClauses "KuCoin" endpoint false
  exhausted := "Max retries exceeded for " ++ base ++ endpoint

end Kucoin

namespace Okx

/-- `wait_s`, and the deadline that `time.time() + wait_s` makes of the one there is. `max` of a
NaN and a number is the first of the two. -/
def extend (texts : Texts) (now : ℚ) (deadline : WithTop ℚ) (r : Response) : WithTop ℚ :=
  match r.headers "Retry-After" with
  | none => max deadline ((now + 10 : ℚ) : WithTop ℚ)
  | some "" => max deadline ((now + 10 : ℚ) : WithTop ℚ)
  | some text =>
    match texts.float text with
    | none => max deadline ((now + 10 : ℚ) : WithTop ℚ)
    | some (.finite q) => max deadline ((now + max q 2 : ℚ) : WithTop ℚ)
    | some .inf => ⊤
    | some .negInf => max deadline ((now + 2 : ℚ) : WithTop ℚ)
    | some .nan => deadline

/-- A body with status 200. -/
def readBody (texts : Texts) (body : Json) : TryEnd :=
  match body.get? (.str "0") "code" with
  | none => .raises .other
  | some code =>
    if code.isStr "0" then
      match body.get? (.arr []) "data" with
      | none => .raises .other
      | some data => .returns data
    else
      match body.get? (.str "Unknown error") "msg" with
      | none => .raises .other
      | some msg =>
        .raises (.valueError ("OKX API Error (" ++ texts.str code ++ "): " ++ texts.str msg))

/-- The `try` block of OKX's `make_request` from the status on. -/
def body (texts : Texts) (now : ℚ) (deadline : WithTop ℚ) (r : Response) : WithTop ℚ × TryEnd :=
  if r.status = 429 then (extend texts now deadline r, .continues)
  else if r.status = 200 then
    (deadline, match r.json with
      | .error message => .raises (.valueError message)
      | .ok body => readBody texts body)
  else (deadline, raiseForStatus r)

/-- OKX's `make_request`. -/
def venue (texts : Texts) (restUrl endpoint : String) : Venue where
  failFast := some 60
  refusal := fun wait => "OKX backoff active. Retry in " ++ texts.fixed0 wait ++ "s."
  body := fun _ => body texts
  handle := exceptClauses "OKX" endpoint false
  exhausted := "Max retries exceeded for " ++ restUrl ++ endpoint

end Okx

namespace Hyperliquid

/-- The `try` block of Hyperliquid's `make_request` from the status on. -/
def body (infoType : String) (retries : ℕ) (now : ℚ) (deadline : WithTop ℚ) (r : Response) :
    WithTop ℚ × TryEnd :=
  if r.status = 200 then
    (deadline, match r.json with
      | .ok value => .returns value
      | .error message => .raises (.valueError message))
  else if r.status = 429 then
    (max deadline ((now + 5 * (4 - (retries : ℚ)) : ℚ) : WithTop ℚ), .continues)
  else if r.status = 422 then
    (deadline, .raises (.valueError ("Hyperliquid rejected " ++ infoType ++ " request (422)")))
  else (deadline, raiseForStatus r)

/-- Hyperliquid's `make_request`. -/
def venue (texts : Texts) (infoType : String) : Venue where
  failFast := some 30
  refusal := fun wait => "Hyperliquid backoff in effect. Retry in " ++ texts.fixed0 wait ++ "s."
  body := body infoType
  handle := exceptClauses "Hyperliquid" infoType true
  exhausted := "Max retries exceeded for " ++ infoType

end Hyperliquid

/-! ## One call -/

/-- What a round meets: the time and the deadline as the loop checks them, and the reply with
the time and the deadline as it comes. Other calls may move the deadline in between. -/
structure Attempt where
  checkedAt : ℚ
  deadline : WithTop ℚ
  repliedAt : ℚ
  deadlineThen : WithTop ℚ
  reply : Reply

/-- A call: the retries it has left, the requests it sent, and how it ended. -/
structure CallState where
  retries : ℕ := 3
  sent : ℕ := 0
  result : Option (Except Raised Json) := none

/-- The error after the last retry. -/
def Venue.giveUp (v : Venue) (a : Attempt) : Raised :=
  .upstreamUnavailable v.exhausted
    (if (a.checkedAt : WithTop ℚ) < a.deadline then some (remaining a.deadline a.checkedAt)
    else none)

/-- One round of the `while` loop, or the statements after it. -/
def CallState.round (v : Venue) (c : CallState) (a : Attempt) : CallState :=
  match c.result with
  | some _ => c
  | none =>
    match c.retries with
    | 0 => { c with result := some (.error (v.giveUp a)) }
    | left + 1 =>
      match v.refuse a.checkedAt a.deadline with
      | some e => { c with result := some (.error e) }
      | none =>
        match (v.read c.retries a.repliedAt a.deadlineThen a.reply).2 with
        | .returned value => { c with sent := c.sent + 1, result := some (.ok value) }
        | .raised e => { c with sent := c.sent + 1, result := some (.error e) }
        | .retry _ => { c with sent := c.sent + 1, retries := left }
        | .again => { c with sent := c.sent + 1 }

/-- The call after `n` rounds. -/
def Venue.after (v : Venue) (attempts : ℕ → Attempt) : ℕ → CallState
  | 0 => {}
  | n + 1 => (v.after attempts n).round v (attempts n)

/-- The call sends at most three requests and then returns or raises. -/
def Venue.Bounded (v : Venue) (attempts : ℕ → Attempt) : Prop :=
  ∃ n, (v.after attempts n).result.isSome = true ∧ (v.after attempts n).sent ≤ 3

end MakeRequest
end ExchangeRouter
