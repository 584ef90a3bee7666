import Mathlib.Data.Rat.Defs
import Mathlib.Tactic.DeriveFintype

/-!
# Faults and router errors

`Fault` is what adapter code raises, sorted by the classes the `except` clauses above
it tell apart. `RouterError` is the public error tree, `errorForStatus` and
`errorForFault` the two maps into it: the first reads an HTTP status, the second an
exception of an adapter in this process.
-/

namespace ExchangeRouter

/-- An exception of an adapter. `other` stands for every class that no handler names. -/
inductive Fault where
  | upstreamUnavailable (message : String) (retryAfter : Option ℚ)
  | validationError (message : String)
  | notImplemented (message : String)
  | valueError (message : String)
  | httpStatusError (status : ℕ) (message : String)
  | other (message : String)
deriving DecidableEq, Repr

namespace Fault

/-- `isinstance(exc, ValueError)`: pydantic's `ValidationError` derives from it. -/
def isValueError : Fault → Bool
  | valueError _ => true
  | validationError _ => true
  | _ => false

/-- `isinstance(exc, httpx.HTTPStatusError)`. -/
def isHttpStatusError : Fault → Bool
  | httpStatusError _ _ => true
  | _ => false

/-- `except (httpx.HTTPStatusError, ValueError)`: a request the upstream refused. -/
def isRejection (e : Fault) : Bool := e.isHttpStatusError || e.isValueError

end Fault

/-- The classes of the error tree that the two modes raise. -/
inductive ErrorClass where
  | routerError
  | badRequest
  | notFound
  | rateLimited
  | upstreamUnavailable
  | notSupported
deriving DecidableEq, Repr

/-- A `RouterError` or one of its subclasses. -/
structure RouterError where
  cls : ErrorClass
  detail : String
  status : Option ℕ
  retryAfter : Option ℚ := none
deriving DecidableEq, Repr

/-- `error_for_status`. -/
def errorForStatus (status : ℕ) (detail : String) (retryAfter : Option ℚ) : RouterError :=
  if status = 400 then ⟨.badRequest, detail, some status, none⟩
  else if status = 404 then ⟨.notFound, detail, some status, none⟩
  else if status = 429 then ⟨.rateLimited, detail, some status, none⟩
  else if status = 501 then ⟨.notSupported, detail, some status, none⟩
  else if status = 503 then ⟨.upstreamUnavailable, detail, some status, retryAfter⟩
  else ⟨.routerError, detail, some status, none⟩

/-- `error_for_fault`. The `except` clauses are asked in this order, so a `ValidationError` is
not read as the `ValueError` it is. -/
def errorForFault : Fault → RouterError
  | .upstreamUnavailable m retryAfter => ⟨.upstreamUnavailable, m, some 503, retryAfter⟩
  | .validationError m => ⟨.routerError, m, some 502, none⟩
  | .notImplemented m => ⟨.notSupported, m, some 501, none⟩
  | .valueError m => ⟨.badRequest, m, some 400, none⟩
  | .httpStatusError _ m => ⟨.routerError, m, some 500, none⟩
  | .other m => ⟨.routerError, m, some 500, none⟩

/-- Same class and same status. -/
def RouterError.Alike (e e' : RouterError) : Prop := e.cls = e'.cls ∧ e.status = e'.status

instance (e e' : RouterError) : Decidable (e.Alike e') :=
  inferInstanceAs (Decidable (_ ∧ _))

lemma errorForStatus_status (status : ℕ) (detail : String) (retryAfter : Option ℚ) :
    (errorForStatus status detail retryAfter).status = some status := by
  unfold errorForStatus
  repeat' split
  all_goals rfl

end ExchangeRouter
