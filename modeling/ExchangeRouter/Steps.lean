import ExchangeRouter.Lib.Decimal
import ExchangeRouter.MakeRequest

/-!
# `build_step`

A tick size or a quantity step, as the product of the numbers that a venue sends. A part is the
text that `str` makes of it. The conversion of a decimal to a float is a parameter.
-/

namespace ExchangeRouter
namespace Steps

open Decimal (Context Number Signal Unicode)
open MakeRequest (PyFloat)

/-- The default context. -/
def defaultContext : Context where
  prec := 28
  emin := -999999
  emax := 999999

/-- How the `try` block ends in an exception that is caught. -/
inductive Raised where
  | decimal (signal : Signal)
  | valueError
deriving DecidableEq, Repr

section

variable (u : Unicode)

/-- The decimal of a part, where it is a finite one. -/
def finiteOf (part : String) : Option Decimal.Finite :=
  match u.read part with
  | some (.finite d) => some d
  | _ => none

/-- `step *= decimal.Decimal(str(part))`. -/
def multiply (step : Number) (part : String) : Except Signal Number :=
  match u.read part with
  | none => .error .invalidOperation
  | some d => defaultContext.mul step d

/-- `step` after the loop. -/
def stepOf (parts : List String) : Except Signal Number :=
  parts.foldlM (multiply u) (.finite .one)

variable (toFloat : ℚ → PyFloat)

/-- `float(step)`, which a signaling NaN has none of. -/
def float : Number → Except Raised PyFloat
  | .finite d => .ok (toFloat d.toRat)
  | .infinite negative => .ok (if negative then .negInf else .inf)
  | .nan false => .ok .nan
  | .nan true => .error .valueError

/-- `value` at the end of the `try` block. -/
def valueOf (parts : List String) : Except Raised PyFloat :=
  match stepOf u parts with
  | .error signal => .error (.decimal signal)
  | .ok step => float toFloat step

/-- A value that is finite and positive. -/
def usable : PyFloat → Option ℚ
  | .finite q => if q ≤ 0 then none else some q
  | _ => none

/-- `build_step`. -/
def buildStep (parts : List String) : Option ℚ :=
  match valueOf u toFloat parts with
  | .error _ => none
  | .ok value => usable value

end

end Steps
end ExchangeRouter
