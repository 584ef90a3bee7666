import Mathlib.Data.List.DropRight
import Mathlib.Data.Nat.Digits.Lemmas
import Mathlib.Algebra.BigOperators.Group.List.Basic
import Mathlib.Algebra.Field.Rat
import Mathlib.Tactic.FieldSimp
import Mathlib.Tactic.Ring

/-!
# Decimal arithmetic in a context

The decimals of the General Decimal Arithmetic: a sign, a coefficient and an exponent, or an
infinity, or a NaN. A context bounds the digits and the exponents of a result, and rounds half
even what does not fit. Invalid operations and overflows raise; what else a context signals does
not. A product of decimals that together have no more digits than the context is exact, as long
as its exponents stay inside the context.
-/

namespace Decimal

/-! ## Numbers -/

/-- A finite decimal: sign, coefficient and exponent. -/
structure Finite where
  negative : Bool := false
  coeff : ℕ
  exp : ℤ
deriving DecidableEq, Repr

/-- A decimal. The payload of a NaN is not kept. -/
inductive Number where
  | finite (d : Finite)
  | infinite (negative : Bool)
  | nan (signaling : Bool)
deriving DecidableEq, Repr

/-- What raises. -/
inductive Signal where
  | invalidOperation
  | overflow
deriving DecidableEq, Repr

/-- The digits of a coefficient; zero has none. -/
def digits (coeff : ℕ) : ℕ := (Nat.digits 10 coeff).length

/-- Neither infinite nor a NaN. -/
def Number.isFinite : Number → Bool
  | finite _ => true
  | _ => false

namespace Finite

/-- The decimal 1. -/
def one : Finite := ⟨false, 1, 0⟩

/-- The coefficient under its sign. -/
def signed (d : Finite) : ℤ := if d.negative then -d.coeff else d.coeff

/-- The number that a finite decimal stands for. -/
def toRat (d : Finite) : ℚ := d.signed * 10 ^ d.exp

/-- The product without a context. -/
def mul (a b : Finite) : Finite := ⟨a.negative ^^ b.negative, a.coeff * b.coeff, a.exp + b.exp⟩

end Finite

/-! ## Contexts -/

/-- A context that rounds half even and does not clamp. -/
structure Context where
  prec : ℕ
  emin : ℤ
  emax : ℤ

namespace Context

variable (ctx : Context)

/-- The least exponent of a subnormal result. -/
def etiny : ℤ := ctx.emin - ctx.prec + 1

/-- The greatest exponent of a full coefficient. -/
def etop : ℤ := ctx.emax - ctx.prec + 1

/-- A coefficient without its last `k` digits, rounded half even. -/
def roundHalfEven (coeff k : ℕ) : ℕ :=
  let kept := coeff / 10 ^ k
  let lost := coeff % 10 ^ k
  if 10 ^ k < 2 * lost ∨ (10 ^ k = 2 * lost ∧ kept % 2 = 1) then kept + 1 else kept

/-- A result brought into the context. -/
def fix (d : Finite) : Except Signal Finite :=
  if d.coeff = 0 then .ok { d with exp := min (max d.exp ctx.etiny) ctx.emax }
  else
    let expMin := digits d.coeff + d.exp - ctx.prec
    if ctx.etop < expMin then .error .overflow
    else
      let expMin := max expMin ctx.etiny
      if d.exp < expMin then
        let coeff := roundHalfEven d.coeff (expMin - d.exp).toNat
        -- a carry may make one digit too many, and that digit is a zero
        let (coeff, expMin) :=
          if ctx.prec < digits coeff then (coeff / 10, expMin + 1) else (coeff, expMin)
        if ctx.etop < expMin then .error .overflow else .ok ⟨d.negative, coeff, expMin⟩
      else .ok d

/-- `a * b`. -/
def mul : Number → Number → Except Signal Number
  | .nan true, _ => .error .invalidOperation
  | _, .nan true => .error .invalidOperation
  | .nan false, _ => .ok (.nan false)
  | _, .nan false => .ok (.nan false)
  | .infinite a, .infinite b => .ok (.infinite (a ^^ b))
  | .infinite a, .finite b =>
    if b.coeff = 0 then .error .invalidOperation else .ok (.infinite (a ^^ b.negative))
  | .finite a, .infinite b =>
    if a.coeff = 0 then .error .invalidOperation else .ok (.infinite (a.negative ^^ b))
  | .finite a, .finite b => (ctx.fix (a.mul b)).map .finite

/-- The product of the numbers, from one on. -/
def product (ds : List Number) : Except Signal Number := ds.foldlM ctx.mul (.finite .one)

/-- A result that the context does not change, or a zero. -/
def Fits (d : Finite) : Prop :=
  d.coeff = 0 ∨ (ctx.etiny ≤ d.exp ∧ digits d.coeff + d.exp - 1 ≤ ctx.emax)

instance (d : Finite) : Decidable (ctx.Fits d) := inferInstanceAs (Decidable (_ ∨ _))

end Context

/-! ## Reading -/

/-- What a text may hold beyond ASCII: decimal digits and white space. -/
structure Unicode where
  digit : Char → Option (Fin 10)
  space : Char → Bool

namespace Unicode

variable (u : Unicode)

/-- `unicodedata.decimal`. -/
def decimal (c : Char) : Option ℕ :=
  if c.isDigit then some (c.toNat - '0'.toNat) else (u.digit c).map Fin.val

/-- `str.isspace` of a character. -/
def isSpace (c : Char) : Bool :=
  c == ' ' || (9 ≤ c.toNat && c.toNat ≤ 13) || (28 ≤ c.toNat && c.toNat ≤ 31) || u.space c

/-- `s.strip().replace("_", "")`. -/
def strip (s : List Char) : List Char :=
  ((s.dropWhile u.isSpace).rdropWhile u.isSpace).filter fun c => c != '_'

/-- The digits that a text begins with, and the rest. -/
def spanDigits : List Char → List ℕ × List Char
  | [] => ([], [])
  | c :: s =>
    match u.decimal c with
    | some d => (d :: (spanDigits s).1, (spanDigits s).2)
    | none => ([], c :: s)

/-- The number that digits are read as. -/
def value (ds : List ℕ) : ℕ := ds.foldl (fun v d => 10 * v + d) 0

/-- Whether a text begins with a minus, and what is behind the sign. -/
def sign : List Char → Bool × List Char
  | '-' :: s => (true, s)
  | '+' :: s => (false, s)
  | s => (false, s)

/-- The exponent that a number ends in, zero where there is none. -/
def exponent : List Char → Option ℤ
  | [] => some 0
  | c :: s =>
    let ds := u.spanDigits (sign s).2
    if (c = 'e' ∨ c = 'E') ∧ ds.1 ≠ [] ∧ ds.2 = [] then
      some (if (sign s).1 then -(value ds.1 : ℤ) else value ds.1)
    else none

/-- A number without its sign. -/
def finite (negative : Bool) (s : List Char) : Option Finite :=
  let int := u.spanDigits s
  let frac :=
    match int.2 with
    | '.' :: rest => u.spanDigits rest
    | rest => ([], rest)
  if int.1 = [] ∧ frac.1 = [] then none
  else (u.exponent frac.2).map fun exp =>
    ⟨negative, value (int.1 ++ frac.1), exp - frac.1.length⟩

/-- An infinity or a NaN without its sign. -/
def special (negative : Bool) (s : List Char) : Option Number :=
  match s.map Char.toLower with
  | ['i', 'n', 'f'] => some (.infinite negative)
  | ['i', 'n', 'f', 'i', 'n', 'i', 't', 'y'] => some (.infinite negative)
  | 'n' :: 'a' :: 'n' :: payload =>
    if (u.spanDigits payload).2 = [] then some (.nan false) else none
  | 's' :: 'n' :: 'a' :: 'n' :: payload =>
    if (u.spanDigits payload).2 = [] then some (.nan true) else none
  | _ => none

/-- `Decimal(s)`, `none` where it raises. -/
def read (s : String) : Option Number :=
  let signed := sign (u.strip s.toList)
  match u.finite signed.1 signed.2 with
  | some d => some (.finite d)
  | none => u.special signed.1 signed.2

end Unicode

/-! ## Digits -/

lemma digits_le_iff {k coeff : ℕ} : digits coeff ≤ k ↔ coeff < 10 ^ k :=
  Nat.digits_length_le_iff (by decide) coeff

lemma lt_pow_digits (coeff : ℕ) : coeff < 10 ^ digits coeff := digits_le_iff.mp le_rfl

/-- A product has no more digits than its factors together. -/
lemma digits_prod_le {coeffs : List ℕ} (h : coeffs ≠ []) :
    digits coeffs.prod ≤ (coeffs.map digits).sum := by
  rw [digits_le_iff]
  induction coeffs with
  | nil => exact absurd rfl h
  | cons c coeffs ih =>
    rw [List.prod_cons, List.map_cons, List.sum_cons, pow_add]
    by_cases hnil : coeffs = []
    · rw [hnil, List.prod_nil, List.map_nil, List.sum_nil, pow_zero, mul_one, mul_one]
      exact lt_pow_digits c
    · exact Nat.mul_lt_mul'' (lt_pow_digits c) (ih hnil)

/-! ## Exact products -/

namespace Finite

@[simp] lemma toRat_one : one.toRat = 1 := by simp [one, toRat, signed]

lemma signed_mul (a b : Finite) : (a.mul b).signed = a.signed * b.signed := by
  unfold mul signed
  cases a.negative <;> cases b.negative <;> simp

@[simp] lemma toRat_mul (a b : Finite) : (a.mul b).toRat = a.toRat * b.toRat := by
  unfold toRat
  rw [signed_mul]
  show ((a.signed * b.signed : ℤ) : ℚ) * 10 ^ (a.exp + b.exp) = _
  rw [zpow_add₀ (by norm_num : (10 : ℚ) ≠ 0)]
  push_cast
  ring

lemma toRat_eq_zero {d : Finite} (h : d.coeff = 0) : d.toRat = 0 := by
  unfold toRat signed
  simp [h]

/-- The product of a list without a context. -/
def prod (ds : List Finite) : Finite := ds.foldl mul one

lemma prod_concat (ds : List Finite) (d : Finite) : prod (ds ++ [d]) = (prod ds).mul d := by
  unfold prod
  rw [List.foldl_append]
  rfl

lemma coeff_prod (ds : List Finite) : (prod ds).coeff = (ds.map coeff).prod := by
  induction ds using List.reverseRecOn with
  | nil => rfl
  | append_singleton ds d ih =>
    rw [prod_concat, List.map_append, List.prod_append, ← ih]
    show (prod ds).coeff * d.coeff = _
    simp

lemma toRat_prod (ds : List Finite) : (prod ds).toRat = (ds.map toRat).prod := by
  induction ds using List.reverseRecOn with
  | nil => exact toRat_one
  | append_singleton ds d ih =>
    rw [prod_concat, toRat_mul, ih, List.map_append, List.prod_append]
    simp

end Finite

namespace Context

variable {ctx : Context}

/-- A zero stays a zero. -/
lemma fix_of_coeff_eq_zero {d : Finite} (h : d.coeff = 0) :
    ∃ d', ctx.fix d = .ok d' ∧ d'.coeff = 0 := by
  unfold fix
  rw [if_pos h]
  exact ⟨_, rfl, h⟩

/-- What fits is not changed. -/
lemma fix_of_fits {d : Finite} (h : ctx.Fits d) (hne : d.coeff ≠ 0)
    (hdigits : digits d.coeff ≤ ctx.prec) : ctx.fix d = .ok d := by
  obtain ⟨htiny, hmax⟩ := h.resolve_left hne
  have htop : ¬ ctx.etop < digits d.coeff + d.exp - ctx.prec := by
    unfold etop
    omega
  have hexp : ¬ d.exp < max (digits d.coeff + d.exp - (ctx.prec : ℤ)) ctx.etiny := by omega
  unfold fix
  rw [if_neg hne, if_neg htop, if_neg hexp]

/-- Every product on the way fits, from the first factor on. -/
def StaysIn (ctx : Context) (ds : List Finite) : Prop :=
  ∀ part, part <+: ds → part ≠ [] → ctx.Fits (Finite.prod part)

instance (ds : List Finite) : Decidable (ctx.StaysIn ds) :=
  decidable_of_iff (∀ part ∈ ds.inits, part ≠ [] → ctx.Fits (Finite.prod part)) (by
    unfold StaysIn
    simp only [List.mem_inits])

lemma StaysIn.of_prefix {ds part : List Finite} (h : ctx.StaysIn ds) (hpart : part <+: ds) :
    ctx.StaysIn part := fun first hfirst => h first (hfirst.trans hpart)

/-- A product is finite only of finite factors. -/
lemma mul_isFinite {a b c : Number} (h : ctx.mul a b = .ok c) (hc : c.isFinite = true) :
    a.isFinite = true ∧ b.isFinite = true := by
  have hnot : ∀ n : Number, n.isFinite = false → (Except.ok n : Except Signal Number) ≠ .ok c := by
    intro n hn heq
    injection heq with heq
    rw [heq, hc] at hn
    contradiction
  unfold mul at h
  split at h
  · contradiction
  · contradiction
  · exact absurd h (hnot _ rfl)
  · exact absurd h (hnot _ rfl)
  · exact absurd h (hnot _ rfl)
  · split at h
    · contradiction
    · exact absurd h (hnot _ rfl)
  · split at h
    · contradiction
    · exact absurd h (hnot _ rfl)
  · exact ⟨rfl, rfl⟩

lemma product_concat (ds : List Number) (d : Number) :
    ctx.product (ds ++ [d]) = ctx.product ds >>= fun step => ctx.mul step d := by
  unfold product
  rw [List.foldlM_append]
  simp [List.foldlM_cons]

/-- The product in a context is the exact one, or a zero like it: by induction on the factors,
with the exponents inside the context and no more digits than it has. -/
theorem product_exact {ds : List Finite} (hdigits : (ds.map fun d => digits d.coeff).sum ≤ ctx.prec)
    (hstays : ctx.StaysIn ds) :
    ∃ step, ctx.product (ds.map .finite) = .ok (.finite step) ∧
      (step = Finite.prod ds ∨ (step.coeff = 0 ∧ (Finite.prod ds).coeff = 0)) := by
  induction ds using List.reverseRecOn with
  | nil => exact ⟨.one, rfl, .inl rfl⟩
  | append_singleton ds d ih =>
    have hfits := hstays (ds ++ [d]) (List.prefix_refl _) (by simp)
    have hle : digits (Finite.prod (ds ++ [d])).coeff ≤ ctx.prec := by
      rw [Finite.coeff_prod]
      refine (digits_prod_le (by simp)).trans (le_of_eq_of_le ?_ hdigits)
      rw [List.map_map]
      rfl
    rw [List.map_append, List.sum_append] at hdigits
    obtain ⟨step, hstep, hcases⟩ := ih (by omega) (hstays.of_prefix (List.prefix_append ds [d]))
    have hmul : ctx.product ((ds ++ [d]).map .finite) =
        (ctx.fix (step.mul d)).map Number.finite := by
      rw [List.map_append, List.map_singleton, product_concat, hstep]
      rfl
    have hcoeff : (Finite.prod (ds ++ [d])).coeff = (Finite.prod ds).coeff * d.coeff := by
      rw [Finite.prod_concat]
      rfl
    rw [hmul]
    by_cases hzero : (step.mul d).coeff = 0
    · -- the context moves the exponent of a zero, and nothing else
      obtain ⟨d', hfix, hd'⟩ := fix_of_coeff_eq_zero hzero
      have hprod : (Finite.prod (ds ++ [d])).coeff = 0 := by
        rcases hcases with rfl | ⟨-, hds⟩
        · rw [hcoeff]
          exact hzero
        · rw [hcoeff, hds, zero_mul]
      rw [hfix]
      exact ⟨d', rfl, .inr ⟨hd', hprod⟩⟩
    · have hstepNe : step.coeff ≠ 0 := fun h => hzero (by
        show step.coeff * d.coeff = 0
        rw [h, zero_mul])
      have hexact : step = Finite.prod ds := hcases.resolve_right fun h => hstepNe h.1
      rw [hexact, ← Finite.prod_concat] at hzero ⊢
      rw [fix_of_fits hfits hzero hle]
      exact ⟨_, rfl, .inl rfl⟩

/-- The value of the product in a context is the product of the values. -/
theorem toRat_product {ds : List Finite} (hdigits : (ds.map fun d => digits d.coeff).sum ≤ ctx.prec)
    (hstays : ctx.StaysIn ds) :
    ∃ step, ctx.product (ds.map .finite) = .ok (.finite step) ∧
      step.toRat = (ds.map Finite.toRat).prod := by
  obtain ⟨step, hstep, hcases⟩ := product_exact hdigits hstays
  refine ⟨step, hstep, ?_⟩
  rw [← Finite.toRat_prod]
  rcases hcases with rfl | ⟨hstepZero, hprodZero⟩
  · rfl
  · rw [Finite.toRat_eq_zero hstepZero, Finite.toRat_eq_zero hprodZero]

end Context

end Decimal
