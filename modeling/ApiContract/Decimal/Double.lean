/-!
# Binary floating-point numbers, exactly

A `Double` is what 64 bits can say about a number: a signed multiple of a power of two, an
infinity, or no number. Nothing here goes through machine arithmetic: `ofRatio` rounds a fraction
to the nearest number by whole-number division, and every other operation is built on it.

The examples fix the edges of the range.
-/

namespace ApiContract.Decimal

/-- The quotient rounded to the nearest whole number, a half going to the even one. -/
def roundHalfEven (num den : Nat) : Nat :=
  let q := num / den
  let r := num % den
  if 2 * r < den then q
  else if den < 2 * r then q + 1
  else q + q % 2

end ApiContract.Decimal

namespace ApiContract

open Decimal

/-- A number of 64 bits. A finite one is `mantissa * 2 ^ exponent`, with the mantissa below `2 ^ 53`
and at least `2 ^ 52` unless the exponent is the least one, `-1074`. -/
inductive Double
  | finite (negative : Bool) (mantissa : Nat) (exponent : Int)
  | infinite (negative : Bool)
  | notANumber
  deriving DecidableEq, Repr

namespace Double

/-- The exponent of the smallest numbers. -/
def leastExponent : Int := -1074

/-- The exponent of the largest numbers. -/
def greatestExponent : Int := 971

/-- Zero with a sign. -/
def zero (negative : Bool) : Double :=
  .finite negative 0 leastExponent

/-- The fraction `num / den` divided by `2 ^ exponent`. -/
def scaled (num den : Nat) (exponent : Int) : Nat × Nat :=
  if 0 ≤ exponent then (num, den * Nat.pow 2 exponent.toNat)
  else (num * Nat.pow 2 (-exponent).toNat, den)

/-- The number nearest to the fraction `num / den`, of two equally near ones the one with the even
mantissa; past the largest number it is infinity. -/
def ofRatio (negative : Bool) (num den : Nat) : Double :=
  if num = 0 then zero negative
  else
    let low := max leastExponent ((num.log2 : Int) - den.log2 - 53)
    let (n, d) := scaled num den low
    let exponent := if n / d < Nat.pow 2 53 then low else low + 1
    let (n, d) := scaled num den exponent
    let mantissa := roundHalfEven n d
    let (mantissa, exponent) :=
      if mantissa < Nat.pow 2 53 then (mantissa, exponent) else (Nat.pow 2 52, exponent + 1)
    if greatestExponent < exponent then .infinite negative
    else .finite negative mantissa exponent

/-- The number nearest to `digits * 10 ^ power`. A power far outside the range is not computed. -/
def ofDecimal (negative : Bool) (digits : Nat) (power : Int) : Double :=
  let size := (Nat.toDigits 10 digits).length + power
  if digits = 0 ∨ size < -400 then zero negative
  else if 400 < size then .infinite negative
  else if 0 ≤ power then ofRatio negative (digits * Nat.pow 10 power.toNat) 1
  else ofRatio negative digits (Nat.pow 10 (-power).toNat)

/-- The number with the other sign. -/
def negate : Double → Double
  | .finite s m e => .finite (!s) m e
  | .infinite s => .infinite (!s)
  | .notANumber => .notANumber

/-- The whole number that a `Double` stands for, if it stands for one. -/
def toInt? : Double → Option Int
  | .finite s m e =>
    if 0 ≤ e then some ((if s then -1 else 1) * (m * Nat.pow 2 e.toNat : Nat))
    else if m % Nat.pow 2 (-e).toNat = 0 then
      some ((if s then -1 else 1) * (m / Nat.pow 2 (-e).toNat : Nat))
    else none
  | _ => none

/-- The rounded product of a number with a whole number. -/
def scale (factor : Nat) : Double → Double
  | .finite s m e => if 0 ≤ e then ofRatio s (m * Nat.pow 2 e.toNat * factor) 1
    else ofRatio s (m * factor) (Nat.pow 2 (-e).toNat)
  | x => x

/-- A finite number as a whole number of the smallest ones, with its sign. -/
def units (negative : Bool) (mantissa : Nat) (exponent : Int) : Int :=
  (if negative then -1 else 1) * (mantissa * Nat.pow 2 (exponent - leastExponent).toNat : Nat)

/-- The rounded sum of two numbers. Infinities of different signs have none; two zeros keep their
sign if they agree on it. -/
def add : Double → Double → Double
  | .notANumber, _ | _, .notANumber => .notANumber
  | .infinite s, .infinite t => if s = t then .infinite s else .notANumber
  | .infinite s, _ | _, .infinite s => .infinite s
  | .finite s m e, .finite t n f =>
    let sum := units s m e + units t n f
    if sum = 0 then zero (s && t)
    else ofRatio (decide (sum < 0)) sum.natAbs (Nat.pow 2 (-leastExponent).toNat)

/-- Whether a number is zero, of either sign. -/
def isZero : Double → Bool
  | .finite _ m _ => m == 0
  | _ => false

example : ofDecimal false 1 0 = .finite false (2 ^ 52) (-52) := by decide +kernel
example : ofDecimal true 0 5 = zero true := by decide +kernel
example : ofDecimal false 5 (-324) = .finite false 1 (-1074) := by decide +kernel
example : ofDecimal false 2 (-324) = zero false := by decide +kernel
example : ofDecimal false 17976931348623157 292 = .finite false (2 ^ 53 - 1) 971 := by
  decide +kernel
example : ofDecimal false 1 400 = .infinite false := by decide +kernel
example : add (ofDecimal false 1 (-1)) (ofDecimal false 2 (-1)) =
    .finite false 5404319552844596 (-54) := by decide +kernel
example : add (ofDecimal true 1 0) (ofDecimal false 1 0) = zero false := by decide +kernel
example : ofDecimal false 9007199254740993 0 = ofDecimal false 9007199254740992 0 := by
  decide +kernel

end Double

end ApiContract
