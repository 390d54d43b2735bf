import ApiContract.Decimal.Double

/-!
# The shortest decimal that reads back

Every decimal number between the two midpoints around a `Double` reads back as that `Double`; the
midpoints themselves do so when its mantissa is even. `shortest` takes the fewest digits for which
such a decimal exists, and among the decimals with that many digits the one nearest to the number;
of two equally near ones it takes the one with an even last digit.

`Layout` holds the decisions of a written form; `Layout.write` writes a number by them. The
examples fix where each decision shows.
-/

namespace ApiContract.Decimal

/-- The number `digits * 10 ^ power`. -/
structure Scientific where
  digits : Nat
  power : Int
  deriving DecidableEq, Repr

/-- The numbers around `value` that read back as it does, as multiples of `unit.1 / unit.2`: from
`low` to `high`, the ends included if `closed`. -/
structure Neighbourhood where
  unit : Nat × Nat
  low : Nat
  value : Nat
  high : Nat
  closed : Bool

/-- The neighbourhood of `mantissa * 2 ^ exponent`. Below a power of two the numbers lie twice as
dense, so the lower midpoint is nearer there. -/
def neighbourhood (mantissa : Nat) (exponent : Int) : Neighbourhood where
  unit :=
    if 2 ≤ exponent then (Nat.pow 2 (exponent - 2).toNat, 1)
    else (1, Nat.pow 2 (2 - exponent).toNat)
  low :=
    if mantissa = Nat.pow 2 52 ∧ Double.leastExponent < exponent then 4 * mantissa - 1
    else 4 * mantissa - 2
  value := 4 * mantissa
  high := 4 * mantissa + 2
  closed := mantissa % 2 == 0

namespace Neighbourhood

/-- The order of `count * 10 ^ power` and `size * unit`. -/
def compareTo (around : Neighbourhood) (count : Nat) (power : Int) (size : Nat) : Ordering :=
  let (n, d) := around.unit
  if 0 ≤ power then compare (count * Nat.pow 10 power.toNat * d) (size * n)
  else compare (count * d) (size * n * Nat.pow 10 (-power).toNat)

/-- Whether `count * 10 ^ power` reads back as the number. -/
def readsBack (around : Neighbourhood) (count : Nat) (power : Int) : Bool :=
  let low := around.compareTo count power around.low
  let high := around.compareTo count power around.high
  if around.closed then low != .lt && high != .gt else low == .gt && high == .lt

/-- The number divided by `10 ^ power`, rounded down. -/
def countBelow (around : Neighbourhood) (power : Int) : Nat :=
  let (n, d) := around.unit
  if 0 ≤ power then around.value * n / (d * Nat.pow 10 power.toNat)
  else around.value * n * Nat.pow 10 (-power).toNat / d

/-- The neighbour of the number among the multiples of `10 ^ power` that reads back, the nearer one
if both do, the even one if they are equally near. -/
def nearest? (around : Neighbourhood) (power : Int) : Option Nat :=
  let below := around.countBelow power
  match around.readsBack below power, around.readsBack (below + 1) power with
  | false, false => none
  | true, false => some below
  | false, true => some (below + 1)
  | true, true =>
    match around.compareTo (2 * below + 1) power (2 * around.value) with
    | .gt => some below
    | .lt => some (below + 1)
    | .eq => some (below + below % 2)

/-- The least power of ten above the number. -/
def magnitude (around : Neighbourhood) : Int :=
  let size : Int := (around.value * around.unit.1).log2 - around.unit.2.log2
  let start := (size - 1) * 30103 / 100000
  match [start, start + 1, start + 2].find? fun k => around.compareTo 1 k around.value == .gt with
  | some k => k
  | none => start + 3

end Neighbourhood

/-- The decimal without zeros at its end; `fuel` bounds their number. -/
def Scientific.withoutZeros : Nat → Scientific → Scientific
  | 0, x => x
  | fuel + 1, x =>
    if x.digits ≠ 0 ∧ x.digits % 10 = 0 then withoutZeros fuel ⟨x.digits / 10, x.power + 1⟩ else x

/-- The shortest decimal that reads back as `mantissa * 2 ^ exponent`. Seventeen digits always
suffice. -/
def shortest (mantissa : Nat) (exponent : Int) : Scientific :=
  if mantissa = 0 then ⟨0, 0⟩
  else
    let around := neighbourhood mantissa exponent
    let top := around.magnitude
    let grids := (List.range 17).map fun (n : Nat) => top - (n + 1 : Int)
    let found := grids.findSome? fun power => (around.nearest? power).map (Scientific.mk · power)
    (found.getD ⟨around.countBelow (top - 17), top - 17⟩).withoutZeros 18

/-- How numbers are written. -/
structure Layout where
  /-- The point is written among the digits only if it stands after more places than this. -/
  above : Int := -4
  /-- The point is written among the digits only if it stands after at most this many places. -/
  upTo : Int := 16
  infinity : String
  notANumber : String

/-- The form of numbers in running text. -/
def plain : Layout where
  infinity := "inf"
  notANumber := "nan"

/-- The form of numbers among literals. -/
def literal : Layout where
  infinity := "Infinity"
  notANumber := "NaN"

/-- The digits with a point after the first `place` of them, and a digit at least on either side. -/
def positional (digits : List Char) (place : Int) : List Char :=
  if place ≤ 0 then ['0', '.'] ++ List.replicate (-place).toNat '0' ++ digits
  else
    let whole := digits.take place.toNat
    let rest := digits.drop place.toNat
    whole ++ List.replicate (place.toNat - digits.length) '0' ++ ['.'] ++
      (if rest = [] then ['0'] else rest)

/-- The first digit, the others after a point, and the power of ten with a sign and at least two
digits. -/
def exponential (digits : List Char) (place : Int) : List Char :=
  let power := place - 1
  let size := Nat.toDigits 10 power.natAbs
  digits.take 1 ++ (if digits.length = 1 then [] else '.' :: digits.drop 1) ++
    ['e', if power < 0 then '-' else '+'] ++ List.replicate (2 - size.length) '0' ++ size

/-- The written form of a number. -/
def Layout.write (layout : Layout) : Double → List Char
  | .notANumber => layout.notANumber.toList
  | .infinite negative => (if negative then ['-'] else []) ++ layout.infinity.toList
  | .finite negative mantissa exponent =>
    let x := shortest mantissa exponent
    let digits := Nat.toDigits 10 x.digits
    let place : Int := if x.digits = 0 then 1 else digits.length + x.power
    (if negative then ['-'] else []) ++
      if layout.above < place ∧ place ≤ layout.upTo then positional digits place
      else exponential digits place

example : plain.write (.ofDecimal false 1 0) = "1.0".toList := by decide +kernel
example : plain.write (.ofDecimal true 0 0) = "-0.0".toList := by decide +kernel
example : plain.write (.ofDecimal false 1 (-1)) = "0.1".toList := by decide +kernel
example : plain.write (.ofDecimal false 1 (-4)) = "0.0001".toList := by decide +kernel
example : plain.write (.ofDecimal false 1 (-5)) = "1e-05".toList := by decide +kernel
example : plain.write (.ofDecimal false 1 16) = "1e+16".toList := by decide +kernel
example : plain.write (.ofDecimal false 123456789012345680 (-2)) = "1234567890123456.8".toList := by
  decide +kernel
example : plain.write (.ofDecimal false 5 (-324)) = "5e-324".toList := by decide +kernel
example : plain.write (.ofDecimal false 17976931348623157 292) =
    "1.7976931348623157e+308".toList := by
  decide +kernel
example : plain.write (.ofDecimal false 22250738585072014 (-324)) =
    "2.2250738585072014e-308".toList := by
  decide +kernel
example : literal.write (.infinite true) = "-Infinity".toList := by decide +kernel

end ApiContract.Decimal
