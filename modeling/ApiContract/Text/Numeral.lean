/-!
# Numerals in ASCII

The pieces that written numbers have in common: a run of digits and its value, and a power of ten.
-/

namespace ApiContract.Text

/-- The value of decimal digits. -/
def digitsValue (digits : List Char) : Nat :=
  digits.foldl (fun n c => 10 * n + (c.toNat - '0'.toNat)) 0

/-- The digits at the start of a text, and what follows them. -/
def spanDigits (text : List Char) : List Char × List Char :=
  (text.takeWhile Char.isDigit, text.dropWhile Char.isDigit)

/-- The power of ten after a letter, and what follows it; without a digit there is none. -/
def readPower? (text : List Char) : Option (Int × List Char) :=
  match text with
  | c :: rest =>
    if c = 'e' ∨ c = 'E' then
      let (negative, rest) := match rest with
        | '-' :: rest => (true, rest)
        | '+' :: rest => (false, rest)
        | rest => (false, rest)
      let (digits, rest) := spanDigits rest
      let size : Int := digitsValue digits
      if digits = [] then none else some (if negative then -size else size, rest)
    else none
  | [] => none

example : readPower? "e-07x".toList = some (-7, ['x']) := by decide +kernel
example : readPower? "e+".toList = none := by decide +kernel

end ApiContract.Text
