import ApiContract.Decimal.Double
import ApiContract.Text.Case
import ApiContract.Text.Digit
import ApiContract.Text.Numeral
import ApiContract.Yaml.Cursor

/-!
# Numbers in YAML

What a text that is marked as a number stands for. Separators of digits do not count. A whole number
may be binary, octal or hexadecimal, and any number may have parts between colons, each of which
counts sixty times the one after it. Digits of any script count.

A text can be marked as a number and be none.
-/

namespace ApiContract.Yaml.Number

/-- The value of a digit or a letter as a digit of a base. -/
def digitIn? (base : Nat) (c : Char) : Option Nat :=
  let value :=
    if 'a' ≤ c ∧ c ≤ 'z' then some (c.toNat - 'a'.toNat + 10)
    else if 'A' ≤ c ∧ c ≤ 'Z' then some (c.toNat - 'A'.toNat + 10)
    else Text.digitValue? c
  value.filter (· < base)

/-- The value of digits of a base, of which there must be one. -/
def natIn? (base : Nat) (digits : List Char) : Option Nat :=
  if digits = [] then none
  else digits.foldl (fun acc c => acc.bind fun n => (digitIn? base c).map (base * n + ·)) (some 0)

/-- The letter that marks a base. -/
def mark? (base : Nat) : Option Char :=
  if base = 2 then some 'b' else if base = 8 then some 'o' else if base = 16 then some 'x' else none

/-- The digits without a zero and the mark of the base before them. -/
def withoutMark (base : Nat) (text : List Char) : List Char :=
  match text with
  | '0' :: c :: rest => if (mark? base).any fun m => c = m ∨ c = m.toUpper then rest else text
  | _ => text

/-- The whole number of a base that a text with margins around it spells. -/
def intIn? (base : Nat) (text : List Char) : Option Int :=
  match Text.withoutMargins text with
  | '-' :: rest => (natIn? base (withoutMark base rest)).map fun n => -(n : Int)
  | '+' :: rest => (natIn? base (withoutMark base rest)).map fun n => (n : Int)
  | rest => (natIn? base (withoutMark base rest)).map fun n => (n : Int)

/-- The sign of a text and the text after it. -/
def signed (text : List Char) : Bool × List Char :=
  match text with
  | '-' :: rest => (true, rest)
  | '+' :: rest => (false, rest)
  | rest => (false, rest)

/-- The whole number of parts, the first one counting most. -/
def sixties (parts : List Int) : Int :=
  parts.foldl (fun n part => 60 * n + part) 0

/-- The size of the whole number that a text without sign stands for. -/
def intSize? (text : List Char) : Option Int :=
  match text with
  | '0' :: 'b' :: rest => intIn? 2 rest
  | '0' :: 'x' :: rest => intIn? 16 rest
  | '0' :: _ => intIn? 8 text
  | _ =>
    if ':' ∈ text then (Text.piecesAt ':' text).mapM (intIn? 10) |>.map sixties
    else intIn? 10 text

/-- The text without separators of digits. -/
def withoutSeparators (text : List Char) : List Char := text.filter (· ≠ '_')

/-- The whole number that a text stands for. -/
def int (text : List Char) : Except Fault Int :=
  let (negative, size) := signed (withoutSeparators text)
  if size = [] then .error .emptyNumber
  else
    match intSize? size with
    | some n => .ok (if negative then -n else n)
    | none => .error .noSuchValue

/-- The digit of ASCII with the value of a digit. -/
def asciiDigit (c : Char) : Char :=
  match Text.digitValue? c with
  | some d => Char.ofNat ('0'.toNat + d)
  | none => c

/-- The number of digits, a point and a power of ten that fill a text. -/
def decimal? (negative : Bool) (text : List Char) : Option Double := do
  let (whole, rest) := Text.spanDigits text
  let (decimals, rest) := match rest with
    | '.' :: rest => Text.spanDigits rest
    | rest => ([], rest)
  if whole = [] ∧ decimals = [] then none
  let power ← match rest with
    | [] => some 0
    | rest => match Text.readPower? rest with
      | some (power, []) => some power
      | _ => none
  return .ofDecimal negative (Text.digitsValue (whole ++ decimals)) (power - decimals.length)

/-- The number that a text in small letters with margins around it spells. -/
def double? (text : List Char) : Option Double :=
  let (negative, size) := signed ((Text.withoutMargins text).map asciiDigit)
  if size = "inf".toList ∨ size = "infinity".toList then some (.infinite negative)
  else if size = "nan".toList then some .notANumber
  else decimal? negative size

/-- The number of parts, the last one counting once. -/
def sixtiesDouble (parts : List Double) : Double :=
  let terms := parts.reverse.zipIdx.map fun (part, place) => part.scale (Nat.pow 60 place)
  terms.foldl Double.add (.zero false)

/-- The size of the number that a text without sign stands for. -/
def floatSize? (text : List Char) : Option Double :=
  if text = ".inf".toList then some (.infinite false)
  else if text = ".nan".toList then some .notANumber
  else if ':' ∈ text then (Text.piecesAt ':' text).mapM double? |>.map sixtiesDouble
  else double? text

/-- The most places that parts can have: `60 ^ 174` is beyond all numbers. -/
def mostPlaces : Nat := 174

/-- The number that a text stands for. -/
def float (text : List Char) : Except Fault Double :=
  let text := Text.lower (withoutSeparators text)
  let (negative, size) := signed text
  if text = [] then .error .emptyNumber
  else
    match floatSize? size with
    | some x =>
      if mostPlaces ≤ size.count ':' then .error .noSuchNumber
      else .ok (if negative then x.negate else x)
    | none => .error .noSuchValue

example : ["0b101", "0o17", "0x1F", "017", "1:30", "-1_000", "+0"].map
    (fun s => (int s.toList).toOption) =
    [some 5, some 15, some 31, some 15, some 90, some (-1000), some 0] := by decide +kernel
example : int "09".toList = .error .noSuchValue := by rfl
example : int "_".toList = .error .emptyNumber := by rfl
example : (float "-1:30.5".toList).toOption = some (.ofDecimal true 905 (-1)) := by
  decide +kernel

end ApiContract.Yaml.Number
