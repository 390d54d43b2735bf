import ApiContract.Text.Blank

/-!
# Whole numbers in words of any script

The decimal digits of Unicode 14 come in runs of ten, so a table of the zeros gives the value of
every digit. `readInt?` reads a whole number: margins around it, one sign, and digits that single
underscores may separate.

Main facts: `digitValue?_lt` (a digit is below ten) and the examples at the end, which fix the
grammar.
-/

namespace ApiContract.Text

/-- The code points of the digits zero, one for each run of ten digits. -/
def digitZeros : List Nat := [
  0x30, 0x660, 0x6F0, 0x7C0, 0x966, 0x9E6, 0xA66, 0xAE6, 0xB66, 0xBE6, 0xC66, 0xCE6, 0xD66, 0xDE6,
  0xE50, 0xED0, 0xF20, 0x1040, 0x1090, 0x17E0, 0x1810, 0x1946, 0x19D0, 0x1A80, 0x1A90, 0x1B50,
  0x1BB0, 0x1C40, 0x1C50, 0xA620, 0xA8D0, 0xA900, 0xA9D0, 0xA9F0, 0xAA50, 0xABF0, 0xFF10, 0x104A0,
  0x10D30, 0x11066, 0x110F0, 0x11136, 0x111D0, 0x112F0, 0x11450, 0x114D0, 0x11650, 0x116C0,
  0x11730, 0x118E0, 0x11950, 0x11C50, 0x11D50, 0x11DA0, 0x16A60, 0x16AC0, 0x16B50, 0x1D7CE,
  0x1D7D8, 0x1D7E2, 0x1D7EC, 0x1D7F6, 0x1E140, 0x1E2F0, 0x1E950, 0x1FBF0]

/-- The value of a decimal digit of any script. -/
def digitValue? (c : Char) : Option Nat :=
  (digitZeros.find? fun z => z ≤ c.toNat && c.toNat < z + 10).map (c.toNat - ·)

/-- The value of digits that may be separated by single underscores, continuing from `acc`; an
underscore stands between two digits only. -/
def readDigits? (acc : Nat) : List Char → Option Nat
  | [] => some acc
  | '_' :: c :: cs => (digitValue? c).bind fun d => readDigits? (10 * acc + d) cs
  | c :: cs => (digitValue? c).bind fun d => readDigits? (10 * acc + d) cs

/-- The value of a nonempty run of digits and separators that begins with a digit. -/
def readNat? : List Char → Option Nat
  | [] => none
  | c :: cs => (digitValue? c).bind fun d => readDigits? d cs

/-- A blank that may stand around a number: any but the separators of records. -/
def isMargin (c : Char) : Bool :=
  isBlank c && !(28 ≤ c.toNat && c.toNat ≤ 31)

/-- The text without the margins of a number. -/
def withoutMargins (text : List Char) : List Char :=
  dropEndWhile isMargin (text.dropWhile isMargin)

/-- The whole number that a text spells, if it spells one. -/
def readInt? (text : List Char) : Option Int :=
  match withoutMargins text with
  | '-' :: cs => (readNat? cs).map fun n => -(n : Int)
  | '+' :: cs => (readNat? cs).map fun n => (n : Int)
  | cs => (readNat? cs).map fun n => (n : Int)

theorem digitValue?_lt {c : Char} {d : Nat} (h : digitValue? c = some d) : d < 10 := by
  obtain ⟨z, hz, rfl⟩ := Option.map_eq_some_iff.1 h
  have := List.find?_some hz
  simp at this
  omega

example : readInt? " -1_0 ".toList = some (-10) := by decide
example : readInt? "1__0".toList = none ∧ readInt? "_1".toList = none := by decide
example : readInt? "1_".toList = none ∧ readInt? "".toList = none := by decide
example : readInt? "٣".toList = some 3 := by decide
example : readInt? "1\x1c".toList = none := by decide

end ApiContract.Text
