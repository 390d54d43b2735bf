import ApiContract.Calendar
import ApiContract.Yaml.Cursor

/-!
# Dates and instants in YAML

A date is written `2001-12-14`; a time of the day and a zone may follow, as in
`2001-12-14t21:59:43.10-05:00`. Month, day, hour and the hours of a zone may have one digit only,
but a date by itself is recognised without a tag only if it has all of its digits.
-/

namespace ApiContract.Yaml.Time

/-- The parts of a written instant, which need not exist in the calendar. -/
structure Parts where
  date : Date
  /-- Hour, minute, second and microsecond. -/
  clock : Option (Nat × Nat × Nat × Nat)
  /-- The distance from universal time in minutes. -/
  offset : Option Int
  deriving DecidableEq, Repr

/-- The value of a digit. -/
def digit (c : Char) : Nat := c.toNat - '0'.toNat

/-- Reads two digits, or one where the second is missing and may be. -/
def oneOrTwo? : List Char → Option (Nat × List Char)
  | c :: d :: rest =>
    if !c.isDigit then none
    else if d.isDigit then some (10 * digit c + digit d, rest)
    else some (digit c, d :: rest)
  | [c] => if c.isDigit then some (digit c, []) else none
  | [] => none

/-- Reads two digits. -/
def two? : List Char → Option (Nat × List Char)
  | c :: d :: rest =>
    if c.isDigit && d.isDigit then some (10 * digit c + digit d, rest) else none
  | _ => none

/-- The text after a character that has to stand there. -/
def after? (c : Char) : List Char → Option (List Char)
  | d :: rest => if d = c then some rest else none
  | [] => none

/-- Reads a date. -/
def date? (text : List Char) : Option (Date × List Char) := do
  let (century, rest) ← two? text
  let (year, rest) ← two? rest
  let (month, rest) ← oneOrTwo? (← after? '-' rest)
  let (day, rest) ← oneOrTwo? (← after? '-' rest)
  return (⟨100 * century + year, month, day⟩, rest)

/-- The microseconds of the digits after the point; the ones after the sixth do not count. -/
def microseconds (digits : List Char) : Nat :=
  (digits.take 6).foldl (fun n c => 10 * n + digit c) 0 *
    Nat.pow 10 (6 - min 6 digits.length)

/-- A blank or a tab. -/
def isBlank (c : Char) : Bool := c == ' ' || c == '\t'

/-- Reads the digits after a point, if there is one. -/
def fraction (text : List Char) : Nat × List Char :=
  match text with
  | '.' :: rest => (microseconds (rest.takeWhile Char.isDigit), rest.dropWhile Char.isDigit)
  | text => (0, text)

/-- Reads a zone that ends the text, if there is one: `Z`, or a sign, hours and perhaps minutes. -/
def zone? (text : List Char) : Option (Option Int) :=
  match text.dropWhile isBlank with
  | [] => if text = [] then some none else none
  | ['Z'] => some (some 0)
  | sign :: rest =>
    if sign = '+' ∨ sign = '-' then do
      let (hours, rest) ← oneOrTwo? rest
      let minutes ← match rest with
        | [] => some 0
        | ':' :: rest => match two? rest with
          | some (minutes, []) => some minutes
          | _ => none
        | _ => none
      let size : Int := (60 * hours + minutes : Nat)
      return some (if sign = '-' then -size else size)
    else none

/-- The text after the separator of date and time: a letter, or blanks. -/
def afterSeparator? (text : List Char) : Option (List Char) :=
  match text with
  | c :: rest =>
    if c = 'T' ∨ c = 't' then some rest
    else if isBlank c then some (rest.dropWhile isBlank)
    else none
  | [] => none

/-- Reads a date, or a date and a time, that fill a text. -/
def read? (text : List Char) : Option Parts := do
  let (date, rest) ← date? text
  if rest = [] then return ⟨date, none, none⟩
  let (hour, rest) ← oneOrTwo? (← afterSeparator? rest)
  let (minute, rest) ← two? (← after? ':' rest)
  let (second, rest) ← two? (← after? ':' rest)
  let (micro, rest) := fraction rest
  return ⟨date, some (hour, minute, second, micro), ← zone? rest⟩

/-- Whether a text without a tag is a date or an instant. -/
def isForm (text : List Char) : Bool :=
  (read? text).any fun parts => parts.clock.isSome || text.length == 10

/-- The day or instant with these parts, if there is one. -/
def scalar? (parts : Parts) : Option (Date ⊕ Instant) :=
  match parts.clock with
  | none => if parts.date.isValid then some (.inl parts.date) else none
  | some (hour, minute, second, micro) =>
    let t : Instant := ⟨parts.date, hour, minute, second, micro, parts.offset⟩
    if t.isValid then some (.inr t) else none

example : read? "2001-12-14t21:59:43.10-05:00".toList =
    some ⟨⟨2001, 12, 14⟩, some (21, 59, 43, 100000), some (-300)⟩ := by decide +kernel
example : isForm "2001-12-14".toList ∧ ¬ isForm "2001-2-4".toList := by decide +kernel

end ApiContract.Yaml.Time
