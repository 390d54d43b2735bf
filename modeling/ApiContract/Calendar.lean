/-!
# Dates and instants

A `Date` is a day of the Gregorian calendar and an `Instant` a time on a day, perhaps with its
distance from universal time. `Date.dayNumber` counts days, so that two instants in different zones
can be compared.

The examples fix the written forms.
-/

namespace ApiContract

/-- A day of the calendar. -/
structure Date where
  year : Nat
  month : Nat
  day : Nat
  deriving DecidableEq, Repr

/-- A time of a day; `offset` is the distance from universal time in minutes. -/
structure Instant where
  date : Date
  hour : Nat
  minute : Nat
  second : Nat
  microsecond : Nat
  offset : Option Int
  deriving DecidableEq, Repr

namespace Date

/-- A leap year. -/
def isLeap (year : Nat) : Bool :=
  year % 4 == 0 && (year % 100 != 0 || year % 400 == 0)

/-- The number of days of a month. -/
def daysIn (year month : Nat) : Nat :=
  if month = 2 then (if isLeap year then 29 else 28)
  else if month = 4 ∨ month = 6 ∨ month = 9 ∨ month = 11 then 30
  else 31

/-- A day that the calendar has, of the years 1 to 9999. -/
def isValid (d : Date) : Bool :=
  decide (1 ≤ d.year ∧ d.year ≤ 9999 ∧ 1 ≤ d.month ∧ d.month ≤ 12 ∧ 1 ≤ d.day ∧
    d.day ≤ daysIn d.year d.month)

/-- The number of the day, counted from the first day of the year 1. -/
def dayNumber (d : Date) : Nat :=
  let past := d.year - 1
  let months := (List.range d.month).drop 1
  let before := months.foldl (fun days month => days + daysIn d.year month) 0
  365 * past + past / 4 - past / 100 + past / 400 + before + d.day - 1

end Date

/-- A number with zeros before it, up to a width. -/
def padded (width n : Nat) : String :=
  let digits := Nat.toDigits 10 n
  String.ofList (List.replicate (width - digits.length) '0' ++ digits)

/-- The written form `2024-01-02` of a date. -/
def Date.text (d : Date) : String :=
  padded 4 d.year ++ "-" ++ padded 2 d.month ++ "-" ++ padded 2 d.day

namespace Instant

/-- A time that clocks show, on a valid day, less than a day from universal time. -/
def isValid (t : Instant) : Bool :=
  t.date.isValid && t.hour < 24 && t.minute < 60 && t.second < 60 && t.microsecond < 1000000 &&
    t.offset.all fun m => -1440 < m && m < 1440

/-- The written form of a distance from universal time. -/
def offsetText (minutes : Int) : String :=
  (if minutes < 0 then "-" else "+") ++ padded 2 (minutes.natAbs / 60) ++ ":" ++
    padded 2 (minutes.natAbs % 60)

/-- The written form of an instant, with `sep` between the day and the time. -/
def text (sep : String) (t : Instant) : String :=
  t.date.text ++ sep ++ padded 2 t.hour ++ ":" ++ padded 2 t.minute ++ ":" ++ padded 2 t.second ++
    (if t.microsecond = 0 then "" else "." ++ padded 6 t.microsecond) ++
    (t.offset.map offsetText).getD ""

/-- Microseconds since the first day of the year 1, less the distance from universal time. -/
def universal (t : Instant) : Int :=
  let minutes : Int := (t.date.dayNumber * 24 + t.hour : Nat) * 60 + t.minute - t.offset.getD 0
  (minutes * 60 + t.second) * 1000000 + t.microsecond

/-- Whether two instants name the same moment; an instant without a zone is comparable only to
another such. -/
def same (t u : Instant) : Bool :=
  t.offset.isSome == u.offset.isSome && t.universal == u.universal

end Instant

example : (Date.mk 2024 2 29).isValid ∧ ¬ (Date.mk 2023 2 29).isValid := by decide
example : (Date.mk 2024 3 1).dayNumber = (Date.mk 2024 2 29).dayNumber + 1 := by decide
example : (Date.mk 2025 1 1).dayNumber = (Date.mk 2024 12 31).dayNumber + 1 := by decide
example : (Instant.mk ⟨2001, 12, 14⟩ 21 59 43 100000 (some (-300))).text "T" =
    "2001-12-14T21:59:43.100000-05:00" := by decide +kernel

end ApiContract
