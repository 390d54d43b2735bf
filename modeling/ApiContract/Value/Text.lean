import ApiContract.Decimal.Shortest
import ApiContract.Text.Pieces
import ApiContract.Text.Printable
import ApiContract.Value

/-!
# Values in messages

`Value.toText` writes a value for a message or a title: a text as it is, anything else as
`Value.quoted` does, which puts texts in quotes and shows what has no visible form by its number.
-/

namespace ApiContract

namespace Text

/-- `width` hexadecimal digits of a number, in small letters. -/
def hex (width n : Nat) : List Char :=
  let digits := Nat.toDigits 16 n
  List.replicate (width - digits.length) '0' ++ digits

/-- A character between the quotes `quote`. -/
def quoteChar (quote c : Char) : List Char :=
  if c = quote ∨ c = '\\' then ['\\', c]
  else if c = '\n' then ['\\', 'n']
  else if c = '\r' then ['\\', 'r']
  else if c = '\t' then ['\\', 't']
  else if isPrintable c then [c]
  else if c.toNat < 0x100 then '\\' :: 'x' :: hex 2 c.toNat
  else if c.toNat < 0x10000 then '\\' :: 'u' :: hex 4 c.toNat
  else '\\' :: 'U' :: hex 8 c.toNat

/-- The quotes around a text: double ones if it holds a single quote and no double one. -/
def quoteFor (text : List Char) : Char :=
  if '\'' ∈ text ∧ '"' ∉ text then '"' else '\''

/-- A text in quotes. -/
def quoted (text : List Char) : List Char :=
  let quote := quoteFor text
  quote :: text.flatMap (quoteChar quote) ++ [quote]

/-- A byte between the quotes `quote`; only ASCII has a visible form. -/
def quoteByte (quote : Char) (b : UInt8) : List Char :=
  if b.toNat < 0x7F then quoteChar quote (Char.ofNat b.toNat) else '\\' :: 'x' :: hex 2 b.toNat

/-- Bytes in quotes, marked by a letter. -/
def quotedBytes (bytes : List UInt8) : List Char :=
  let quote := quoteFor (bytes.map fun b => Char.ofNat b.toNat)
  'b' :: quote :: bytes.flatMap (quoteByte quote) ++ [quote]

end Text

/-- Numbers as arguments of a constructor. -/
def arguments (numbers : List Nat) : String :=
  Text.commaSeparated (numbers.map Nat.repr)

/-- A date as a constructor applied to its parts. -/
def Date.quoted (d : Date) : String :=
  "datetime.date(" ++ arguments [d.year, d.month, d.day] ++ ")"

namespace Instant

/-- A distance from universal time as a constructor applied to days and seconds, of which only
those that are not zero are written. -/
def offsetQuoted (minutes : Int) : String :=
  if minutes = 0 then "datetime.timezone.utc"
  else
    let days := minutes / 1440
    let seconds := minutes % 1440 * 60
    let parts := (if days = 0 then [] else ["days=" ++ toString days]) ++
      (if seconds = 0 then [] else ["seconds=" ++ toString seconds])
    "datetime.timezone(datetime.timedelta(" ++ Text.commaSeparated parts ++ "))"

/-- An instant as a constructor applied to its parts, without zeros after the minute. -/
def quoted (t : Instant) : String :=
  let time :=
    if t.microsecond ≠ 0 then [t.second, t.microsecond]
    else if t.second ≠ 0 then [t.second]
    else []
  "datetime.datetime(" ++
    arguments ([t.date.year, t.date.month, t.date.day, t.hour, t.minute] ++ time) ++
    (match t.offset with
      | some m => ", tzinfo=" ++ offsetQuoted m
      | none => "") ++ ")"

end Instant

/-- A scalar inside a message, texts in quotes. -/
def Scalar.quoted : Scalar → String
  | null => "None"
  | bool b => if b then "True" else "False"
  | int n => toString n
  | float x => String.ofList (Decimal.plain.write x)
  | text s => String.ofList (Text.quoted s.toList)
  | date d => d.quoted
  | instant t => t.quoted
  | bytes bs => String.ofList (Text.quotedBytes bs)

/-- A scalar by itself: texts, dates and instants as they are. -/
def Scalar.toText : Scalar → String
  | text s => s
  | date d => d.text
  | instant t => t.text " "
  | s => s.quoted

namespace Value

mutual

/-- A value inside a message, texts in quotes. -/
def quoted : Value → String
  | scalar s => s.quoted
  | list items => "[" ++ Text.commaSeparated (quotedItems items) ++ "]"
  | object fields => "\x7b" ++ Text.commaSeparated (quotedFields fields) ++ "\x7d"
  | set members =>
    if members.isEmpty then "set()"
    else "\x7b" ++ Text.commaSeparated (members.map Scalar.quoted) ++ "\x7d"

/-- The items of a list inside a message. -/
def quotedItems : List Value → List String
  | [] => []
  | item :: items => item.quoted :: quotedItems items

/-- The fields of an object inside a message. -/
def quotedFields : List (Scalar × Value) → List String
  | [] => []
  | (key, value) :: fields => (key.quoted ++ ": " ++ value.quoted) :: quotedFields fields

end

/-- A value by itself. -/
def toText : Value → String
  | scalar s => s.toText
  | v => v.quoted

end Value

example : (Value.list [.text "x", .null]).toText = "['x', None]" := by decide +kernel
example : (Value.object [(.text "a", .text "it's")]).toText = "\x7b'a': \"it's\"\x7d" := by
  decide +kernel
example : Scalar.toText (.text "a\n") = "a\n" ∧ Scalar.quoted (.text "a\n") = "'a\\n'" := by
  decide +kernel
example : Scalar.quoted (.instant ⟨⟨2024, 1, 2⟩, 3, 4, 0, 0, some (-60)⟩) =
    "datetime.datetime(2024, 1, 2, 3, 4, " ++
      "tzinfo=datetime.timezone(datetime.timedelta(days=-1, seconds=82800)))" := by
  decide +kernel

end ApiContract
