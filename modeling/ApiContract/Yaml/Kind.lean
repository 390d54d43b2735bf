import ApiContract.Yaml.Time

/-!
# Kinds of YAML values

A tag says what kind of value a node is. A plain text has no tag; `Kind.ofForm` decides by its form
whether it is a number, a truth value, a date, nothing at all, or a text.

The words are those of YAML 1.1: `yes` and `off` are truth values, a whole number that begins with a
zero is octal, and parts between colons count sixty each.
-/

namespace ApiContract.Yaml

/-- What kind of value a node is. -/
inductive Kind
  | null
  | bool
  | int
  | float
  | binary
  | timestamp
  | ordered
  | pairs
  | set
  | string
  | sequence
  | mapping
  /-- The key whose value is merged into the mapping. -/
  | merge
  /-- The key of the value that stands for the mapping. -/
  | value
  /-- A kind that no description can hold. -/
  | other
  deriving DecidableEq, Repr

namespace Kind

/-- The names of the kinds in the tags of YAML. -/
def names : List (String × Kind) := [
  ("null", null), ("bool", bool), ("int", int), ("float", float), ("binary", binary),
  ("timestamp", timestamp), ("omap", ordered), ("pairs", pairs), ("set", set), ("str", string),
  ("seq", sequence), ("map", mapping), ("merge", merge), ("value", value)]

/-- What the tags of YAML begin with. -/
def standardPrefix : List Char := "tag:yaml.org,2002:".toList

/-- The kind that a tag names. -/
def ofTag (tag : List Char) : Kind :=
  if standardPrefix.isPrefixOf tag then
    (names.lookup (String.ofList (tag.drop standardPrefix.length))).getD other
  else other

/-- The words that are truth values, apart from their case, with what they mean. -/
def truthWords : List (String × Bool) :=
  [("yes", true), ("no", false), ("true", true), ("false", false), ("on", true), ("off", false)]

/-- Whether a text is a word in small letters, in capitals, or with one capital first. -/
def isCasing (word text : List Char) : Bool :=
  text == word || text == word.map Char.toUpper || text == word.modifyHead Char.toUpper

/-- The text after a sign at its beginning, if there is one. -/
def unsigned : List Char → List Char
  | '+' :: rest => rest
  | '-' :: rest => rest
  | text => text

/-- A digit or a separator of digits. -/
def isDigitOrSeparator (c : Char) : Bool := c.isDigit || c == '_'

/-- The text after digits and separators of which the first is a digit. -/
def afterDigits? : List Char → Option (List Char)
  | c :: rest => if c.isDigit then some (rest.dropWhile isDigitOrSeparator) else none
  | [] => none

/-- What follows the parts between colons at the beginning of a text, each of them below sixty. -/
def afterSixties : List Char → List Char
  | ':' :: c :: d :: rest =>
    if !d.isDigit then if c.isDigit then afterSixties (d :: rest) else ':' :: c :: d :: rest
    else if '0' ≤ c && c ≤ '5' then afterSixties rest
    else ':' :: c :: d :: rest
  | [':', c] => if c.isDigit then [] else [':', c]
  | text => text

/-- Whether a text is empty or a signed power of ten. -/
def isPower : List Char → Bool
  | [] => true
  | e :: sign :: digits =>
    (e == 'e' || e == 'E') && (sign == '+' || sign == '-') && digits != [] &&
      digits.all Char.isDigit
  | _ => false

/-- Whether a text is a number with a point. -/
def isPointForm (text : List Char) : Bool :=
  match text with
  | '.' :: rest => (afterDigits? rest).any isPower
  | _ =>
    match afterDigits? (unsigned text) with
    | some ('.' :: rest) => isPower (rest.dropWhile isDigitOrSeparator)
    | _ => false

/-- Whether a text is a number with parts below sixty and a point. -/
def isSixtyPointForm (text : List Char) : Bool :=
  match afterDigits? (unsigned text) with
  | some (':' :: rest) =>
    match afterSixties (':' :: rest) with
    | '.' :: rest => rest.all isDigitOrSeparator
    | _ => false
  | _ => false

/-- Whether a text is a number with a point, infinity or no number. -/
def isFloatForm (text : List Char) : Bool :=
  isPointForm text || isSixtyPointForm text ||
    unsigned text ∈ [".inf".toList, ".Inf".toList, ".INF".toList] ||
    text ∈ [".nan".toList, ".NaN".toList, ".NAN".toList]

/-- A hexadecimal digit or a separator of digits. -/
def isHexOrSeparator (c : Char) : Bool :=
  isDigitOrSeparator c || ('a' ≤ c && c ≤ 'f') || ('A' ≤ c && c ≤ 'F')

/-- Whether a text is a whole number: binary, octal, hexadecimal, decimal, or with parts below
sixty. -/
def isIntForm (text : List Char) : Bool :=
  match unsigned text with
  | ['0'] => true
  | '0' :: 'b' :: rest => rest != [] && rest.all fun c => c == '0' || c == '1' || c == '_'
  | '0' :: 'x' :: rest => rest != [] && rest.all isHexOrSeparator
  | '0' :: rest => rest.all fun c => ('0' ≤ c && c ≤ '7') || c == '_'
  | text =>
    match afterDigits? text with
    | some rest => afterSixties rest == []
    | none => false

/-- The words for nothing. -/
def nullWords : List (List Char) :=
  [[], "~".toList, "null".toList, "Null".toList, "NULL".toList]

/-- The kind of a text by its form. A line feed at the end does not count, unless it is all. -/
def ofForm (text : List Char) : Kind :=
  let body := if text.length ≥ 2 ∧ text.getLast? = some '\n' then text.dropLast else text
  if truthWords.any fun word => isCasing word.1.toList body then bool
  else if isFloatForm body then float
  else if isIntForm body then int
  else if body = ['<', '<'] then merge
  else if body ∈ nullWords then null
  else if Time.isForm body then timestamp
  else if body = ['='] then value
  else if body ∈ [['!'], ['&'], ['*']] then other
  else string

example : ["yes", "Off", "tRue", "12", "012", "0x1F", "1:30", "-1_0.5", "1e3", ".inf", "<<", "~",
    "", "2001-12-14", "=", "x"].map (fun s => ofForm s.toList) =
    [bool, bool, string, int, int, int, int, float, string, float, merge, null, null, timestamp,
      value, string] := by decide +kernel

end Kind

end ApiContract.Yaml
