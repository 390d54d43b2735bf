/-!
# Faults in JSON texts

A `Json.Fault` says what is wrong and how many characters of the text remain from there on; the
place in lines and columns is worked out only for the message.
-/

namespace ApiContract.Json

/-- What can be wrong with a JSON text. -/
inductive Fault.Kind
  | byteOrderMark
  | expectingValue
  | expectingName
  | expectingColon
  | expectingComma
  | unterminatedText
  | controlCharacter
  | unknownEscape
  | malformedEscape
  | extraData
  deriving DecidableEq, Repr

/-- A fault with the number of characters from its place to the end of the text. -/
structure Fault where
  kind : Fault.Kind
  left : Nat
  deriving DecidableEq, Repr

/-- What is wrong, in words. -/
def Fault.Kind.text : Fault.Kind → String
  | byteOrderMark => "Unexpected UTF-8 BOM (decode using utf-8-sig)"
  | expectingValue => "Expecting value"
  | expectingName => "Expecting property name enclosed in double quotes"
  | expectingColon => "Expecting ':' delimiter"
  | expectingComma => "Expecting ',' delimiter"
  | unterminatedText => "Unterminated string starting at"
  | controlCharacter => "Invalid control character at"
  | unknownEscape => "Invalid \\escape"
  | malformedEscape => "Invalid \\uXXXX escape"
  | extraData => "Extra data"

/-- The message of a fault in `text`: its kind, line, column and the number of characters before
it. Lines and columns count from one. -/
def Fault.message (text : List Char) (fault : Fault) : String :=
  let before := text.take (text.length - fault.left)
  let line := before.count '\n' + 1
  let column := (before.reverse.takeWhile (· ≠ '\n')).length + 1
  fault.kind.text ++ ": line " ++ toString line ++ " column " ++ toString column ++ " (char " ++
    toString before.length ++ ")"

example : Fault.message "\x7b\n ]".toList ⟨.expectingName, 1⟩ =
    "Expecting property name enclosed in double quotes: line 2 column 2 (char 3)" := by
  decide +kernel

end ApiContract.Json
