import ApiContract.Yaml.Scalar.Block
import ApiContract.Yaml.Scalar.Plain
import ApiContract.Yaml.Scalar.Quoted
import ApiContract.Yaml.Tag

/-!
# Cutting a YAML text into tokens

Most keys are not marked: that a value was a key shows only when the colon after it is reached. So
the place of every value that could be a key is kept, one for each open bracket, until a colon
follows on the same line within 1024 characters; then the token of a key is put in at that place. A
value that stands where only a key can stand must turn out to be one.

Blocks begin where the indentation grows and end where it falls back.
-/

namespace ApiContract.Yaml

/-- A value that may turn out to be a key: the number of its first token and its place. -/
structure KeyCandidate where
  position : Nat
  required : Bool
  index : Nat
  line : Nat
  column : Nat
  deriving DecidableEq, Repr

/-- What is known while a text is cut into tokens. -/
structure Lexer where
  cursor : Cursor
  /-- The tokens so far, the last one first. -/
  tokens : List Token := []
  /-- The indentations of the open blocks, the innermost first. -/
  indents : List Int := [-1]
  /-- The possible key inside each open bracket, the innermost first, and outside of all. -/
  candidates : List (Option KeyCandidate) := [none]
  /-- Whether a key may begin here. -/
  keyAllowed : Bool := true

namespace Lexer

/-- Whether a bracket is open. -/
def inFlow (l : Lexer) : Bool := 1 < l.candidates.length

/-- The indentation of the innermost block. -/
def indent (l : Lexer) : Int := l.indents.headD (-1)

/-- Adds a token. -/
def emit (l : Lexer) (t : Token) : Lexer := { l with tokens := t :: l.tokens }

/-- Adds a token and goes on after some characters. -/
def emitMark (l : Lexer) (t : Token) (width : Nat) : Lexer :=
  { l with tokens := t :: l.tokens, cursor := l.cursor.advance width }

/-- Puts a token in before the token of a number. -/
def insertAt (l : Lexer) (position : Nat) (t : Token) : Lexer :=
  let after := l.tokens.length - position
  { l with tokens := l.tokens.take after ++ t :: l.tokens.drop after }

/-- Gives up the possible key inside the innermost bracket. -/
def dropCandidate (l : Lexer) : Except Fault Lexer :=
  match l.candidates with
  | some k :: rest =>
    if k.required then .error .malformed else .ok { l with candidates := none :: rest }
  | _ => .ok l

/-- Keeps the place of the next value, if a key may begin there. -/
def saveCandidate (l : Lexer) : Except Fault Lexer :=
  if l.keyAllowed then do
    let l ← l.dropCandidate
    let c := l.cursor
    let k : KeyCandidate :=
      ⟨l.tokens.length, !l.inFlow && l.indent == (c.column : Int), c.index, c.line, c.column⟩
    return { l with candidates := some k :: l.candidates.drop 1 }
  else .ok l

/-- Whether a possible key is too far away. -/
def isStale (c : Cursor) (k : KeyCandidate) : Bool :=
  k.line != c.line || k.index + 1024 < c.index

/-- Gives up the possible keys that are too far away. -/
def dropStale (l : Lexer) : Except Fault Lexer :=
  let stale (k : KeyCandidate) : Bool := isStale l.cursor k
  if l.candidates.any fun k => k.any fun k => stale k && k.required then .error .malformed
  else .ok { l with candidates := l.candidates.map fun k => k.filter fun k => !stale k }

/-- The indentations above a column are closed; counts them. -/
def closing (column : Int) : List Int → Nat × List Int
  | [] => (0, [])
  | i :: rest =>
    if column < i then
      let (n, left) := closing column rest
      (n + 1, left)
    else (0, i :: rest)

/-- Ends the blocks that are indented by more than a column. -/
def unwind (l : Lexer) (column : Int) : Lexer :=
  if l.inFlow then l
  else
    let (n, left) := closing column l.indents
    { l with indents := left, tokens := List.replicate n .blockEnd ++ l.tokens }

/-- Begins a block at a column, if it is indented by more than the innermost one. -/
def openBlock (l : Lexer) (column : Nat) : Bool × Lexer :=
  if l.indent < column then (true, { l with indents := (column : Int) :: l.indents })
  else (false, l)

/-- The place of the next token, and whether a line ended before it. -/
def skipSpace : Nat → Bool → Cursor → Bool × Cursor
  | 0, ended, c => (ended, c)
  | fuel + 1, ended, c =>
    let c := c.skip (· == ' ')
    let c := if c.on (· == '#') then c.skip (fun ch => !isBreak ch) else c
    match c.lineBreak? with
    | some (_, c) => skipSpace fuel true c
    | none => (ended, c)

/-- Goes to the next token. Outside brackets a key may begin on a new line. -/
def toNextToken (l : Lexer) : Lexer :=
  let c := if l.cursor.index = 0 ∧ l.cursor.on (· == '\uFEFF') then l.cursor.next else l.cursor
  let (ended, c) := skipSpace (c.rest.length + 1) false c
  { l with cursor := c, keyAllowed := l.keyAllowed || (ended && !l.inFlow) }

/-- A line of its own outside all blocks: a directive or a mark between documents. -/
def outside (l : Lexer) : Except Fault Lexer := do
  let l ← (l.unwind (-1)).dropCandidate
  return { l with keyAllowed := false }

/-- A bracket opens. -/
def openBracket (l : Lexer) (t : Token) : Except Fault Lexer := do
  let l ← l.saveCandidate
  return { l.emitMark t 1 with candidates := none :: l.candidates, keyAllowed := true }

/-- A bracket closes. -/
def closeBracket (l : Lexer) (t : Token) : Except Fault Lexer :=
  if l.inFlow then
    .ok { l.emitMark t 1 with candidates := l.candidates.drop 1, keyAllowed := false }
  else .error .malformed

/-- The mark between entries inside brackets. -/
def flowEntry (l : Lexer) : Except Fault Lexer := do
  let l ← l.dropCandidate
  return { l.emitMark .flowEntry 1 with keyAllowed := true }

/-- Begins a block of a kind at the cursor, if its indentation says so. -/
def beginBlock (l : Lexer) (t : Token) : Except Fault Lexer :=
  if l.inFlow then .ok l
  else if l.keyAllowed then
    let (opened, l) := l.openBlock l.cursor.column
    .ok (if opened then l.emit t else l)
  else .error .malformed

/-- The mark of an item. -/
def blockEntry (l : Lexer) : Except Fault Lexer := do
  let l ← (← l.beginBlock .blockSequenceStart).dropCandidate
  return { l.emitMark .blockEntry 1 with keyAllowed := true }

/-- The mark of a key. -/
def keyMark (l : Lexer) : Except Fault Lexer := do
  let l ← (← l.beginBlock .blockMappingStart).dropCandidate
  return { l.emitMark .key 1 with keyAllowed := !l.inFlow }

/-- The mark of a value: the possible key before it is one. -/
def valueMark (l : Lexer) : Except Fault Lexer :=
  match l.candidates with
  | some k :: rest =>
    let l := { l with candidates := none :: rest }.insertAt k.position .key
    let (opened, l) := if l.inFlow then (false, l) else l.openBlock k.column
    let l := if opened then l.insertAt k.position .blockMappingStart else l
    .ok { l.emitMark .value 1 with keyAllowed := false }
  | _ => do
    let l ← (← l.beginBlock .blockMappingStart).dropCandidate
    return { l.emitMark .value 1 with keyAllowed := !l.inFlow }

/-- A value, or what stands before one, that may be a key. -/
def keyable (l : Lexer) (read : Cursor → Except Fault (Token × Cursor)) : Except Fault Lexer := do
  let l ← l.saveCandidate
  let (t, c) ← read l.cursor
  return { l.emit t with cursor := c, keyAllowed := false }

/-- A text in quotes. -/
def quoted (l : Lexer) (double : Bool) : Except Fault Lexer :=
  l.keyable fun c => (Quoted.read double c).map fun (text, c) => (.scalar false text, c)

/-- A text as a block. -/
def block (l : Lexer) (folding : Bool) : Except Fault Lexer := do
  let l ← l.dropCandidate
  let (text, c) ← Block.read folding l.indent l.cursor
  return { l.emit (.scalar false text) with cursor := c, keyAllowed := true }

/-- A plain text. A key may begin after it if it ended with its line. -/
def plain (l : Lexer) : Except Fault Lexer := do
  let l ← l.saveCandidate
  let (text, ended, c) := Plain.read l.inFlow l.indent l.cursor
  return { l.emit (.scalar true text) with cursor := c, keyAllowed := ended }

/-- The characters that mark something and so begin no plain text, or only before one that is not
white space. -/
def isMark (c : Char) : Bool :=
  c ∈ "-?:,[]\x7b\x7d#&*!|>'\"%@`".toList

/-- Whether a plain text begins at the cursor. -/
def beginsPlain (l : Lexer) (ch : Char) : Bool :=
  !(isWhite ch || isMark ch) ||
    (!l.cursor.endsOrAhead 1 isWhite && (ch == '-' || (!l.inFlow && (ch == '?' || ch == ':'))))

/-- Adds the tokens of what begins at the cursor with a character. -/
def token (l : Lexer) (ch : Char) : Except Fault Lexer :=
  let atStart := l.cursor.column == 0
  let alone := l.cursor.endsOrAhead 1 isWhite
  if ch == '%' && atStart then do
    let l ← l.outside
    let (d, c) ← Directive.read Block.endOfLine l.cursor
    return { l.emit (.directive d) with cursor := c }
  else if ch == '-' && atStart && l.cursor.atDocumentMark then
    l.outside.map fun l => l.emitMark .documentStart 3
  else if ch == '.' && atStart && l.cursor.atDocumentMark then
    l.outside.map fun l => l.emitMark .documentEnd 3
  else if ch == '[' then l.openBracket .flowSequenceStart
  else if ch == '\x7b' then l.openBracket .flowMappingStart
  else if ch == ']' then do (← l.dropCandidate).closeBracket .flowSequenceEnd
  else if ch == '\x7d' then do (← l.dropCandidate).closeBracket .flowMappingEnd
  else if ch == ',' then l.flowEntry
  else if ch == '-' && alone then l.blockEntry
  else if ch == '?' && (l.inFlow || alone) then l.keyMark
  else if ch == ':' && (l.inFlow || alone) then l.valueMark
  else if ch == '*' then l.keyable fun c => (Anchor.read c).map fun (name, c) => (.alias name, c)
  else if ch == '&' then l.keyable fun c => (Anchor.read c).map fun (name, c) => (.anchor name, c)
  else if ch == '!' then l.keyable Tag.read
  else if ch == '|' && !l.inFlow then l.block false
  else if ch == '>' && !l.inFlow then l.block true
  else if ch == '\'' then l.quoted false
  else if ch == '"' then l.quoted true
  else if l.beginsPlain ch then l.plain
  else .error .malformed

/-- Goes to the next token and adds it. At the end of the text there is none. -/
def step (l : Lexer) : Except Fault (Option Lexer × Lexer) := do
  let l ← l.toNextToken.dropStale
  let l := l.unwind l.cursor.column
  match l.cursor.peek? with
  | none =>
    let l ← (l.unwind (-1)).dropCandidate
    return (none, l)
  | some ch =>
    let l ← l.token ch
    return (some l, l)

/-- The tokens up to the end of the text, or up to a fault. Every step takes a character. -/
def run : Nat → Lexer → List Token
  | 0, l => (.broken .malformed :: l.tokens).reverse
  | fuel + 1, l =>
    match l.step with
    | .error fault => (.broken fault :: l.tokens).reverse
    | .ok (none, l) => l.tokens.reverse
    | .ok (some l, _) => run fuel l

end Lexer

/-- A character that may stand in a YAML text. -/
def isAllowed (c : Char) : Bool :=
  let n := c.toNat
  n == 0x09 || n == 0x0A || n == 0x0D || (0x20 ≤ n && n ≤ 0x7E) || n == 0x85 ||
    (0xA0 ≤ n && n ≤ 0xD7FF) || (0xE000 ≤ n && n ≤ 0xFFFD) || 0x10000 ≤ n

/-- The tokens of a text. -/
def tokens (text : List Char) : List Token :=
  if text.all isAllowed then Lexer.run (text.length + 2) { cursor := { rest := text } }
  else [.broken .malformed]

example : tokens "a: [1, 'x']\n".toList =
    [.blockMappingStart, .key, .scalar true ['a'], .value, .flowSequenceStart, .scalar true ['1'],
      .flowEntry, .scalar false ['x'], .flowSequenceEnd, .blockEnd] := by decide +kernel
example : tokens "- a\n-\n".toList =
    [.blockSequenceStart, .blockEntry, .scalar true ['a'], .blockEntry, .blockEnd] := by
  decide +kernel

end ApiContract.Yaml
