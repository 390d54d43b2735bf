import ApiContract.Yaml.Cursor

/-!
# Texts as blocks

A block keeps its lines as they are or, folded, joins them with blanks. It is indented; the first
line that is not empty decides by how much, unless the header of the block says so. The header also
says what becomes of the line breaks at the end.
-/

namespace ApiContract.Yaml.Block

/-- What becomes of the line breaks at the end of a block: none is kept, one, or all. -/
inductive Chomping
  | strip
  | clip
  | keep
  deriving DecidableEq, Repr

/-- A sign in the header. -/
def sign? (c : Cursor) : Option (Chomping × Cursor) :=
  match c.peek? with
  | some '+' => some (.keep, c.next)
  | some '-' => some (.strip, c.next)
  | _ => none

/-- A digit in the header. -/
def digit? (c : Cursor) : Option (Nat × Cursor) :=
  match c.peek? with
  | some ch => if ch.isDigit then some (ch.toNat - '0'.toNat, c.next) else none
  | none => none

/-- Reads the header: a sign and a digit in either order, each of them optional. -/
def header (c : Cursor) : Except Fault (Chomping × Option Nat × Cursor) := do
  let (chomping, c) := match sign? c with
    | some (chomping, c) => (some chomping, c)
    | none => (none, c)
  let (increment, c) := match digit? c with
    | some (n, c) => (some n, c)
    | none => (none, c)
  let (chomping, c) := match chomping, increment, sign? c with
    | none, some _, some (chomping, c) => (chomping, c)
    | chomping, _, _ => (chomping.getD .clip, c)
  if increment = some 0 then .error .malformed
  else if c.endsOr isSpace then .ok (chomping, increment, c)
  else .error .malformed

/-- Reads the rest of a line that may hold a comment only. -/
def endOfLine (c : Cursor) : Except Fault Cursor :=
  let c := c.skip (· == ' ')
  let c := if c.on (· == '#') then c.skip (fun ch => !isBreak ch) else c
  match c.lineBreak?, c.peek? with
  | some (_, c), _ => .ok c
  | none, none => .ok c
  | none, some _ => .error .malformed

/-- Empty lines before the block: their breaks and the most blanks among them and the first line. -/
def leading : Nat → Nat → Cursor → List Char × Nat × Cursor
  | 0, most, c => ([], most, c)
  | fuel + 1, most, c =>
    let c := c.skip (· == ' ')
    let most := max most c.column
    match c.lineBreak? with
    | some (b, c) =>
      let (bs, most, c) := leading fuel most c
      (b :: bs, most, c)
    | none => ([], most, c)

/-- The place after the indentation of a line, or after its blanks if there are fewer. -/
def indented (indent : Nat) (c : Cursor) : Cursor :=
  c.advance (((c.rest.take (indent - c.column)).takeWhile (· == ' ')).length)

/-- Empty lines inside the block. -/
def breaks (indent : Nat) : Nat → Cursor → List Char × Cursor
  | 0, c => ([], c)
  | fuel + 1, c =>
    let c := indented indent c
    match c.lineBreak? with
    | some (b, c) =>
      let (bs, c) := breaks indent fuel c
      (b :: bs, c)
    | none => ([], c)

/-- Whether a line of the block begins at the cursor. -/
def inside (indent : Nat) (c : Cursor) : Bool :=
  c.column == indent && !c.rest.isEmpty

/-- The lines of a block: their text, the last break, and the breaks after it. -/
def lines (folding : Bool) (indent : Nat) :
    Nat → List Char → Cursor → List Char × List Char × List Char × Cursor
  | 0, pending, c => ([], [], pending, c)
  | fuel + 1, pending, c =>
    if inside indent c then
      let apart (c : Cursor) : Bool := c.on fun ch => ch == ' ' || ch == '\t'
      let (line, after) := c.span (fun ch => !isBreak ch)
      let (last, after) := match after.lineBreak? with
        | some (b, after) => ([b], after)
        | none => ([], after)
      let (next, after) := breaks indent (after.rest.length + 1) after
      if inside indent after then
        let glue :=
          if folding && last == ['\n'] && !apart c && !apart after then
            if next = [] then [' '] else []
          else last
        let (more, last, left, after) := lines folding indent fuel next after
        (pending ++ line ++ glue ++ more, last, left, after)
      else (pending ++ line, last, next, after)
    else ([], [], pending, c)

/-- Reads a block whose mark is at the cursor, inside a block that is indented by `outer`. -/
def read (folding : Bool) (outer : Int) (c : Cursor) : Except Fault (List Char × Cursor) := do
  let (chomping, increment, c) ← header c.next
  let c ← endOfLine c
  let least := (max (outer + 1) 1).toNat
  let fuel := c.rest.length + 1
  let (pending, indent, c) := match increment with
    | none =>
      let (bs, most, c) := leading fuel 0 c
      (bs, max least most, c)
    | some n =>
      let indent := least + n - 1
      let (bs, c) := breaks indent fuel c
      (bs, indent, c)
  let (text, last, left, c) := lines folding indent fuel pending c
  return match chomping with
    | .strip => (text, c)
    | .clip => (text ++ last, c)
    | .keep => (text ++ last ++ left, c)

end ApiContract.Yaml.Block
