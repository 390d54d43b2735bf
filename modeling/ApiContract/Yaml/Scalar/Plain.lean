import ApiContract.Yaml.Cursor

/-!
# Texts without quotes

A plain text ends at a comment, at a colon that marks an entry, and where its indentation ends;
inside brackets also at the marks of these. It may go on over several lines.
-/

namespace ApiContract.Yaml.Plain

/-- The marks inside brackets before which a colon ends a text. -/
def isFlowMark (c : Char) : Bool :=
  c == ',' || c == '[' || c == ']' || c == '\x7b' || c == '\x7d'

/-- The longest piece of plain text, without white space, that a text begins with. -/
def piece (flow : Bool) : List Char → List Char
  | [] => []
  | c :: rest =>
    if isWhite c || (c == ':' && rest.head?.all fun d => isWhite d || (flow && isFlowMark d)) ||
        (flow && (isFlowMark c || c == '?')) then []
    else c :: piece flow rest

/-- Empty lines after a line break. Gives their breaks, or nothing at a mark between documents. -/
def emptyLines : Nat → Cursor → Option (List Char) × Cursor
  | 0, c => (some [], c)
  | fuel + 1, c =>
    if c.atDocumentMark then (none, c)
    else
      let c := c.skip (· == ' ')
      match c.lineBreak? with
      | some (b, c) =>
        let (bs, c) := emptyLines fuel c
        (bs.map (b :: ·), c)
      | none => (some [], c)

/-- White space between two pieces. Gives what it stands for, nothing if the text cannot go on, and
whether a line ended. -/
def gap (c : Cursor) : List Char × Bool × Cursor :=
  let (blanks, c) := c.span (· == ' ')
  match c.lineBreak? with
  | none => (blanks, false, c)
  | some (b, c) =>
    let (bs, c) := emptyLines (c.rest.length + 1) c
    match bs with
    | none => ([], true, c)
    | some bs => (if b ≠ '\n' then b :: bs else if bs = [] then [' '] else bs, true, c)

/-- The pieces of a text, with the gaps before them. Also gives whether a line ended at the end. -/
def pieces (flow : Bool) (indent : Int) : Nat → List Char → Bool → Cursor →
    List Char × Bool × Cursor
  | 0, _, ended, c => ([], ended, c)
  | fuel + 1, before, ended, c =>
    let text := piece flow c.rest
    if c.on (· == '#') || text = [] then ([], ended, c)
    else
      let (space, ended, c) := gap (c.advance text.length)
      if space = [] || c.on (· == '#') || (!flow && (c.column : Int) < indent) then
        (before ++ text, ended, c)
      else
        let (more, ended, c) := pieces flow indent fuel space ended c
        (before ++ text ++ more, ended, c)

/-- Reads a plain text at the cursor, inside a block that is indented by `outer`. -/
def read (flow : Bool) (outer : Int) (c : Cursor) : List Char × Bool × Cursor :=
  pieces flow (outer + 1) (c.rest.length + 1) [] false c

end ApiContract.Yaml.Plain
