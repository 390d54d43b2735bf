import ApiContract.Yaml.Kind
import ApiContract.Yaml.Lexer

/-!
# Nodes of a YAML document

A document is one node: a text, a sequence of nodes, or a mapping of nodes to nodes, each with its
kind. `Node.ofTokens` puts the nodes together from the tokens by the grammar of YAML. Where a node
may be missing there is an empty text, whose kind is null.

An anchor names a node for the rest of the document; an alias stands for the node that is named. A
name is given once, and no node may hold an alias of itself.

Of every two nested rules at least one takes a token, so twice the number of tokens bounds their
depth.
-/

namespace ApiContract.Yaml

/-- A node of a document. -/
inductive Node
  | scalar (kind : Kind) (text : List Char)
  | sequence (kind : Kind) (items : List Node)
  | mapping (kind : Kind) (entries : List (Node × Node))
  deriving Repr

namespace Node

/-- The kind of a node. -/
def kind : Node → Kind
  | scalar k _ | sequence k _ | mapping k _ => k

/-- The node that stands where there is none. -/
def empty : Node := scalar .null []

end Node

/-- What is known while nodes are put together. -/
structure Assembly where
  /-- The tokens that are left. -/
  tokens : List Token
  /-- The nodes by their anchors; a node that is not complete is missing. -/
  anchors : List (List Char × Option Node) := []
  /-- What the handles of tags stand for. -/
  handles : List (List Char × List Char) := []

/-- A rule of the grammar. -/
abbrev Rule := StateT Assembly (Except Fault)

namespace Rule

/-- Gives up. -/
def refuse (fault : Fault) : Rule α := fun _ => .error fault

/-- The next token, if there is one. It must not be broken. -/
def peek : Rule (Option Token) := do
  match (← get).tokens with
  | .broken fault :: _ => refuse fault
  | tokens => return tokens.head?

/-- Goes on to the token after the next one. -/
def advance : Rule Unit :=
  modify fun a => { a with tokens := a.tokens.drop 1 }

/-- Takes the next token if it is a certain one. -/
def accept (t : Token) : Rule Bool := do
  if (← peek) = some t then
    advance
    return true
  else return false

/-- Takes the next token, which has to be a certain one. -/
def expect (t : Token) : Rule Unit := do
  if !(← accept t) then refuse .malformed

/-- The node that a rule gives, or the empty one before certain tokens. -/
def orEmpty (stops : List Token) (rule : Rule Node) : Rule Node := do
  match ← peek with
  | some t => if t ∈ stops then return .empty else rule
  | none => rule

/-- An anchor, if it comes next. -/
def anchor? : Rule (Option (List Char)) := do
  match ← peek with
  | some (.anchor name) =>
    advance
    return some name
  | _ => return none

/-- The full name of a tag, if a tag comes next. -/
def tag? : Rule (Option (List Char)) := do
  match ← peek with
  | some (.tag none name) =>
    advance
    return some name
  | some (.tag (some handle) suffix) =>
    advance
    match (← get).handles.lookup handle with
    | some start => return some (start ++ suffix)
    | none => refuse .malformed
  | _ => return none

/-- The anchor and the tag before a node, in either order. -/
def properties : Rule (Option (List Char) × Option (List Char)) := do
  match ← anchor? with
  | some name => return (some name, ← tag?)
  | none =>
    match ← tag? with
    | some tag => return (← anchor?, some tag)
    | none => return (none, none)

/-- The kind of a node with a tag; `bare` without one, or with one that says nothing. -/
def kindOf (tag : Option (List Char)) (bare : Kind) : Kind :=
  match tag with
  | none | some ['!'] => bare
  | some name => .ofTag name

/-- The kind of a text: its form decides if it is plain, or if its tag says nothing. -/
def textKind (tag : Option (List Char)) (plain : Bool) (text : List Char) : Kind :=
  if tag = some ['!'] ∨ plain then kindOf tag (.ofForm text) else kindOf tag .string

/-- Gives a node a name. -/
def name (anchor : Option (List Char)) (node : Option Node) : Rule Unit :=
  match anchor with
  | none => return
  | some name => modify fun a => { a with anchors := (name, node) :: a.anchors }

/-- Makes sure that a name is not given yet. -/
def checkUnused (anchor : Option (List Char)) : Rule Unit := do
  match anchor with
  | none => return
  | some name => if ((← get).anchors.lookup name).isSome then refuse .malformed

/-- The node that an alias stands for. -/
def named (name : List Char) : Rule Node := do
  match (← get).anchors.lookup name with
  | some (some node) => return node
  | _ => refuse .malformed

mutual

/-- A node. A block stands only outside brackets, and a sequence at the indentation of its mapping
only after a key or a colon. -/
def node (block indentless : Bool) : Nat → Rule Node
  | 0 => refuse .malformed
  | fuel + 1 => do
    match ← peek with
    | some (.alias a) =>
      advance
      named a
    | _ =>
      let (anchor, tag) ← properties
      checkUnused anchor
      let collection (body : Rule Node) : Rule Node := do
        name anchor none
        let n ← body
        name anchor (some n)
        return n
      let sequence (items : Rule (List Node)) : Rule Node :=
        collection (Node.sequence (kindOf tag .sequence) <$> items)
      let mapping (entries : Rule (List (Node × Node))) : Rule Node :=
        collection (Node.mapping (kindOf tag .mapping) <$> entries)
      let next ← peek
      if indentless && next == some .blockEntry then sequence (indentlessItems fuel)
      else
        match next with
        | some (.scalar plain text) =>
          advance
          let n := Node.scalar (textKind tag (plain && tag.isNone) text) text
          name anchor (some n)
          return n
        | some .flowSequenceStart =>
          advance
          sequence (flowItems true fuel)
        | some .flowMappingStart =>
          advance
          mapping (flowEntries true fuel)
        | some .blockSequenceStart =>
          if !block then refuse .malformed
          advance
          sequence (blockItems fuel)
        | some .blockMappingStart =>
          if !block then refuse .malformed
          advance
          mapping (blockEntries fuel)
        | _ =>
          if anchor.isNone && tag.isNone then refuse .malformed
          let n := Node.scalar (textKind tag tag.isNone []) []
          name anchor (some n)
          return n

/-- The items of a block up to its end. -/
def blockItems : Nat → Rule (List Node)
  | 0 => refuse .malformed
  | fuel + 1 => do
    if ← accept .blockEntry then
      let item ← orEmpty [.blockEntry, .blockEnd] (node true false fuel)
      return item :: (← blockItems fuel)
    else
      expect .blockEnd
      return []

/-- The items of a sequence at the indentation of its mapping. -/
def indentlessItems : Nat → Rule (List Node)
  | 0 => refuse .malformed
  | fuel + 1 => do
    if ← accept .blockEntry then
      let item ← orEmpty [.blockEntry, .key, .value, .blockEnd] (node true false fuel)
      return item :: (← indentlessItems fuel)
    else return []

/-- The entries of a block up to its end. What follows the mark of a key, and the value, may be
missing. -/
def blockEntries : Nat → Rule (List (Node × Node))
  | 0 => refuse .malformed
  | fuel + 1 => do
    let stops : List Token := [.key, .value, .blockEnd]
    if ← accept .key then
      let key ← orEmpty stops (node true true fuel)
      let value ← if ← accept .value then orEmpty stops (node true true fuel) else pure .empty
      return (key, value) :: (← blockEntries fuel)
    else
      expect .blockEnd
      return []

/-- The items inside brackets up to their end. A key here begins a mapping of one entry. -/
def flowItems (first : Bool) : Nat → Rule (List Node)
  | 0 => refuse .malformed
  | fuel + 1 => do
    if ← accept .flowSequenceEnd then return []
    if !first then expect .flowEntry
    if ← accept .key then
      let key ← orEmpty [.value, .flowEntry, .flowSequenceEnd] (node false false fuel)
      let value ←
        if ← accept .value then orEmpty [.flowEntry, .flowSequenceEnd] (node false false fuel)
        else pure .empty
      return .mapping .mapping [(key, value)] :: (← flowItems false fuel)
    else if ← accept .flowSequenceEnd then return []
    else
      let item ← node false false fuel
      return item :: (← flowItems false fuel)

/-- The entries inside braces up to their end. -/
def flowEntries (first : Bool) : Nat → Rule (List (Node × Node))
  | 0 => refuse .malformed
  | fuel + 1 => do
    if ← accept .flowMappingEnd then return []
    if !first then expect .flowEntry
    if ← accept .key then
      let key ← orEmpty [.value, .flowEntry, .flowMappingEnd] (node false false fuel)
      let value ←
        if ← accept .value then orEmpty [.flowEntry, .flowMappingEnd] (node false false fuel)
        else pure .empty
      return (key, value) :: (← flowEntries false fuel)
    else if ← accept .flowMappingEnd then return []
    else
      let key ← node false false fuel
      return (key, .empty) :: (← flowEntries false fuel)

end

/-- What the handles of tags stand for unless a directive says otherwise. -/
def standardHandles : List (List Char × List Char) :=
  [(['!'], ['!']), (['!', '!'], Kind.standardPrefix)]

/-- The directives before a document: the version of YAML has to be 1, and is given once, as is
every handle. Gives what the handles stand for. -/
def directives (versioned : Bool) (handles : List (List Char × List Char)) :
    Nat → Rule (List (List Char × List Char))
  | 0 => refuse .malformed
  | fuel + 1 => do
    match ← peek with
    | some (.directive d) =>
      advance
      match d with
      | .version major _ =>
        if versioned || major != 1 then refuse .malformed
        directives true handles fuel
      | .tag handle start =>
        if (handles.lookup handle).isSome then refuse .malformed
        directives versioned ((handle, start) :: handles) fuel
      | .other => directives versioned handles fuel
    | _ => return handles ++ standardHandles

/-- Takes the marks of the end of a document. -/
def documentEnds : Nat → Rule Unit
  | 0 => return
  | fuel + 1 => do
    if ← accept .documentEnd then documentEnds fuel

/-- The only document of a text, if there is one. -/
def document : Rule (Option Node) := do
  let fuel := 2 * (← get).tokens.length + 2
  let found ← match ← peek with
    | none => pure none
    | some .documentStart | some (.directive _) =>
      let handles ← directives false [] fuel
      modify fun a => { a with handles }
      expect .documentStart
      match ← peek with
      | none | some .documentStart | some .documentEnd | some (.directive _) =>
        pure (some Node.empty)
      | some _ => some <$> node true false fuel
    | some _ =>
      modify fun a => { a with handles := standardHandles }
      some <$> node true false fuel
  documentEnds fuel
  match ← peek with
  | none => return found
  | some _ => refuse .malformed

end Rule

/-- The document of a text; `none` if the text holds nothing. -/
def Node.ofTokens (tokens : List Token) : Except Fault (Option Node) :=
  (Rule.document.run { tokens }).map Prod.fst

end ApiContract.Yaml
