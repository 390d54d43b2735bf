import ApiContract.Text.Base64
import ApiContract.Value
import ApiContract.Yaml.Node
import ApiContract.Yaml.Number

/-!
# Reading YAML

`Yaml.read` gives the value of a text that holds one document; an empty text is null. A run may find
another reader (`World.readYaml`), and what is proved of runs holds of any.

Entries that are merged into a mapping come before its own, and those of a later mapping in a list
before those of an earlier one; of entries with one key the last counts, at the place of the first.
Keys must be scalars.

Of several faults the one nearest to the top of the document counts, and of those on one level the
first: a collection is looked into only after everything beside it.
-/

namespace ApiContract.Yaml

namespace Node

/-- The node as one of another kind. -/
def withKind (kind : Kind) : Node → Node
  | scalar _ text => scalar kind text
  | sequence _ items => sequence kind items
  | mapping _ entries => mapping kind entries

mutual

/-- The text that stands for a node: its own, or that of the entry for the value of a mapping. -/
def text? : Node → Option (List Char)
  | scalar _ text => some text
  | sequence _ _ => none
  | mapping _ entries => textAmong? entries

/-- The text of the entry for the value. -/
def textAmong? : List (Node × Node) → Option (List Char)
  | [] => none
  | (key, value) :: rest => if key.kind = .value then value.text? else textAmong? rest

end

/-- The entries of a mapping that are not merged into it. The key of the value is a text here. -/
def ownEntries (entries : List (Node × Node)) : List (Node × Node) :=
  (entries.filter fun entry => entry.1.kind ≠ .merge).map fun (key, value) =>
    (if key.kind = .value then key.withKind .string else key, value)

mutual

/-- The entries that are merged into a mapping. -/
def merged? : List (Node × Node) → Option (List (Node × Node))
  | [] => some []
  | (key, value) :: rest => do
    if key.kind = .merge then
      let here ← match value with
        | mapping _ entries => do pure ((← merged? entries) ++ ownEntries entries)
        | sequence _ items => mergedItems? items
        | scalar _ _ => none
      return here ++ (← merged? rest)
    else merged? rest
termination_by entries => sizeOf entries
decreasing_by
  all_goals
    simp only [List.cons.sizeOf_spec, Prod.mk.sizeOf_spec, sequence.sizeOf_spec,
      mapping.sizeOf_spec]
    omega

/-- The entries of mappings in a list, the last mapping first. -/
def mergedItems? : List Node → Option (List (Node × Node))
  | [] => some []
  | mapping _ entries :: rest => do
    let here ← merged? entries
    return (← mergedItems? rest) ++ here ++ ownEntries entries
  | _ :: _ => none
termination_by items => sizeOf items
decreasing_by
  all_goals
    simp only [List.cons.sizeOf_spec, mapping.sizeOf_spec]
    omega

end

/-- The entries of a mapping after those that are merged into it. -/
def allEntries? (entries : List (Node × Node)) : Option (List (Node × Node)) :=
  (merged? entries).map (· ++ ownEntries entries)

end Node

/-- The truth value that a word stands for. -/
def readBool (text : List Char) : Except Fault Bool :=
  match Kind.truthWords.lookup (String.ofList (Text.lower text)) with
  | some b => .ok b
  | none => .error .notATruthWord

/-- The bytes that a text stands for. -/
def readBytes (text : List Char) : Except Fault (List UInt8) :=
  if text.all fun c => c.toNat < 128 then
    match Text.Base64.decode? text with
    | some bytes => .ok bytes
    | none => .error .malformed
  else .error .malformed

/-- The date or instant that a text stands for. A line feed at its end does not count. -/
def readTime (text : List Char) : Except Fault Scalar :=
  match Time.read? (if text.getLast? = some '\n' then text.dropLast else text) with
  | none => .error .notADate
  | some parts =>
    match Time.scalar? parts with
    | none => .error .noSuchValue
    | some (.inl date) => .ok (.date date)
    | some (.inr instant) => .ok (.instant instant)

/-- The scalar of a kind that a text stands for. -/
def readScalar (kind : Kind) (text : List Char) : Except Fault Scalar :=
  match kind with
  | .null => .ok .null
  | .bool => .bool <$> readBool text
  | .int => .int <$> Number.int text
  | .float => .float <$> Number.float text
  | .binary => .bytes <$> readBytes text
  | .timestamp => readTime text
  | .string => .ok (.text (String.ofList text))
  | _ => .error .malformed

/-- The scalar that a node stands for. -/
def Node.scalarOf (node : Node) : Except Fault Scalar :=
  match node, node.text? with
  | .scalar kind text, _ => readScalar kind text
  | .mapping .timestamp _, some _ => .error .partsForDate
  | node, some text => readScalar node.kind text
  | _, none => .error .malformed

/-- A result, or a fault with its level in the document. -/
abbrev Leveled := Except (Nat × Fault)

namespace Leveled

/-- Two results, or the fault that counts. -/
def both (x : Leveled α) (y : Leveled β) : Leveled (α × β) :=
  match x, y with
  | .ok a, .ok b => .ok (a, b)
  | .error e, .ok _ => .error e
  | .ok _, .error f => .error f
  | .error e, .error f => .error (if f.1 < e.1 then f else e)

/-- All results, or the fault that counts. -/
def all : List (Leveled α) → Leveled (List α)
  | [] => .ok []
  | x :: xs => (both x (all xs)).map fun (a, as) => a :: as

end Leveled

namespace Node

/-- The value of a node that stands on a level of the document, and is no deeper than `fuel`. -/
def valueOf (level : Nat) : Nat → Node → Leveled Value
  | 0, _ => .error (level, .malformed)
  | fuel + 1, node =>
    let inside := level + 1
    let malformed {α : Type} : Leveled α := .error (inside, .malformed)
    let keyed (entries : List (Node × Node)) : Leveled Fields :=
      match allEntries? entries with
      | none => malformed
      | some entries =>
        (Leveled.all (entries.map fun (key, value) =>
          .both (key.scalarOf.mapError (inside, ·)) (valueOf inside fuel value))).map Fields.ofList
    let pair (node : Node) : Leveled Value :=
      match node with
      | mapping _ [(key, value)] =>
        (Leveled.both (valueOf inside fuel key) (valueOf inside fuel value)).map
          fun (k, v) => .list [k, v]
      | _ => malformed
    match node.kind, node with
    | .sequence, sequence _ items => (Leveled.all (items.map (valueOf inside fuel))).map .list
    | .mapping, mapping _ entries => (keyed entries).map .object
    | .set, mapping _ entries => (keyed entries).map fun fields => .set (fields.map Prod.fst)
    | .ordered, sequence _ items | .pairs, sequence _ items =>
      (Leveled.all (items.map pair)).map .list
    | .sequence, _ | .mapping, _ | .set, _ | .ordered, _ | .pairs, _ => malformed
    | _, node => (node.scalarOf.mapError (level, ·)).map .scalar

end Node

/-- The value of a text. No node is deeper than there are tokens. -/
def read (text : List Char) : Except Fault Value :=
  let ts := tokens text
  match Node.ofTokens ts with
  | .error fault => .error fault
  | .ok none => .ok .null
  | .ok (some node) => (node.valueOf 0 (ts.length + 1)).mapError Prod.snd

end ApiContract.Yaml
