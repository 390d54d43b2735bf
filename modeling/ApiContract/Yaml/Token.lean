import ApiContract.Yaml.Cursor

/-!
# Tokens of YAML

The tokens of a text. Most stand for characters of the text; the beginning and the end of a block,
and the key of an entry that is not marked as one, follow from the layout.
-/

namespace ApiContract.Yaml

/-- A line before a document that says how to read it. -/
inductive Directive
  | version (major minor : Nat)
  | tag (handle tagPrefix : List Char)
  | other
  deriving DecidableEq, Repr

/-- A token. -/
inductive Token
  | directive (d : Directive)
  | documentStart
  | documentEnd
  | blockSequenceStart
  | blockMappingStart
  | blockEnd
  | flowSequenceStart
  | flowSequenceEnd
  | flowMappingStart
  | flowMappingEnd
  | flowEntry
  | blockEntry
  | key
  | value
  | alias (name : List Char)
  | anchor (name : List Char)
  /-- A tag by its handle and suffix, or by its full name. -/
  | tag (handle : Option (List Char)) (suffix : List Char)
  /-- A text; a plain one is written without quotes, and its form decides what it is. -/
  | scalar (plain : Bool) (text : List Char)
  /-- No more can be read. -/
  | broken (fault : Fault)
  deriving DecidableEq, Repr

end ApiContract.Yaml
