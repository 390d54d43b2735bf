import ApiContract.Field
import ApiContract.Pointer
import ApiContract.Schema
import ApiContract.Trace

/-!
# Reading schemas

`Schema.read` gives every value a place among the shapes of schemas. What decides, in this order, is
a reference, a composition, a list of values, the type, or the mere presence of properties. A value
that fits no shape is read as `unknown`, and the log says so.

Only two things are refused: a format that is no text, and a property whose name is no text.

Main facts: the lemmas `sizeOf_field?_lt` and its kin (a part is smaller than the whole), by which
the reading ends.
-/

namespace ApiContract

theorem Fields.mem_of_field? {fields : Fields} {name : String} {value : Value}
    (h : fields.field? name = some value) : (Scalar.text name, value) ∈ fields := by
  induction fields with
  | nil => simp [Fields.field?] at h
  | cons kv rest ih =>
    obtain ⟨k, v⟩ := kv
    by_cases hk : k = .text name
    · simp only [Fields.field?, hk, if_true, Option.some.injEq] at h
      simp [hk, h]
    · simp only [Fields.field?, hk, if_false] at h
      exact List.mem_cons_of_mem _ (ih h)

namespace Value

theorem sizeOf_lt_of_mem_fields {fields : Fields} {key : Scalar} {value : Value}
    (h : (key, value) ∈ fields) : sizeOf value < sizeOf (Value.object fields) := by
  have := List.sizeOf_lt_of_mem h
  simp at this ⊢
  omega

theorem sizeOf_lt_of_mem_items {items : List Value} {value : Value} (h : value ∈ items) :
    sizeOf value < sizeOf (Value.list items) := by
  have := List.sizeOf_lt_of_mem h
  simp at this ⊢
  omega

theorem sizeOf_field?_lt {fields : Fields} {name : String} {value : Value}
    (h : fields.field? name = some value) : sizeOf value < sizeOf (Value.object fields) :=
  sizeOf_lt_of_mem_fields (Fields.mem_of_field? h)

end Value

namespace Fields

/-- The items of a field that holds a list. -/
def list? (fields : Fields) (name : String) : Option (List Value) :=
  match fields.field? name with
  | some (.list items) => some items
  | _ => none

/-- The fields of a field that holds an object. -/
def object? (fields : Fields) (name : String) : Option Fields :=
  match fields.field? name with
  | some (.object inner) => some inner
  | _ => none

/-- Whether a field is there and holds the truth value true, and no other value that counts so. -/
def isTrue (fields : Fields) (name : String) : Bool :=
  match fields.field? name with
  | some (.bool true) => true
  | _ => false

/-- The text in a field that holds one. -/
def text? (fields : Fields) (name : String) : Option String :=
  (fields.field? name).bind Value.text?

theorem sizeOf_list?_lt {fields : Fields} {name : String} {items : List Value} {value : Value}
    (h : fields.list? name = some items) (hv : value ∈ items) :
    sizeOf value < sizeOf (Value.object fields) := by
  unfold list? at h
  split at h
  · next found =>
    cases h
    exact Nat.lt_trans (Value.sizeOf_lt_of_mem_items hv) (Value.sizeOf_field?_lt found)
  · simp at h

theorem sizeOf_object?_lt {fields inner : Fields} {name : String} {key : Scalar} {value : Value}
    (h : fields.object? name = some inner) (hv : (key, value) ∈ inner) :
    sizeOf value < sizeOf (Value.object fields) := by
  unfold object? at h
  split at h
  · next found =>
    cases h
    exact Nat.lt_trans (Value.sizeOf_lt_of_mem_fields hv) (Value.sizeOf_field?_lt found)
  · simp at h

theorem field?_of_object? {fields inner : Fields} {name : String}
    (h : fields.object? name = some inner) : fields.field? name = some (.object inner) := by
  unfold object? at h
  split at h
  · next found => cases h; exact found
  · simp at h

end Fields

namespace Schema

/-- The type of a schema and whether it admits null. Of a list of types the first that is not null
counts, and one that is null admits null; a type that is no text is none. -/
def readType (fields : Fields) : Option String × Bool :=
  let nullable := fields.isTrue "nullable"
  let named (value : Option Value) : Option String := value.bind Value.text?
  match fields.field? "type" with
  | some (.list types) =>
    let others := types.filter fun t => t.text? ≠ some "null"
    (named others.head?, nullable || others.length != types.length)
  | type => (named type, nullable)

/-- The composition of a schema with its members: a list under one of three keys, or an object
under `not`. -/
def composition? (fields : Fields) : Option (Composition × List Value) :=
  match fields.list? "allOf" with
  | some members => some (.allOf, members)
  | none =>
    match fields.list? "oneOf" with
    | some members => some (.oneOf, members)
    | none =>
      match fields.list? "anyOf" with
      | some members => some (.anyOf, members)
      | none => (fields.object? "not").map fun member => (.not, [.object member])

/-- The values to which a schema is restricted, null left out, and whether null was among them. -/
def values (fields : Fields) : List Value × Bool :=
  let all := (fields.list? "enum").getD []
  let isNull (value : Value) : Bool := match value with
    | .null => true
    | _ => false
  (all.filter fun v => !isNull v, all.any isNull)

/-- The type of a schema, an object if it has properties and no type. -/
def typeOrObject (fields : Fields) (type : Option String) : Option String :=
  if type.isNone ∧
      ((fields.field? "properties").isSome ∨ (fields.field? "additionalProperties").isSome) then
    some "object"
  else type

/-- The format of a text. -/
def readFormat (fields : Fields) : Except (List Field.Fault) (Option String) :=
  match fields.field? "format" with
  | none | some .null => .ok none
  | some value =>
    match Field.readText value with
    | .ok s => .ok (some s)
    | .error reason => .error [⟨["format"], reason⟩]

/-- Sets the schema of a property: it replaces that of the same name, which keeps its place. -/
def insertNamed (named : List (String × α)) (name : String) (item : α) : List (String × α) :=
  match named with
  | [] => [(name, item)]
  | (n, x) :: rest =>
    if n = name then (n, item) :: rest else (n, x) :: insertNamed rest name item

/-- Entries by names instead of keys; a key that is no text is a fault under `place`. -/
def nameEntries (place : String) (entries : List (Scalar × α)) :
    Except (List Field.Fault) (List (String × α)) :=
  match Field.keyFaults (entries.map Prod.fst) with
  | [] => .ok (entries.foldl (fun named (k, x) =>
      match Field.readText (.scalar k) with
      | .ok name => insertNamed named name x
      | .error _ => named) [])
  | faults => .error (faults.map (Field.Fault.within [place]))

/-- The names of the properties that must be there. -/
def readRequired (fields : Fields) : List String :=
  Text.distinct (((fields.list? "required").getD []).map Value.toText)

theorem sizeOf_composition?_lt {fields : Fields} {c : Composition} {members : List Value}
    {value : Value} (h : composition? fields = some (c, members)) (hv : value ∈ members) :
    sizeOf value < sizeOf (Value.object fields) := by
  unfold composition? at h
  split at h
  · next found => cases h; exact Fields.sizeOf_list?_lt found hv
  · split at h
    · next found => cases h; exact Fields.sizeOf_list?_lt found hv
    · split at h
      · next found => cases h; exact Fields.sizeOf_list?_lt found hv
      · obtain ⟨member, found, hm⟩ := Option.map_eq_some_iff.1 h
        cases hm
        have : value = .object member := List.mem_singleton.1 hv
        subst this
        exact Value.sizeOf_field?_lt (Fields.field?_of_object? found)

/-- A line of the log about a shape that is not known. -/
def remark (text : String) : Trace (List Field.Fault) Unit :=
  .note .schemas (text ++ ", treating as unknown")

set_option linter.unusedVariables false in
/-- The schema that a value stands for. -/
def read (value : Value) : Trace (List Field.Fault) Schema :=
  match value with
  | .object fields =>
    match Fields.text? fields "$ref" with
    | some pointer => pure (.reference false (Pointer.lastName pointer))
    | none =>
      let (type, nullable) := readType fields
      match hc : composition? fields with
      | some (c, members) => do
        let schemas ← members.attach.mapM fun ⟨member, _⟩ => read member
        return .composite nullable c schemas
      | none =>
        let (literals, null) := values fields
        let nullable := nullable || null
        if literals ≠ [] then pure (.enumeration nullable literals)
        else
          match typeOrObject fields type with
          | some "string" => do
            let format ← Trace.ofExcept (readFormat fields)
            return .text nullable format
          | some "number" => pure (.number nullable false)
          | some "integer" => pure (.number nullable true)
          | some "boolean" => pure (.boolean nullable)
          | some "array" =>
            match hi : Fields.object? fields "items" with
            | some items => do return .array nullable (← read (.object items))
            | none => do
              remark "Array schema without items"
              return .unknown nullable
          | some "object" => do
            let additional ← (match ha : Fields.object? fields "additionalProperties" with
              | some inner => some <$> read (.object inner)
              | none => pure (if Fields.isTrue fields "additionalProperties" then
                  some (.unknown false) else none))
            let entries ← (match hp : Fields.object? fields "properties" with
              | some properties => properties.attach.mapM fun ⟨(key, property), _⟩ =>
                  (key, ·) <$> read property
              | none => pure [])
            let properties ← Trace.ofExcept (nameEntries "properties" entries)
            return .object nullable properties (readRequired fields) additional
          | some other => do
            remark ("Unrecognised schema type " ++ (Value.text other).quoted)
            return .unknown nullable
          | none => pure (.unknown nullable)
  | other => do
    remark ("Schema is not an object (" ++ other.quoted ++ ")")
    return .unknown false
termination_by sizeOf value
decreasing_by
  · exact sizeOf_composition?_lt hc ‹_›
  · exact Value.sizeOf_field?_lt (Fields.field?_of_object? hi)
  · exact Value.sizeOf_field?_lt (Fields.field?_of_object? ha)
  · exact Fields.sizeOf_object?_lt hp ‹_›

end Schema

end ApiContract
