import ApiContract.Proofs.Schema.Step
import Mathlib.Logic.Relation

/-!
# Two spellings of null

An object says that it admits null by a flag beside its type, or by listing null among its types.
`listNull` rewrites the first spelling into the second one, in an object and in all schemas inside
it, whether the reader comes to them or not.

The reader meets the flag in one place only, where it reads the type, and there the two spellings
give the same (`readType_listOwnNull`). Whatever else decides how an object is read stands under
other keys, which keep what they hold but for the schemas inside.

Main facts: `field?_nullListed` (what the keys hold), `PartsAlike.read` (one object is read alike if
its parts are) and `read_listNull`.
-/

namespace ApiContract.Schema

/-! ## The rewriting -/

/-- What the value under a key of a schema holds. -/
inductive Role
  | schema
  | members
  | properties
  | other
  deriving DecidableEq

/-- The role of a key. -/
def roleOf : Scalar → Role
  | .text "items" => .schema
  | .text "additionalProperties" => .schema
  | .text "not" => .schema
  | .text "allOf" => .members
  | .text "oneOf" => .members
  | .text "anyOf" => .members
  | .text "properties" => .properties
  | _ => .other

/-- The type beside which an object has a flag for null. A reference has none, and neither has the
type of null itself. -/
def flaggedType? (fields : Fields) : Option String :=
  if fields.text? "$ref" = none ∧ fields.isTrue "nullable" then
    (fields.text? "type").filter (· ≠ "null")
  else none

/-- The fields of an object with null among its types instead of a flag. -/
def listOwnNull (fields : Fields) : Fields :=
  match flaggedType? fields with
  | some type => Fields.insert (fields.filter fun field => field.1 ≠ .text "nullable")
      (.text "type") (.list [.text type, .text "null"])
  | none => fields

mutual

/-- A value with null among the types of all schemas in it that have a flag for null. -/
def listNull : Value → Value
  | .object fields => .object (listOwnNull (listNullInFields fields))
  | value => value

/-- The fields of an object with their schemas rewritten. -/
def listNullInFields : List (Scalar × Value) → Fields
  | [] => []
  | (key, value) :: fields =>
    (key, match roleOf key with
      | .schema => listNull value
      | .members => listNullInMembers value
      | .properties => listNullInProperties value
      | .other => value) :: listNullInFields fields

/-- A list with its schemas rewritten. -/
def listNullInMembers : Value → Value
  | .list items => .list (listNullInItems items)
  | value => value

/-- An object with the schemas under its keys rewritten. -/
def listNullInProperties : Value → Value
  | .object fields => .object (listNullInEntries fields)
  | value => value

/-- The items of a list of schemas, rewritten. -/
def listNullInItems : List Value → List Value
  | [] => []
  | item :: items => listNull item :: listNullInItems items

/-- Schemas by their keys, rewritten. -/
def listNullInEntries : List (Scalar × Value) → Fields
  | [] => []
  | (key, value) :: fields => (key, listNull value) :: listNullInEntries fields

end

/-- The fields of a rewritten object. -/
def nullListed (fields : Fields) : Fields :=
  listOwnNull (listNullInFields fields)

/-- The value under a key of some role, rewritten. -/
def listNullAt : Role → Value → Value
  | .schema => listNull
  | .members => listNullInMembers
  | .properties => listNullInProperties
  | .other => id

@[simp] theorem listNull_object (fields : Fields) :
    listNull (.object fields) = .object (nullListed fields) := by
  rw [listNull, nullListed]

theorem listNullInFields_eq (fields : Fields) :
    listNullInFields fields =
      fields.map fun field => (field.1, listNullAt (roleOf field.1) field.2) := by
  induction fields with
  | nil => rw [listNullInFields, List.map_nil]
  | cons field fields ih =>
    obtain ⟨key, value⟩ := field
    rw [listNullInFields, List.map_cons, ih]
    cases roleOf key <;> rfl

theorem listNullInItems_eq (items : List Value) : listNullInItems items = items.map listNull := by
  induction items with
  | nil => rw [listNullInItems, List.map_nil]
  | cons item items ih => rw [listNullInItems, List.map_cons, ih]

theorem listNullInEntries_eq (fields : Fields) :
    listNullInEntries fields = fields.map fun field => (field.1, listNull field.2) := by
  induction fields with
  | nil => rw [listNullInEntries, List.map_nil]
  | cons field fields ih => rw [listNullInEntries, List.map_cons, ih]

/-! ## What the keys hold -/

theorem field?_listNullInFields (fields : Fields) (name : String) :
    (listNullInFields fields).field? name =
      (fields.field? name).map (listNullAt (roleOf (.text name))) := by
  rw [listNullInFields_eq]
  induction fields with
  | nil => rfl
  | cons field fields ih =>
    obtain ⟨key, value⟩ := field
    by_cases hkey : key = .text name
    · simp [Fields.field?, hkey]
    · simp [Fields.field?, hkey, ih]

theorem field?_filter_ne (fields : Fields) (removed name : String) :
    Fields.field? (fields.filter fun field => field.1 ≠ .text removed) name =
      if name = removed then none else fields.field? name := by
  induction fields with
  | nil => simp [Fields.field?]
  | cons field fields ih =>
    obtain ⟨key, value⟩ := field
    by_cases hkey : key = .text removed
    · by_cases hname : name = removed
      · simpa [hkey, hname] using ih
      · simpa [Fields.field?, hkey, hname, Ne.symm hname] using ih
    · by_cases hname : key = .text name
      · have hne : name ≠ removed := fun heq => hkey (heq ▸ hname)
        simp [Fields.field?, hname, hne]
      · simpa [Fields.field?, hkey, hname] using ih

section
variable {fields : Fields} {name type : String}

theorem text?_eq_some_iff {text : String} :
    fields.text? name = some text ↔ fields.field? name = some (.text text) := by
  unfold Fields.text?
  rw [Option.bind_eq_some_iff]
  constructor
  · intro h
    obtain ⟨value, hfield, hvalue⟩ := h
    unfold Value.text? at hvalue
    split at hvalue
    · cases hvalue
      exact hfield
    · cases hvalue
  · intro h
    exact ⟨_, h, rfl⟩

theorem flaggedType?_eq_some_iff : flaggedType? fields = some type ↔
    (fields.text? "$ref" = none ∧ fields.isTrue "nullable") ∧
      fields.field? "type" = some (.text type) ∧ type ≠ "null" := by
  unfold flaggedType?
  split
  · next h => simp [h, Option.filter_eq_some_iff, text?_eq_some_iff]
  · next h => simp only [reduceCtorEq, h, false_and]

theorem field?_listOwnNull (hnullable : name ≠ "nullable") (htype : name ≠ "type") :
    (listOwnNull fields).field? name = fields.field? name := by
  unfold listOwnNull
  split
  · rw [Fields.field?_insert_of_ne _ htype, field?_filter_ne, if_neg hnullable]
  · rfl

theorem isTrue_listOwnNull (h : flaggedType? fields = some type) :
    (listOwnNull fields).isTrue "nullable" = false := by
  rw [listOwnNull, h, Fields.isTrue, Fields.field?_insert_of_ne _ (by decide), field?_filter_ne,
    if_pos rfl]

theorem field?_type_listOwnNull (h : flaggedType? fields = some type) :
    (listOwnNull fields).field? "type" = some (.list [.text type, .text "null"]) := by
  rw [listOwnNull, h]
  exact Fields.field?_insert_text _ _ _

/-- The two spellings are read alike. -/
theorem readType_listOwnNull (fields : Fields) :
    readType (listOwnNull fields) = readType fields := by
  cases h : flaggedType? fields with
  | none => rw [listOwnNull, h]
  | some type =>
    obtain ⟨⟨-, hflag⟩, htype, hnull⟩ := flaggedType?_eq_some_iff.1 h
    unfold readType
    rw [isTrue_listOwnNull h, field?_type_listOwnNull h, hflag, htype]
    simp [Value.text?, hnull]

theorem flaggedType?_listOwnNull (fields : Fields) : flaggedType? (listOwnNull fields) = none := by
  cases h : flaggedType? fields with
  | none => rw [listOwnNull, h, h]
  | some type =>
    rw [Option.eq_none_iff_forall_ne_some]
    intro other hother
    have hflag := (flaggedType?_eq_some_iff.1 hother).1.2
    rw [isTrue_listOwnNull h] at hflag
    cases hflag

end

/-- A key other than the two that are rewritten keeps what it holds, but for the schemas in it. -/
theorem field?_nullListed (fields : Fields) {name : String} (hnullable : name ≠ "nullable")
    (htype : name ≠ "type") : (nullListed fields).field? name =
      (fields.field? name).map (listNullAt (roleOf (.text name))) := by
  rw [nullListed, field?_listOwnNull hnullable htype, field?_listNullInFields]

section
variable (fields : Fields) (name : String)

theorem field?_nullListed_other (h : roleOf (.text name) = .other) (hnullable : name ≠ "nullable")
    (htype : name ≠ "type") : (nullListed fields).field? name = fields.field? name := by
  rw [field?_nullListed fields hnullable htype, h]
  exact Option.map_id_apply

theorem field?_nullListed_role {role : Role} (h : roleOf (.text name) = role)
    (hrole : role ≠ .other) :
    (nullListed fields).field? name = (fields.field? name).map (listNullAt role) := by
  have hother (key : String) (hkey : roleOf (.text key) = .other) : name ≠ key := by
    intro heq
    rw [heq, hkey] at h
    exact hrole h.symm
  rw [field?_nullListed fields (hother "nullable" rfl) (hother "type" rfl), h]

theorem object?_nullListed (h : roleOf (.text name) = .schema) :
    (nullListed fields).object? name = (fields.object? name).map nullListed := by
  unfold Fields.object?
  rw [field?_nullListed_role fields name h (by decide)]
  cases fields.field? name with
  | none => rfl
  | some value => cases value <;> simp [listNullAt, listNull, nullListed]

theorem properties_nullListed (h : roleOf (.text name) = .properties) :
    (nullListed fields).object? name =
      (fields.object? name).map (List.map fun field => (field.1, listNull field.2)) := by
  unfold Fields.object?
  rw [field?_nullListed_role fields name h (by decide)]
  cases fields.field? name with
  | none => rfl
  | some value => cases value <;> simp [listNullAt, listNullInProperties, listNullInEntries_eq]

theorem list?_nullListed (h : roleOf (.text name) = .members) :
    (nullListed fields).list? name = (fields.list? name).map (List.map listNull) := by
  unfold Fields.list?
  rw [field?_nullListed_role fields name h (by decide)]
  cases fields.field? name with
  | none => rfl
  | some value => cases value <;> simp [listNullAt, listNullInMembers, listNullInItems_eq]

end

/-! ## What decides the shape -/

theorem readType_nullListed (fields : Fields) : readType (nullListed fields) = readType fields := by
  rw [nullListed, readType_listOwnNull]
  unfold readType Fields.isTrue
  rw [field?_listNullInFields, field?_listNullInFields]
  simp [roleOf, listNullAt]

theorem composition?_nullListed (fields : Fields) : composition? (nullListed fields) =
    (composition? fields).map fun composed => (composed.1, composed.2.map listNull) := by
  unfold composition?
  rw [list?_nullListed fields "allOf" rfl, list?_nullListed fields "oneOf" rfl,
    list?_nullListed fields "anyOf" rfl, object?_nullListed fields "not" rfl]
  cases fields.list? "allOf" with
  | some members => rfl
  | none =>
    cases fields.list? "oneOf" with
    | some members => rfl
    | none =>
      cases fields.list? "anyOf" with
      | some members => rfl
      | none => cases fields.object? "not" <;> simp

theorem values_nullListed (fields : Fields) : values (nullListed fields) = values fields := by
  unfold values Fields.list?
  rw [field?_nullListed_other fields "enum" rfl (by decide) (by decide)]

theorem admitsNull_nullListed (fields : Fields) :
    admitsNull (nullListed fields) = admitsNull fields := by
  rw [admitsNull, readType_nullListed, values_nullListed, admitsNull]

theorem typeOrObject_nullListed (fields : Fields) (type : Option String) :
    typeOrObject (nullListed fields) type = typeOrObject fields type := by
  unfold typeOrObject
  rw [field?_nullListed_role fields "properties" rfl (by decide), Option.isSome_map,
    field?_nullListed_role fields "additionalProperties" rfl (by decide), Option.isSome_map]

/-! ## What is read -/

theorem readFormat_nullListed (fields : Fields) :
    readFormat (nullListed fields) = readFormat fields := by
  unfold readFormat
  rw [field?_nullListed_other fields "format" rfl (by decide) (by decide)]

theorem readRequired_nullListed (fields : Fields) :
    readRequired (nullListed fields) = readRequired fields := by
  unfold readRequired Fields.list?
  rw [field?_nullListed_other fields "required" rfl (by decide) (by decide)]

section
variable {fields : Fields}

theorem isTrue_nullListed (name : String) (h : roleOf (.text name) = .schema) :
    (nullListed fields).isTrue name = fields.isTrue name := by
  unfold Fields.isTrue
  rw [field?_nullListed_role fields name h (by decide)]
  cases fields.field? name with
  | none => rfl
  | some value => cases value <;> simp [listNullAt, listNull]

/-- Both spellings of every value smaller than an object are read alike. -/
def PartsAlike (fields : Fields) : Prop :=
  ∀ value, sizeOf value < sizeOf (Value.object fields) → read (listNull value) = read value

theorem PartsAlike.object {name : String} {inner : Fields} (h : PartsAlike fields)
    (found : fields.object? name = some inner) :
    read (.object (nullListed inner)) = read (.object inner) := by
  rw [← listNull_object]
  exact h _ (Value.sizeOf_field?_lt (Fields.field?_of_object? found))

theorem PartsAlike.readAdditional (h : PartsAlike fields) :
    Schema.readAdditional (nullListed fields) = Schema.readAdditional fields := by
  unfold Schema.readAdditional
  rw [object?_nullListed fields "additionalProperties" rfl,
    isTrue_nullListed "additionalProperties" rfl]
  cases found : fields.object? "additionalProperties" with
  | none => rfl
  | some inner =>
    rw [Option.map_some]
    dsimp only
    rw [h.object found]

theorem PartsAlike.readProperties (h : PartsAlike fields) :
    Schema.readProperties (nullListed fields) = Schema.readProperties fields := by
  unfold Schema.readProperties
  rw [properties_nullListed fields "properties" rfl]
  cases found : fields.object? "properties" with
  | none => rfl
  | some properties =>
    rw [Option.map_some]
    dsimp only
    rw [List.mapM_map]
    apply mapM_congr
    intro property hproperty
    rw [Function.comp_apply, h _ (Fields.sizeOf_object?_lt found hproperty)]

theorem PartsAlike.readAs (h : PartsAlike fields) (type : Option String) :
    Schema.readAs (nullListed fields) type = Schema.readAs fields type := by
  unfold Schema.readAs
  rw [admitsNull_nullListed, readFormat_nullListed, readRequired_nullListed, h.readAdditional,
    h.readProperties, object?_nullListed fields "items" rfl]
  cases found : fields.object? "items" with
  | none => rfl
  | some items =>
    rw [Option.map_some]
    dsimp only
    rw [h.object found]

/-- What is read for an object is told by what the spelling leaves as it is, and by its parts. -/
theorem PartsAlike.read (h : PartsAlike fields) :
    Schema.read (.object (nullListed fields)) = Schema.read (.object fields) := by
  rw [read_fields, read_fields, readType_nullListed, values_nullListed, admitsNull_nullListed,
    typeOrObject_nullListed, h.readAs, composition?_nullListed]
  unfold Fields.text?
  rw [field?_nullListed_other fields "$ref" rfl (by decide) (by decide)]
  cases composition : composition? fields with
  | none => rfl
  | some composed =>
    obtain ⟨c, members⟩ := composed
    have hmembers : (members.map listNull).mapM Schema.read = members.mapM Schema.read := by
      rw [List.mapM_map]
      apply mapM_congr
      intro member hmember
      exact h member (sizeOf_composition?_lt composition hmember)
    rw [Option.map_some]
    dsimp only
    rw [hmembers]

end

/-! ## What is left of the flags -/

/-- A value stands where a schema inside an object belongs. -/
inductive Inside : Value → Value → Prop
  | schema {fields : Fields} {name : String} {value : Value} (role : roleOf (.text name) = .schema)
      (found : fields.field? name = some value) : Inside (.object fields) value
  | member {fields : Fields} {name : String} {items : List Value} {value : Value}
      (role : roleOf (.text name) = .members) (found : fields.list? name = some items)
      (mem : value ∈ items) : Inside (.object fields) value
  | property {fields properties : Fields} {name : String} {key : Scalar} {value : Value}
      (role : roleOf (.text name) = .properties) (found : fields.object? name = some properties)
      (mem : (key, value) ∈ properties) : Inside (.object fields) value

theorem Inside.of_listNull {value part : Value} (h : Inside (listNull value) part) :
    ∃ before, Inside value before ∧ listNull before = part := by
  cases value with
  | object fields =>
    rw [listNull_object] at h
    cases h with
    | schema role found =>
      rw [field?_nullListed_role fields _ role (by decide)] at found
      obtain ⟨before, hbefore, rfl⟩ := Option.map_eq_some_iff.1 found
      exact ⟨before, .schema role hbefore, rfl⟩
    | member role found mem =>
      rw [list?_nullListed fields _ role] at found
      obtain ⟨items, hitems, rfl⟩ := Option.map_eq_some_iff.1 found
      obtain ⟨before, hbefore, rfl⟩ := List.mem_map.1 mem
      exact ⟨before, .member role hitems hbefore, rfl⟩
    | property role found mem =>
      rw [properties_nullListed fields _ role] at found
      obtain ⟨properties, hproperties, rfl⟩ := Option.map_eq_some_iff.1 found
      obtain ⟨⟨key, before⟩, hbefore, heq⟩ := List.mem_map.1 mem
      cases heq
      exact ⟨before, .property role hproperties hbefore, rfl⟩
  | scalar _ | list _ | set _ =>
    rw [listNull] at h
    · cases h
    · rintro _ ⟨⟩

theorem exists_of_reaches {value part : Value}
    (h : Relation.ReflTransGen Inside (listNull value) part) :
    ∃ before, listNull before = part := by
  induction h with
  | refl => exact ⟨value, rfl⟩
  | tail _ hinside ih =>
    obtain ⟨before, rfl⟩ := ih
    obtain ⟨inner, -, hinner⟩ := hinside.of_listNull
    exact ⟨inner, hinner⟩

/-- **Two spellings of null**: a value with null listed among the types of its schemas is read as it
is with the flags, with the same log and the same faults, and no schema in it has a flag left. -/
theorem read_listNull (value : Value) :
    read (listNull value) = read value ∧
      ∀ fields, Relation.ReflTransGen Inside (listNull value) (.object fields) →
        flaggedType? fields = none := by
  constructor
  · induction hsize : sizeOf value using Nat.strongRecOn generalizing value with
    | ind size ih =>
      subst hsize
      cases value with
      | object fields =>
        have hparts : PartsAlike fields := fun part hpart => ih _ hpart part rfl
        rw [listNull_object, hparts.read]
      | scalar _ | list _ | set _ =>
        rw [listNull]
        rintro _ ⟨⟩
  · intro fields hreaches
    obtain ⟨before, hbefore⟩ := exists_of_reaches hreaches
    cases before with
    | object inner =>
      rw [listNull_object] at hbefore
      cases hbefore
      exact flaggedType?_listOwnNull _
    | scalar _ | list _ | set _ =>
      rw [listNull] at hbefore
      · cases hbefore
      · rintro _ ⟨⟩

/-- The fields of a text with a flag for null. -/
def nickname : Fields := [(.text "nullable", .bool true), (.text "type", .text "string")]

/-- A flag inside a property is rewritten, and the value is read as before. -/
theorem read_listNull_nickname :
    let fields : Fields := [(.text "properties", .object [(.text "name", .object nickname)])]
    Relation.ReflTransGen Inside (listNull (.object fields)) (.object (nullListed nickname)) ∧
      nullListed nickname = [(.text "type", .list [.text "string", .text "null"])] ∧
      flaggedType? (nullListed nickname) = none ∧
      read (listNull (.object fields)) = read (.object fields) := by
  intro fields
  have hproperties : (nullListed fields).object? "properties" =
      some [(.text "name", .object (nullListed nickname))] := rfl
  have hinside : Inside (listNull (.object fields)) (.object (nullListed nickname)) := by
    rw [listNull_object]
    exact .property rfl hproperties List.mem_cons_self
  obtain ⟨hread, hnone⟩ := read_listNull (.object fields)
  exact ⟨.single hinside, rfl, hnone _ (.single hinside), hread⟩

end ApiContract.Schema
