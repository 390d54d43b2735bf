import ApiContract.Proofs.Contract.Reading

/-!
# What a contract says of its values

`Schema.shape` is all that the contract of a schema says. A composition, an unknown schema and a
list of values among which one has no literal accept anything, whether they admit null or not. Of
the format of a text only the one of a file counts, of the required names only whether each property
is among them, and of the other properties of an object only what stands for all of them when it has
none by name. References keep the alias of their target, and values their literals.

`Shape.validator` writes the validator of a shape, and that is the validator of the schema: nothing
outside of the shape goes into it. The type says less: a whole number is a number there, and the
content of a file is a value of the predefined type `Blob`.

Main facts: `validator_atDepth` (the validator depends on the shape alone) and the lemmas on
`Shape.Forall`, by which a property of all simple shapes is told.
-/

namespace ApiContract

/-- What a contract says of the values that it accepts. -/
inductive Shape
  | any
  | text
  | file
  | number (integer : Bool)
  | boolean
  | literals (texts : List (List Char))
  | array (items : Shape)
  /-- An object of which only the other properties have a shape. -/
  | record (values : Shape)
  /-- The properties of an object, each with whether it must be there. -/
  | object (properties : List (List Char × Bool × Shape))
  | reference (name : List Char)
  | orNull (shape : Shape)
  deriving Repr

namespace Shape

/-- The shape, or also null. -/
def orNullIf (nullable : Bool) (shape : Shape) : Shape :=
  if nullable then .orNull shape else shape

mutual

/-- A property of the parts of a shape that have no parts themselves. -/
def Forall (p : Shape → Prop) : Shape → Prop
  | array items => items.Forall p
  | record values => values.Forall p
  | object properties => ForallIn p properties
  | orNull shape => shape.Forall p
  | shape => p shape

/-- A property of the parts of the shapes of properties. -/
def ForallIn (p : Shape → Prop) : List (List Char × Bool × Shape) → Prop
  | [] => True
  | (_, _, shape) :: rest => shape.Forall p ∧ ForallIn p rest

end

mutual

/-- Whether the parts of a shape have a property is decided part by part. -/
def decidableForall (p : Shape → Prop) [DecidablePred p] :
    ∀ shape : Shape, Decidable (shape.Forall p)
  | array items => decidableForall p items
  | record values => decidableForall p values
  | object properties => decidableForallIn p properties
  | orNull shape => decidableForall p shape
  | any | text | file | number _ | boolean | literals _ | reference _ =>
    inferInstanceAs (Decidable (p _))

/-- Whether the parts of the shapes of properties have a property. -/
def decidableForallIn (p : Shape → Prop) [DecidablePred p] :
    ∀ properties : List (List Char × Bool × Shape), Decidable (ForallIn p properties)
  | [] => .isTrue trivial
  | (_, _, shape) :: rest =>
    have := decidableForall p shape
    have := decidableForallIn p rest
    inferInstanceAs (Decidable (_ ∧ _))

end

instance {p : Shape → Prop} [DecidablePred p] : DecidablePred (Forall p) :=
  decidableForall p

mutual

/-- What the type says of a shape; `space` stands before the aliases of references. -/
def inType (space : List Char) : Shape → Shape
  | file => .reference "Blob".toList
  | number _ => .number false
  | array items => .array (items.inType space)
  | record values => .record (values.inType space)
  | object properties => .object (inTypes space properties)
  | reference name => .reference (space ++ name)
  | orNull shape => .orNull (shape.inType space)
  | shape => shape

/-- What the type says of the shapes of properties. -/
def inTypes (space : List Char) :
    List (List Char × Bool × Shape) → List (List Char × Bool × Shape)
  | [] => []
  | (name, required, shape) :: rest => (name, required, shape.inType space) :: inTypes space rest

end

/-- A list of literals holds one at least. -/
def IsFilled : Shape → Prop
  | literals texts => texts ≠ []
  | _ => True

theorem forallIn_iff {p : Shape → Prop} {properties : List (List Char × Bool × Shape)} :
    ForallIn p properties ↔ ∀ q ∈ properties, q.2.2.Forall p := by
  induction properties with
  | nil => simp [ForallIn]
  | cons q qs ih => simp [ForallIn, ih]

theorem forall_orNullIf {p : Shape → Prop} (nullable : Bool) (shape : Shape) :
    (shape.orNullIf nullable).Forall p ↔ shape.Forall p := by
  cases nullable <;> rfl

theorem inType_orNullIf (space : List Char) (nullable : Bool) (shape : Shape) :
    (shape.orNullIf nullable).inType space = (shape.inType space).orNullIf nullable := by
  cases nullable <;> rfl

theorem inTypes_eq (space : List Char) (properties : List (List Char × Bool × Shape)) :
    inTypes space properties = properties.map fun q => (q.1, q.2.1, q.2.2.inType space) := by
  induction properties with
  | nil => rfl
  | cons q qs ih => rw [inTypes, ih, List.map_cons]

/-- The validator of literals: they are all texts, or there is one, or they are joined. -/
def literalsValidator (literals : List (List Char)) : List Char :=
  let list := Text.join [',', ' ']
  if literals.all fun literal => literal.head? == some '"' then
    "z.enum([".toList ++ list literals ++ "])".toList
  else match literals with
    | [literal] => Contract.literalValidator literal
    | _ => "z.union([".toList ++ list (literals.map Contract.literalValidator) ++ "])".toList

/-- A property as a line of the validator. -/
def line (depth : Nat) (name : List Char) (required : Bool) (validator : List Char) : List Char :=
  Contract.indent depth ++ Identifier.propertyKey name ++ ": ".toList ++ validator ++
    if required then [','] else ".optional(),".toList

/-- The validator of an object over its lines. -/
def objectValidator (depth : Nat) (lines : List (List Char)) : List Char :=
  "z.object(\x7b\n".toList ++ Text.join ['\n'] lines ++
    ('\n' :: Contract.indent (depth - 1) ++ ['\x7d']) ++ [')']

mutual

/-- The validator of a shape whose lines stand at a depth. -/
def validator (depth : Nat) : Shape → List Char
  | any => Contract.permissive.validator
  | text => (Contract.text none).validator
  | file => (Contract.text (some "binary")).validator
  | number integer => (Contract.number integer).validator
  | boolean => Contract.boolean.validator
  | literals texts => literalsValidator texts
  | array items => (Contract.array ⟨items.validator depth, []⟩).validator
  | record values => (Contract.record ⟨values.validator depth, []⟩).validator
  | object properties => objectValidator depth (lines depth properties)
  | reference name => name ++ "Schema".toList
  | orNull shape => (Contract.orNull true ⟨shape.validator depth, []⟩).validator

/-- The properties of an object as lines of its validator. -/
def lines (depth : Nat) : List (List Char × Bool × Shape) → List (List Char)
  | [] => []
  | (name, required, shape) :: rest =>
    line depth name required (shape.validator (depth + 1)) :: lines depth rest

end

end Shape

namespace Schema

mutual

/-- What the contract of a schema says. -/
def shape : Schema → Shape
  | text nullable format =>
    (if format = some "binary" then Shape.file else .text).orNullIf nullable
  | number nullable integer => (Shape.number integer).orNullIf nullable
  | boolean nullable => Shape.boolean.orNullIf nullable
  | array nullable items => (Shape.array items.shape).orNullIf nullable
  | object nullable properties required additional =>
    (if properties.isEmpty then Shape.record (shapeOfOption additional)
    else .object (shapes required properties)).orNullIf nullable
  | reference nullable target =>
    (Shape.reference (Identifier.typeAlias target.toList)).orNullIf nullable
  | enumeration nullable values =>
    match values.mapM Json.literal? with
    | some literals => (Shape.literals literals).orNullIf nullable
    | none => .any
  | composite _ _ _ => .any
  | unknown _ => .any

/-- What the contract of an optional schema says. -/
def shapeOfOption : Option Schema → Shape
  | none => .any
  | some schema => schema.shape

/-- What the contracts of properties say, of which those in `required` must be there. -/
def shapes (required : List String) : List (String × Schema) → List (List Char × Bool × Shape)
  | [] => []
  | (name, schema) :: rest =>
    (name.toList, decide (name ∈ required), schema.shape) :: shapes required rest

end

mutual

/-- The names of properties and the targets of references in a schema, at every depth. -/
def names : Schema → List String
  | array _ items => items.names
  | object _ properties _ additional => namesInProperties properties ++ namesInOption additional
  | reference _ target => [target]
  | composite _ _ members => namesInMembers members
  | text _ _ | number _ _ | boolean _ | enumeration _ _ | unknown _ => []

/-- The names of properties and those in their schemas. -/
def namesInProperties : List (String × Schema) → List String
  | [] => []
  | (name, schema) :: rest => name :: schema.names ++ namesInProperties rest

/-- The names in an optional schema. -/
def namesInOption : Option Schema → List String
  | none => []
  | some schema => schema.names

/-- The names in the members of a composition. -/
def namesInMembers : List Schema → List String
  | [] => []
  | schema :: rest => schema.names ++ namesInMembers rest

end

theorem shapes_eq (required : List String) (properties : List (String × Schema)) :
    shapes required properties =
      properties.map fun p => (p.1.toList, decide (p.1 ∈ required), p.2.shape) := by
  induction properties with
  | nil => rfl
  | cons p ps ih => rw [shapes, ih, List.map_cons]

end Schema

namespace Shape

/-! ## The validator of a schema depends on its shape alone -/

theorem validator_orNull (c : Contract) (nullable : Bool) (depth : Nat) {shape : Shape}
    (h : c.validator = shape.validator depth) :
    (c.orNull nullable).validator = (shape.orNullIf nullable).validator depth := by
  cases nullable with
  | false => exact h
  | true =>
    rw [orNullIf, if_pos rfl, validator, ← h]
    rfl

theorem head?_literal {value : Value} {literal : List Char}
    (h : Json.literal? value = some literal) :
    (literal.head? == some '"') = value.text?.isSome := by
  have hquiet {text : List Char} (hall : ∀ c ∈ text, Reading.isQuiet c) :
      (text.head? == some '"') = false := by
    cases text with
    | nil => rfl
    | cons c cs =>
      have := hall c List.mem_cons_self
      simp [Reading.isQuiet] at this
      simp [this.1]
  unfold Json.literal? at h
  split at h
  · cases h
    simp [Json.encode, Value.text?]
  · cases h
    exact hquiet (Reading.isQuiet_of_mem_int _)
  · cases h
    exact hquiet (Reading.isQuiet_of_mem_write _)
  · cases h
    simp only [Value.text?]
    split <;> rfl
  · cases h

theorem all_head?_literals {values : List Value} {literals : List (List Char)}
    (h : values.mapM Json.literal? = some literals) :
    (literals.all fun literal => literal.head? == some '"') =
      values.all fun value => value.text?.isSome := by
  induction values generalizing literals with
  | nil =>
    cases h
    rfl
  | cons value values ih =>
    rw [List.mapM_cons, Option.bind_eq_bind, Option.bind_eq_some_iff] at h
    obtain ⟨first, hfirst, h⟩ := h
    obtain ⟨others, hothers, h⟩ := Option.bind_eq_some_iff.1 h
    cases h
    rw [List.all_cons, List.all_cons, head?_literal hfirst, ih hothers]

theorem validator_enumeration {values : List Value} {c : Contract}
    (h : Contract.enumeration? values = some c) :
    ∃ literals, values.mapM Json.literal? = some literals ∧
      c.validator = literalsValidator literals ∧ c.type = Text.join " | ".toList literals := by
  obtain ⟨literals, hmap, h⟩ := Option.bind_eq_some_iff.1 h
  cases h
  refine ⟨literals, hmap, ?_, rfl⟩
  unfold literalsValidator
  exact all_head?_literals hmap ▸ rfl

theorem mapM_of_enumeration?_eq_none {values : List Value}
    (h : Contract.enumeration? values = none) : values.mapM Json.literal? = none := by
  rw [Contract.enumeration?, Option.bind_eq_bind, Option.bind_eq_none_iff] at h
  cases hmap : values.mapM Json.literal? with
  | none => rfl
  | some literals => exact absurd (h literals hmap) nofun

theorem validator_property (depth : Nat) (required : List String) (name : String) (c : Contract) :
    (Contract.property depth required name c).1 =
      line depth name.toList (decide (name ∈ required)) c.validator := by
  unfold Contract.property line
  by_cases h : name ∈ required <;> simp [h]

theorem validator_object (depth : Nat) (required : List String)
    (properties : List (String × Contract)) :
    (Contract.object depth required properties).validator =
      objectValidator depth (properties.map fun p =>
        line depth p.1.toList (decide (p.1 ∈ required)) p.2.validator) := by
  have hlines : ((properties.map fun p => Contract.property depth required p.1 p.2).map Prod.fst) =
      properties.map fun p => line depth p.1.toList (decide (p.1 ∈ required)) p.2.validator := by
    rw [List.map_map]
    exact List.map_congr_left fun p _ => validator_property depth required p.1 p.2
  unfold Contract.object
  dsimp only
  rw [hlines]
  rfl

mutual

/-- **The validator depends on the shape alone.** -/
theorem validator_atDepth (space : List Char) (depth : Nat) : ∀ schema : Schema,
    (Contract.atDepth space depth schema).validator = schema.shape.validator depth
  | .text nullable format => by
    rw [Contract.atDepth, Schema.shape]
    refine validator_orNull _ nullable depth ?_
    unfold Contract.text
    split <;> rfl
  | .number nullable integer => by
    rw [Contract.atDepth, Schema.shape]
    exact validator_orNull _ nullable depth rfl
  | .boolean nullable => by
    rw [Contract.atDepth, Schema.shape]
    exact validator_orNull _ nullable depth rfl
  | .array nullable items => by
    rw [Contract.atDepth, Schema.shape]
    refine validator_orNull _ nullable depth ?_
    rw [validator, ← validator_atDepth space depth items]
    rfl
  | .object nullable properties required additional => by
    rw [Contract.atDepth, Schema.shape]
    refine validator_orNull _ nullable depth ?_
    split
    · rw [validator, ← validator_ofOption space depth additional]
      rfl
    · rw [validator_object, validator, validator_ofProperties space depth required properties]
  | .reference nullable target => by
    rw [Contract.atDepth, Schema.shape]
    exact validator_orNull _ nullable depth rfl
  | .enumeration nullable values => by
    rw [Contract.atDepth, Schema.shape]
    split
    · next c hc =>
      obtain ⟨literals, hmap, hvalidator, -⟩ := validator_enumeration hc
      rw [hmap]
      exact validator_orNull c nullable depth hvalidator
    · next hnone =>
      rw [mapM_of_enumeration?_eq_none hnone]
      rfl
  | .composite _ _ _ => rfl
  | .unknown _ => rfl

theorem validator_ofOption (space : List Char) (depth : Nat) : ∀ schema : Option Schema,
    (Contract.ofOption space depth schema).validator =
      (Schema.shapeOfOption schema).validator depth
  | none => rfl
  | some schema => validator_atDepth space depth schema

theorem validator_ofProperties (space : List Char) (depth : Nat) (required : List String) :
    ∀ properties : List (String × Schema),
    ((Contract.ofProperties space (depth + 1) properties).map fun p =>
        line depth p.1.toList (decide (p.1 ∈ required)) p.2.validator) =
      lines depth (Schema.shapes required properties)
  | [] => rfl
  | (name, schema) :: rest => by
    rw [Contract.ofProperties, List.map_cons, Schema.shapes, lines,
      validator_atDepth space (depth + 1) schema, validator_ofProperties space depth required rest]

end

end Shape

end ApiContract
