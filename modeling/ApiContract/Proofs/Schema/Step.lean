import ApiContract.Schema.Reader

/-!
# The reader of schemas by the shape of an object

What decides the shape of an object is its reference, its composition, the values that it lists, or
else the name of its type: `read_fields` says what is read in each case, and in which order. `Typed`
says that it is the name of the type that decides.

Main facts: `read_fields`, and from it one equation for each shape that has parts or can be refused
(`read_composite`, `read_string`, `read_array` and `read_object`).
-/

namespace ApiContract.Schema

/-- The name of its type decides the shape of an object. -/
structure Typed (fields : Fields) (type : String) : Prop where
  reference : fields.text? "$ref" = none
  composition : composition? fields = none
  values : (Schema.values fields).1 = []
  type : typeOrObject fields (readType fields).1 = some type

/-- Whether an object admits null, by its fields or by a value among those listed. -/
def admitsNull (fields : Fields) : Bool :=
  (readType fields).2 || (values fields).2

/-- The schema of the properties that an object does not name. -/
def readAdditional (fields : Fields) : Trace (List Field.Fault) (Option Schema) :=
  match fields.object? "additionalProperties" with
  | some inner => some <$> read (.object inner)
  | none => pure (if fields.isTrue "additionalProperties" then some (.unknown false) else none)

/-- The schemas of the properties that an object names, by their keys. -/
def readProperties (fields : Fields) : Trace (List Field.Fault) (List (Scalar × Schema)) :=
  match fields.object? "properties" with
  | some properties => properties.mapM fun p => (p.1, ·) <$> read p.2
  | none => pure []

/-- The schema of an object by the name of its type. The schema of the other properties is read
before those of the named ones, and the names come last. -/
def readAs (fields : Fields) : Option String → Trace (List Field.Fault) Schema
  | some "string" => do
    let format ← Trace.ofExcept (readFormat fields)
    return .text (admitsNull fields) format
  | some "number" => pure (.number (admitsNull fields) false)
  | some "integer" => pure (.number (admitsNull fields) true)
  | some "boolean" => pure (.boolean (admitsNull fields))
  | some "array" =>
    match fields.object? "items" with
    | some items => do return .array (admitsNull fields) (← read (.object items))
    | none => do
      remark "Array schema without items"
      return .unknown (admitsNull fields)
  | some "object" => do
    let additional ← readAdditional fields
    let entries ← readProperties fields
    let properties ← Trace.ofExcept (nameEntries "properties" entries)
    return .object (admitsNull fields) properties (readRequired fields) additional
  | some other => do
    remark ("Unrecognised schema type " ++ (Value.text other).quoted)
    return .unknown (admitsNull fields)
  | none => pure (.unknown (admitsNull fields))

/-- A run over a list need not know that its elements are in the list. -/
theorem mapM_attach {m : Type → Type} [Monad m] [LawfulMonad m] {α β : Type} (as : List α)
    (f : α → m β) : (as.attach.mapM fun x => f x.1) = as.mapM f := by
  rw [List.mapM_subtype (g := f) fun _ _ => rfl, List.unattach_attach]

theorem mapM_congr {m : Type → Type} [Monad m] [LawfulMonad m] {α β : Type} {as : List α}
    {f g : α → m β} (h : ∀ a ∈ as, f a = g a) : as.mapM f = as.mapM g := by
  induction as with
  | nil => rw [List.mapM_nil, List.mapM_nil]
  | cons a as ih =>
    obtain ⟨ha, has⟩ := List.forall_mem_cons.1 h
    rw [List.mapM_cons, List.mapM_cons, ha, ih has]

section
variable {fields : Fields}

theorem read_fields (fields : Fields) : read (.object fields) =
    match fields.text? "$ref" with
    | some pointer => pure (.reference false (Pointer.lastName pointer))
    | none =>
      match composition? fields with
      | some (c, members) => do
        let schemas ← members.mapM read
        return .composite (readType fields).2 c schemas
      | none =>
        if (values fields).1 ≠ [] then
          pure (.enumeration (admitsNull fields) (values fields).1)
        else readAs fields (typeOrObject fields (readType fields).1) := by
  rw [read]
  cases fields.text? "$ref" with
  | some pointer => rfl
  | none =>
    dsimp only
    split
    · next composition =>
      rw [composition, mapM_attach]
    · next composition =>
      rw [composition]
      dsimp only
      split
      · rfl
      · generalize typeOrObject fields (readType fields).1 = type
        split
        · rfl
        · rfl
        · rfl
        · rfl
        · rw [readAs]
          split <;> next found => rw [found]; rfl
        · congr 1
          · unfold readAdditional
            split <;> next found => rw [found]
          · funext additional
            congr 1
            unfold readProperties
            split
            · next properties found =>
              rw [found]
              exact mapM_attach properties fun p => (p.1, ·) <$> read p.2
            · next found => rw [found]
        · rw [readAs]
          · rfl
          all_goals assumption
        · rfl

theorem Typed.read {type : String} (h : Typed fields type) :
    Schema.read (.object fields) = readAs fields (some type) := by
  rw [read_fields, h.reference, h.composition, h.type]
  exact if_neg (not_not_intro h.values)

theorem read_composite {c : Composition} {members : List Value}
    (reference : fields.text? "$ref" = none)
    (composition : composition? fields = some (c, members)) :
    read (.object fields) = (do
      let schemas ← members.mapM read
      return .composite (readType fields).2 c schemas) := by
  rw [read_fields, reference, composition]

theorem read_string (h : Typed fields "string") :
    read (.object fields) = (do
      let format ← Trace.ofExcept (readFormat fields)
      return .text (admitsNull fields) format) :=
  h.read

theorem read_array {items : Fields} (h : Typed fields "array")
    (found : fields.object? "items" = some items) :
    read (.object fields) = (do return .array (admitsNull fields) (← read (.object items))) := by
  rw [h.read, readAs, found]

theorem read_object (h : Typed fields "object") :
    read (.object fields) = (do
      let additional ← readAdditional fields
      let entries ← readProperties fields
      let properties ← Trace.ofExcept (nameEntries "properties" entries)
      return .object (admitsNull fields) properties (readRequired fields) additional) :=
  h.read

end

end ApiContract.Schema
