import ApiContract.Proofs.Schema.Step
import Mathlib.Logic.Relation

/-!
# Which values are read as schemas

The schema of a value is read of the value itself and of its parts: the members of a composition,
the items of a list, the properties of an object. `Part` says which values these are, and `Reads` to
which ones the reader comes in the end. No other value counts, whatever it is.

A value is at fault itself (`Refused`) if it is a text whose format is no text, or an object with a
property whose name is none. In JSON every name is a text, so there it is the format alone.

Main facts: `exists_read_iff` (a value is read exactly when no value that the reader comes to is at
fault), `refused_of_error` (what is reported is such a fault), and `read_json_iff`.
-/

namespace ApiContract

namespace Schema

/-! ## Parts -/

/-- For the schema of the first value the second one is read. -/
inductive Part : Value → Value → Prop
  | member {fields : Fields} {c : Composition} {members : List Value} {member : Value}
      (reference : fields.text? "$ref" = none)
      (composition : composition? fields = some (c, members)) (mem : member ∈ members) :
      Part (.object fields) member
  | items {fields items : Fields} (typed : Typed fields "array")
      (found : fields.object? "items" = some items) : Part (.object fields) (.object items)
  | property {fields properties : Fields} {key : Scalar} {property : Value}
      (typed : Typed fields "object") (found : fields.object? "properties" = some properties)
      (mem : (key, property) ∈ properties) : Part (.object fields) property
  | additional {fields inner : Fields} (typed : Typed fields "object")
      (found : fields.object? "additionalProperties" = some inner) :
      Part (.object fields) (.object inner)

/-- Reading the first value comes to the second one. -/
abbrev Reads : Value → Value → Prop := Relation.ReflTransGen Part

theorem Part.sizeOf_lt {value part : Value} (h : Part value part) : sizeOf part < sizeOf value := by
  cases h with
  | member _ composition mem => exact sizeOf_composition?_lt composition mem
  | items _ found => exact Value.sizeOf_field?_lt (Fields.field?_of_object? found)
  | property _ found mem => exact Fields.sizeOf_object?_lt found mem
  | additional _ found => exact Value.sizeOf_field?_lt (Fields.field?_of_object? found)

/-- A value is read only if its parts are. -/
theorem Part.exists_ok {value part : Value} (h : Part value part) {schema : Schema}
    (hread : (read value).outcome = .ok schema) : ∃ schema, (read part).outcome = .ok schema := by
  cases h with
  | member reference composition mem =>
    rw [read_composite reference composition, Trace.bind_eq_ok] at hread
    obtain ⟨schemas, hschemas, -⟩ := hread
    exact Trace.exists_ok_of_mapM hschemas _ mem
  | items typed found =>
    rw [read_array typed found, Trace.bind_eq_ok] at hread
    obtain ⟨items, hitems, -⟩ := hread
    exact ⟨items, hitems⟩
  | property typed found mem =>
    rw [read_object typed, Trace.bind_eq_ok] at hread
    obtain ⟨additional, -, hread⟩ := hread
    obtain ⟨entries, hentries, -⟩ := Trace.bind_eq_ok.1 hread
    rw [readProperties, found] at hentries
    obtain ⟨entry, hentry⟩ := Trace.exists_ok_of_mapM hentries _ mem
    obtain ⟨property, hproperty, -⟩ := Trace.map_eq_ok.1 hentry
    exact ⟨property, hproperty⟩
  | additional typed found =>
    rw [read_object typed, Trace.bind_eq_ok] at hread
    obtain ⟨additional, hadditional, -⟩ := hread
    rw [readAdditional, found] at hadditional
    obtain ⟨inner, hinner, -⟩ := Trace.map_eq_ok.1 hadditional
    exact ⟨inner, hinner⟩

theorem Reads.exists_ok {value part : Value} (h : Reads value part) {schema : Schema}
    (hread : (read value).outcome = .ok schema) : ∃ schema, (read part).outcome = .ok schema := by
  induction h with
  | refl => exact ⟨schema, hread⟩
  | tail _ hpart ih =>
    obtain ⟨inner, hinner⟩ := ih
    exact hpart.exists_ok hinner

/-! ## Faults -/

/-- The keys of the properties that an object names. -/
def propertyKeys (fields : Fields) : List Scalar :=
  ((fields.object? "properties").getD []).map Prod.fst

/-- A value is at fault itself, and these are its faults. -/
inductive Refused : Value → List Field.Fault → Prop
  | format {fields : Fields} {faults : List Field.Fault} (typed : Typed fields "string")
      (refused : readFormat fields = .error faults) : Refused (.object fields) faults
  | name {fields : Fields} (typed : Typed fields "object")
      (refused : Field.keyFaults (propertyKeys fields) ≠ []) :
      Refused (.object fields)
        ((Field.keyFaults (propertyKeys fields)).map (Field.Fault.within ["properties"]))

theorem nameEntries_eq_error {α : Type} {place : String} {entries : List (Scalar × α)}
    {faults : List Field.Fault} : nameEntries place entries = .error faults ↔
      Field.keyFaults (entries.map Prod.fst) ≠ [] ∧
        (Field.keyFaults (entries.map Prod.fst)).map (Field.Fault.within [place]) = faults := by
  unfold nameEntries
  split
  · next h => simp [h]
  · next hne =>
    rw [Except.error.injEq]
    exact ⟨fun h => ⟨hne, h⟩, And.right⟩

/-- Reading the properties keeps their keys. -/
theorem keys_of_readProperties {fields : Fields} {entries : List (Scalar × Schema)}
    (h : (readProperties fields).outcome = .ok entries) :
    entries.map Prod.fst = propertyKeys fields := by
  unfold readProperties at h
  unfold propertyKeys
  split at h
  · next properties found =>
    rw [found, Option.getD_some]
    clear found
    induction properties generalizing entries with
    | nil =>
      cases h
      rfl
    | cons p properties ih =>
      rw [List.mapM_cons, Trace.bind_eq_ok] at h
      obtain ⟨first, hfirst, h⟩ := h
      obtain ⟨others, hothers, h⟩ := Trace.bind_eq_ok.1 h
      obtain ⟨schema, -, rfl⟩ := Trace.map_eq_ok.1 hfirst
      cases h
      rw [List.map_cons, List.map_cons, ih hothers]
  · next found =>
    cases h
    rw [found]
    rfl

/-- A value at fault is not read. -/
theorem Refused.not_ok {value : Value} {faults : List Field.Fault} (h : Refused value faults)
    (schema : Schema) : (read value).outcome ≠ .ok schema := by
  intro hread
  cases h with
  | format typed refused =>
    rw [read_string typed, Trace.bind_eq_ok] at hread
    obtain ⟨format, hformat, -⟩ := hread
    rw [Trace.outcome_ofExcept, refused] at hformat
    cases hformat
  | name typed refused =>
    rw [read_object typed, Trace.bind_eq_ok] at hread
    obtain ⟨additional, -, hread⟩ := hread
    obtain ⟨entries, hentries, hread⟩ := Trace.bind_eq_ok.1 hread
    obtain ⟨properties, hproperties, -⟩ := Trace.bind_eq_ok.1 hread
    rw [← keys_of_readProperties hentries] at refused
    rw [Trace.outcome_ofExcept, nameEntries_eq_error.2 ⟨refused, rfl⟩] at hproperties
    cases hproperties

/-! ## What is reported -/

section
variable {fields : Fields} {faults : List Field.Fault}

theorem part_of_readAdditional (typed : Typed fields "object")
    (h : (readAdditional fields).outcome = .error faults) :
    ∃ part, Part (.object fields) part ∧ (read part).outcome = .error faults := by
  unfold readAdditional at h
  split at h
  · next found => exact ⟨_, .additional typed found, Trace.map_eq_error.1 h⟩
  · cases h

theorem part_of_readProperties (typed : Typed fields "object")
    (h : (readProperties fields).outcome = .error faults) :
    ∃ part, Part (.object fields) part ∧ (read part).outcome = .error faults := by
  unfold readProperties at h
  split at h
  · next found =>
    obtain ⟨⟨key, property⟩, mem, hproperty⟩ := Trace.exists_error_of_mapM h
    exact ⟨property, .property typed found mem, Trace.map_eq_error.1 hproperty⟩
  · cases h

theorem refused_or_part_of_object (typed : Typed fields "object")
    (h : (read (.object fields)).outcome = .error faults) :
    Refused (.object fields) faults ∨
      ∃ part, Part (.object fields) part ∧ (read part).outcome = .error faults := by
  rw [read_object typed, Trace.bind_eq_error] at h
  obtain hadditional | ⟨_, -, h⟩ := h
  · exact .inr (part_of_readAdditional typed hadditional)
  obtain hentries | ⟨entries, hentries, h⟩ := Trace.bind_eq_error.1 h
  · exact .inr (part_of_readProperties typed hentries)
  obtain hnames | ⟨_, -, hdone⟩ := Trace.bind_eq_error.1 h
  · obtain ⟨hne, rfl⟩ := nameEntries_eq_error.1 hnames
    rw [keys_of_readProperties hentries] at hne ⊢
    exact .inl (.name typed hne)
  · cases hdone

/-- What the reader reports of an object is a fault of its own or was reported of a part. -/
theorem refused_or_part (h : (read (.object fields)).outcome = .error faults) :
    Refused (.object fields) faults ∨
      ∃ part, Part (.object fields) part ∧ (read part).outcome = .error faults := by
  have hread := h
  rw [read_fields] at h
  split at h
  · cases h
  next reference =>
  split at h
  · next composition =>
    obtain hmembers | ⟨_, -, hdone⟩ := Trace.bind_eq_error.1 h
    · obtain ⟨member, mem, hmember⟩ := Trace.exists_error_of_mapM hmembers
      exact .inr ⟨member, .member reference composition mem, hmember⟩
    · cases hdone
  next composition =>
  split at h
  · cases h
  next hvalues =>
  have htyped {type : String} (h : typeOrObject fields (readType fields).1 = some type) :
      Typed fields type := ⟨reference, composition, Classical.not_not.1 hvalues, h⟩
  unfold readAs at h
  split at h
  · next type =>
    obtain hformat | ⟨_, -, hdone⟩ := Trace.bind_eq_error.1 h
    · exact .inl (.format (htyped type) hformat)
    · cases hdone
  · cases h
  · cases h
  · cases h
  · next type =>
    split at h
    · next found =>
      obtain hitems | ⟨_, -, hdone⟩ := Trace.bind_eq_error.1 h
      · exact .inr ⟨_, .items (htyped type) found, hitems⟩
      · cases hdone
    · obtain h | ⟨_, -, h⟩ := Trace.bind_eq_error.1 h <;> cases h
  · next type => exact refused_or_part_of_object (htyped type) hread
  · obtain h | ⟨_, -, h⟩ := Trace.bind_eq_error.1 h <;> cases h
  · cases h

end

/-- What the reader reports is the fault of a value that it came to. -/
theorem refused_of_error {value : Value} {faults : List Field.Fault}
    (h : (read value).outcome = .error faults) :
    ∃ part, Reads value part ∧ Refused part faults := by
  induction hsize : sizeOf value using Nat.strongRecOn generalizing value with
  | ind size ih =>
    subst hsize
    cases value with
    | object fields =>
      obtain hrefused | ⟨part, hpart, hread⟩ := refused_or_part h
      · exact ⟨_, .refl, hrefused⟩
      · obtain ⟨inner, hinner, hrefused⟩ := ih _ hpart.sizeOf_lt hread rfl
        exact ⟨inner, .head hpart hinner, hrefused⟩
    | scalar _ | list _ | set _ =>
      rw [read] at h
      · cases h
      · rintro _ ⟨⟩

/-- A value is read exactly when none of the values that the reader comes to is at fault. -/
theorem exists_read_iff (value : Value) : (∃ schema, (read value).outcome = .ok schema) ↔
    ∀ part, Reads value part → ∀ faults, ¬ Refused part faults := by
  constructor
  · rintro ⟨schema, hread⟩ part hpart faults hrefused
    obtain ⟨inner, hinner⟩ := Reads.exists_ok hpart hread
    exact hrefused.not_ok inner hinner
  · intro hall
    cases h : (read value).outcome with
    | ok schema => exact ⟨schema, rfl⟩
    | error faults =>
      obtain ⟨part, hpart, hrefused⟩ := refused_of_error h
      exact absurd hrefused (hall part hpart faults)

end Schema

end ApiContract
