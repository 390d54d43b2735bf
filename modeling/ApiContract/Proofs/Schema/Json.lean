import ApiContract.Proofs.Json.Value
import ApiContract.Proofs.Schema.Acceptance

/-!
# JSON values as schemas

Of a JSON value the reader of schemas refuses a single thing: a text whose format is neither null
nor a text, wherever it comes to one. Anything else that is strange is read as an unknown schema.

Main facts: `refused_json_iff` and `read_json_iff`.
-/

namespace ApiContract

namespace Value.IsJson

variable {fields : Fields}

theorem of_field? {name : String} {value : Value} (h : (Value.object fields).IsJson)
    (found : fields.field? name = some value) : value.IsJson := by
  cases h with
  | object _ values => exact values _ (Fields.mem_of_field? found)

theorem of_object? {inner : Fields} {name : String} (h : (Value.object fields).IsJson)
    (found : fields.object? name = some inner) : (Value.object inner).IsJson :=
  h.of_field? (Fields.field?_of_object? found)

theorem of_mem_list? {name : String} {items : List Value} {value : Value}
    (h : (Value.object fields).IsJson) (found : fields.list? name = some items)
    (mem : value ∈ items) : value.IsJson := by
  unfold Fields.list? at found
  split at found
  · next hfield =>
    cases found
    cases h.of_field? hfield with
    | list all => exact all _ mem
  · cases found

end Value.IsJson

namespace Schema

/-! ## Parts -/

theorem isJson_of_mem_composition? {fields : Fields} {c : Composition} {members : List Value}
    {member : Value} (h : (Value.object fields).IsJson)
    (composition : composition? fields = some (c, members)) (mem : member ∈ members) :
    member.IsJson := by
  unfold composition? at composition
  split at composition
  · next found =>
    cases composition
    exact h.of_mem_list? found mem
  · split at composition
    · next found =>
      cases composition
      exact h.of_mem_list? found mem
    · split at composition
      · next found =>
        cases composition
        exact h.of_mem_list? found mem
      · obtain ⟨inner, found, heq⟩ := Option.map_eq_some_iff.1 composition
        cases heq
        rw [List.mem_singleton.1 mem]
        exact h.of_object? found

theorem Part.isJson {value part : Value} (h : Part value part) (hvalue : value.IsJson) :
    part.IsJson := by
  cases h with
  | member _ composition mem => exact isJson_of_mem_composition? hvalue composition mem
  | items _ found => exact hvalue.of_object? found
  | property _ found mem =>
    cases hvalue.of_object? found with
    | object _ values => exact values _ mem
  | additional _ found => exact hvalue.of_object? found

theorem Reads.isJson {value part : Value} (h : Reads value part) (hvalue : value.IsJson) :
    part.IsJson := by
  induction h with
  | refl => exact hvalue
  | tail _ hpart ih => exact hpart.isJson ih

/-! ## Faults -/

/-- The format of an object is null or a text, if it has one. -/
def FormatFits (fields : Fields) : Prop :=
  ∀ value, fields.field? "format" = some value → value = .null ∨ ∃ s, value = .text s

/-- What is reported of a format that does not fit. -/
def formatFault : Field.Fault := ⟨["format"], .text⟩

theorem readFormat_eq_error {fields : Fields} {faults : List Field.Fault}
    (h : (Value.object fields).IsJson) :
    readFormat fields = .error faults ↔ ¬ FormatFits fields ∧ faults = [formatFault] := by
  unfold readFormat FormatFits
  cases found : fields.field? "format" with
  | none => simp
  | some value =>
    cases h.of_field? found with
    | null | text s => simp [Field.readText]
    | bool b | int n | float x | list all | object names values =>
      simp [Field.readText, formatFault, eq_comm]

theorem keyFaults_propertyKeys {fields : Fields} (h : (Value.object fields).IsJson) :
    Field.keyFaults (propertyKeys fields) = [] := by
  unfold propertyKeys
  cases found : fields.object? "properties" with
  | none => rfl
  | some properties =>
    cases h.of_object? found with
    | object names _ =>
      refine List.filterMap_eq_nil_iff.2 fun key hkey => ?_
      obtain ⟨property, mem, rfl⟩ := List.mem_map.1 hkey
      obtain ⟨name, hname⟩ := names property mem
      rw [hname]
      rfl

/-- A JSON value is at fault itself by its format alone. -/
theorem refused_json_iff {value : Value} {faults : List Field.Fault} (h : value.IsJson) :
    Refused value faults ↔ ∃ fields, value = .object fields ∧ Typed fields "string" ∧
      ¬ FormatFits fields ∧ faults = [formatFault] := by
  constructor
  · intro hrefused
    cases hrefused with
    | format typed refused => exact ⟨_, rfl, typed, (readFormat_eq_error h).1 refused⟩
    | name _ refused => exact absurd (keyFaults_propertyKeys h) refused
  · rintro ⟨fields, rfl, typed, hfault⟩
    exact .format typed ((readFormat_eq_error h).2 hfault)

/-- **JSON values as schemas**: a JSON value is read as a schema exactly when every text to which
the reader comes has a fitting format. If it is not read, the one fault is such a format. -/
theorem read_json_iff {value : Value} (h : value.IsJson) :
    ((∃ schema, (read value).outcome = .ok schema) ↔
      ∀ fields, Reads value (.object fields) → Typed fields "string" → FormatFits fields) ∧
    ∀ faults, (read value).outcome = .error faults → faults = [formatFault] := by
  constructor
  · rw [exists_read_iff]
    constructor
    · intro hall fields hreads typed
      have hjson : (Value.object fields).IsJson := hreads.isJson h
      refine Classical.byContradiction fun hunfit => hall _ hreads [formatFault] ?_
      exact (refused_json_iff hjson).2 ⟨fields, rfl, typed, hunfit, rfl⟩
    · intro hall part hreads faults hrefused
      obtain ⟨fields, rfl, typed, hunfit, -⟩ := (refused_json_iff (hreads.isJson h)).1 hrefused
      exact hunfit (hall fields hreads typed)
  · intro faults herror
    obtain ⟨part, hreads, hrefused⟩ := refused_of_error herror
    obtain ⟨-, -, -, -, hfaults⟩ := (refused_json_iff (hreads.isJson h)).1 hrefused
    exact hfaults

/-- The fields of a text with a format. -/
def textOf (format : Value) : Fields := [(.text "type", .text "string"), (.text "format", format)]

/-- The fields of an object whose one property is a text with a format. -/
def petOf (format : Value) : Fields := [(.text "type", .text "object"),
  (.text "properties", .object [(.text "name", .object (textOf format))])]

theorem isJson_petOf {format : Value} (h : format.IsJson) :
    (Value.object (petOf format)).IsJson := by
  have htext : (Value.object (textOf format)).IsJson :=
    .object (by simp [textOf]) (List.forall_mem_cons.2 ⟨.text _, List.forall_mem_singleton.2 h⟩)
  have hproperties : (Value.object [(.text "name", .object (textOf format))]).IsJson :=
    .object (by simp) (List.forall_mem_singleton.2 htext)
  exact .object (by simp [petOf])
    (List.forall_mem_cons.2 ⟨.text _, List.forall_mem_singleton.2 hproperties⟩)

theorem read_json_iff_petOf : (Value.object (petOf (.int 5))).IsJson ∧
    Reads (.object (petOf (.int 5))) (.object (textOf (.int 5))) ∧
    ¬ ∃ schema, (read (.object (petOf (.int 5)))).outcome = .ok schema := by
  have hjson : (Value.object (petOf (.int 5))).IsJson := isJson_petOf (.int 5)
  have hreads : Reads (.object (petOf (.int 5))) (.object (textOf (.int 5))) :=
    .single (.property ⟨rfl, rfl, rfl, rfl⟩ rfl (List.mem_singleton.2 rfl))
  refine ⟨hjson, hreads, fun hread => ?_⟩
  have hfits : FormatFits (textOf (.int 5)) :=
    (read_json_iff hjson).1.1 hread _ hreads ⟨rfl, rfl, rfl, rfl⟩
  obtain hnull | ⟨s, htext⟩ := hfits (.int 5) rfl
  · cases hnull
  · cases htext

/-- A number as the format of a property keeps the whole object from being read. -/
theorem not_read_petOf : (Value.object (petOf (.int 5))).IsJson ∧
    (read (.object (petOf (.int 5)))).outcome = .error [formatFault] := by
  refine ⟨isJson_petOf (.int 5), ?_⟩
  have htext : (read (.object (textOf (.int 5)))).outcome = .error [formatFault] := by
    rw [read_string ⟨rfl, rfl, rfl, rfl⟩]
    rfl
  have hproperties : (readProperties (petOf (.int 5))).outcome = .error [formatFault] := by
    show (([(_, Value.object (textOf (.int 5)))] : Fields).mapM fun p =>
      (p.1, ·) <$> read p.2).outcome = _
    rw [List.mapM_cons, Trace.bind_eq_error]
    exact .inl (Trace.map_eq_error.2 htext)
  rw [read_object ⟨rfl, rfl, rfl, rfl⟩, Trace.bind_eq_error]
  exact .inr ⟨none, rfl, Trace.bind_eq_error.2 (.inl hproperties)⟩

end Schema

end ApiContract
