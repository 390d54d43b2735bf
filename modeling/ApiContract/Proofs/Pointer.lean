import ApiContract.Schema.Reader

/-!
# What a reference is bound to

A reference in a schema is never followed: the schema keeps the last name of its pointer, and that
is the name of a declared schema. Elsewhere a pointer is followed token by token. The two agree on
the pointers of the form `#/components/schemas/NAME` (`TargetsSchema`). Every other pointer is bound
by its last name as well, whether it leads into another document, into another section or deeper
into a schema, and then it is bound to what it does not point to.

Main facts: `resolve_of_targetsSchema` (a pointer of the form leads to the schema of its last name),
`targetsSchema_of_resolve` (it takes the form to lead there in the description that declares one
schema only) and `bound_iff`.
-/

namespace ApiContract.Pointer

/-- A description declares a definition as the schema of a name. -/
def Declares (spec : Fields) (name : String) (definition : Value) : Prop :=
  ∃ components schemas, spec.object? "components" = some components ∧
    components.object? "schemas" = some schemas ∧ schemas.field? name = some definition

/-- A pointer at a schema: its tokens lead to the section of schemas and on by one name. -/
def TargetsSchema (pointer : String) : Prop :=
  ∃ name, (tokens? pointer).map (·.map unescape) =
    some ["components".toList, "schemas".toList, name]

/-- The value that tokens lead to from a value on the way. -/
def walk (pointer : String) (tokens : List (List Char)) (value : Value) : Except Fault Value :=
  tokens.foldlM (fun value token => step pointer value (unescape token)) value

@[simp] theorem walk_nil (pointer : String) (value : Value) : walk pointer [] value = .ok value :=
  rfl

@[simp] theorem walk_cons (pointer : String) (token : List Char) (tokens : List (List Char))
    (value : Value) :
    walk pointer (token :: tokens) value =
      (step pointer value (unescape token)).bind (walk pointer tokens) :=
  rfl

theorem resolve_of_tokens {pointer : String} {tokens : List (List Char)}
    (h : tokens? pointer = some tokens) (root : Value) :
    resolve pointer root = walk pointer tokens root := by
  rw [resolve, h]
  rfl

theorem step_of_field? (pointer : String) {name : String} {fields : Fields} {token : List Char}
    {value : Value} (hname : String.ofList token = name) (h : fields.field? name = some value) :
    step pointer (.object fields) token = .ok value := by
  simp only [step, hname, h]

/-! ## The last name -/

/-- The last piece is what stands after the last separator. -/
theorem getLast?_piecesAt (sep : Char) (text : List Char) :
    (Text.piecesAt sep text).getLast? = some (text.reverse.takeWhile (· ≠ sep)).reverse := by
  by_cases h : sep ∈ text
  · obtain ⟨after, before, hsplit, hafter⟩ :=
      List.eq_append_cons_of_mem (List.mem_reverse.2 h)
    have hpast : ∀ c ∈ after, decide (c ≠ sep) := by
      intro c hc
      exact decide_eq_true fun heq => hafter (heq ▸ hc)
    have hpiece : ∀ c ∈ after.reverse, (c == sep) = false := by
      intro c hc
      simpa using hpast c (List.mem_reverse.1 hc)
    have htext : text = before.reverse ++ sep :: after.reverse := by
      simpa using congrArg List.reverse hsplit
    rw [hsplit, List.takeWhile_append_of_pos hpast, List.takeWhile_cons_of_neg (by simp),
      List.append_nil, htext, Text.piecesAt, Text.pieces_append_cons (p := (· == sep)) (by simp),
      Text.pieces_of_forall hpiece, List.getLast?_concat]
  · have hpast : ∀ c ∈ text.reverse, decide (c ≠ sep) := by
      intro c hc
      exact decide_eq_true fun heq => h (heq ▸ List.mem_reverse.1 hc)
    have hpiece : ∀ c ∈ text, (c == sep) = false := by
      intro c hc
      simpa using hpast c (List.mem_reverse.2 hc)
    have hall : (text.reverse ++ []).takeWhile (· ≠ sep) =
        text.reverse ++ [].takeWhile (· ≠ sep) := List.takeWhile_append_of_pos hpast
    rw [List.append_nil, List.takeWhile_nil, List.append_nil] at hall
    rw [hall, List.reverse_reverse, Text.piecesAt, Text.pieces_of_forall hpiece,
      List.getLast?_singleton]

theorem lastName_of_tokens {pointer : String} {tokens : List (List Char)} {token : List Char}
    (h : tokens? pointer = some (tokens ++ [token])) :
    lastName pointer = String.ofList (unescape token) := by
  unfold tokens? at h
  split at h
  · next rest hpointer =>
    have hpieces : Text.piecesAt '/' pointer.toList = ['#'] :: (tokens ++ [token]) := by
      rw [hpointer, ← Option.some.inj h]
      rfl
    have hlast := getLast?_piecesAt '/' pointer.toList
    rw [hpieces, ← List.cons_append, List.getLast?_concat, Option.some.injEq] at hlast
    rw [lastName, hlast]
  · cases h

theorem TargetsSchema.exists_tokens {pointer : String} (h : TargetsSchema pointer) :
    ∃ components schemas name, tokens? pointer = some [components, schemas, name] ∧
      String.ofList (unescape components) = "components" ∧
      String.ofList (unescape schemas) = "schemas" ∧
      String.ofList (unescape name) = lastName pointer := by
  obtain ⟨name, h⟩ := h
  obtain ⟨tokens, htokens, h⟩ := Option.map_eq_some_iff.1 h
  obtain ⟨components, _, rfl, hcomponents, h⟩ := List.map_eq_cons_iff.1 h
  obtain ⟨schemas, _, rfl, hschemas, h⟩ := List.map_eq_cons_iff.1 h
  obtain ⟨last, _, rfl, -, h⟩ := List.map_eq_cons_iff.1 h
  cases List.map_eq_nil_iff.1 h
  refine ⟨components, schemas, last, htokens, ?_, ?_, ?_⟩
  · rw [hcomponents, String.ofList_toList]
  · rw [hschemas, String.ofList_toList]
  · have hlast : tokens? pointer = some ([components, schemas] ++ [last]) := htokens
    exact (lastName_of_tokens hlast).symm

/-! ## Where the two readings agree -/

theorem resolve_of_targetsSchema {pointer : String} (h : TargetsSchema pointer) {spec : Fields}
    {definition : Value} (hdeclared : Declares spec (lastName pointer) definition) :
    resolve pointer (.object spec) = .ok definition := by
  obtain ⟨first, second, third, htokens, hfirst, hsecond, hthird⟩ := h.exists_tokens
  obtain ⟨components, schemas, hcomponents, hschemas, hdefinition⟩ := hdeclared
  have stepComponents := step_of_field? pointer hfirst (Fields.field?_of_object? hcomponents)
  have stepSchemas := step_of_field? pointer hsecond (Fields.field?_of_object? hschemas)
  have stepName := step_of_field? pointer hthird hdefinition
  rw [resolve_of_tokens htokens]
  simp [stepComponents, stepSchemas, stepName, Except.bind]

/-- An object with one field lets a walk to null pass under the name of that field only. -/
theorem walk_single {pointer key : String} {value : Value} {tokens : List (List Char)}
    (h : walk pointer tokens (.object [(.text key, value)]) = .ok .null) :
    ∃ token rest, tokens = token :: rest ∧ unescape token = key.toList ∧
      walk pointer rest value = .ok .null := by
  cases tokens with
  | nil => simp at h
  | cons token rest =>
    by_cases hkey : String.ofList (unescape token) = key
    · have hfield : Fields.field? [(.text key, value)] key = some value := by
        simp [Fields.field?]
      refine ⟨token, rest, rfl, by rw [← hkey, String.toList_ofList], ?_⟩
      rw [walk_cons, step_of_field? pointer hkey hfield] at h
      exact h
    · have hnone : Fields.field? [(.text key, value)] (String.ofList (unescape token)) = none := by
        simp [Fields.field?, Ne.symm hkey]
      simp [step, hnone, Except.bind] at h

theorem walk_null {pointer : String} {tokens : List (List Char)} {result : Value}
    (h : walk pointer tokens .null = .ok result) : tokens = [] := by
  cases tokens with
  | nil => rfl
  | cons token rest => simp [step, Except.bind] at h

/-- The description that declares one schema, and nothing else. -/
def declaring (name : String) : Fields :=
  [(.text "components", .object [(.text "schemas", .object [(.text name, .null)])])]

theorem declares_declaring (name : String) : Declares (declaring name) name .null :=
  ⟨_, _, rfl, rfl, by simp [Fields.field?]⟩

/-- A pointer that leads to the one schema that is declared has the form of one at a schema. -/
theorem targetsSchema_of_resolve {pointer name : String}
    (h : resolve pointer (.object (declaring name)) = .ok .null) : TargetsSchema pointer := by
  cases htokens : tokens? pointer with
  | none => simp [resolve, htokens] at h
  | some tokens =>
    rw [resolve_of_tokens htokens] at h
    obtain ⟨first, tokens, rfl, hfirst, h⟩ := walk_single h
    obtain ⟨second, tokens, rfl, hsecond, h⟩ := walk_single h
    obtain ⟨third, tokens, rfl, -, h⟩ := walk_single h
    rw [walk_null h] at htokens
    exact ⟨unescape third, by simp [htokens, hfirst, hsecond]⟩

theorem read_of_reference? {value : Value} {pointer : String}
    (h : reference? value = some pointer) :
    (Schema.read value).outcome = .ok (.reference false (lastName pointer)) := by
  unfold reference? at h
  split at h
  · next fields =>
    have htext : Fields.text? fields "$ref" = some pointer := h
    rw [Schema.read, htext]
    rfl
  · cases h

/-- **What a reference is bound to.** A value with a pointer is read as a reference to the last name
of the pointer, whatever stands before it. In every description that declares a schema of this name
the pointer leads to its definition if and only if the pointer has the form of one at a schema. -/
theorem bound_iff {value : Value} {pointer : String} (h : reference? value = some pointer) :
    ∃ target, (Schema.read value).outcome = .ok (.reference false target) ∧
      ((∀ spec definition, Declares spec target definition →
        resolve pointer (.object spec) = .ok definition) ↔ TargetsSchema pointer) := by
  refine ⟨lastName pointer, read_of_reference? h, ?_, ?_⟩
  · intro hall
    exact targetsSchema_of_resolve (hall _ _ (declares_declaring _))
  · intro htarget spec definition hdeclared
    exact resolve_of_targetsSchema htarget hdeclared

/-- A reference with escapes, at a schema. -/
theorem bound_iff_escaped :
    let pointer := "#/components/schemas/a~1b"
    TargetsSchema pointer ∧ ∃ target,
      (Schema.read (.object [(.text "$ref", .text pointer)])).outcome =
        .ok (.reference false target) ∧
      ∀ spec definition, Declares spec target definition →
        resolve pointer (.object spec) = .ok definition := by
  intro pointer
  have hform : TargetsSchema pointer := ⟨"a/b".toList, by decide +kernel⟩
  have href : reference? (.object [(.text "$ref", .text pointer)]) = some pointer := rfl
  obtain ⟨target, hread, hiff⟩ := bound_iff href
  exact ⟨hform, target, hread, hiff.2 hform⟩

/-- A reference into another document is bound to the schema that has its last name here. -/
theorem bound_external :
    let pointer := "shared.yaml#/components/schemas/Pet"
    (Schema.read (.object [(.text "$ref", .text pointer)])).outcome =
        .ok (.reference false "Pet") ∧
      Declares (declaring "Pet") "Pet" .null ∧
      resolve pointer (.object (declaring "Pet")) = .error (.external pointer) := by
  have hname : lastName "shared.yaml#/components/schemas/Pet" = "Pet" := by decide +kernel
  have htokens : tokens? "shared.yaml#/components/schemas/Pet" = none := by decide +kernel
  refine ⟨?_, declares_declaring _, ?_⟩
  · rw [← hname]
    exact read_of_reference? rfl
  · rw [resolve, htokens]

end ApiContract.Pointer
