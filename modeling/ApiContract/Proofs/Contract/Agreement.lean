import ApiContract.Proofs.Contract.Type
import ApiContract.Proofs.Schema

/-!
# Validator and type agree

Both texts of a contract are read to the same tree, the shape of the schema, but for what a type
does not say (`Shape.inType`). For the validator that holds of every schema. For the type it holds
just where a type can be written for the shape: a type has no literal for a number that is not
finite, and the name that begins an operator is no name of a type. That is what soundness of the
reader shows: no such shape is ever read.

Main fact: `type_agrees_iff`.
-/

namespace ApiContract

namespace Grammar

/-! ## What is read can be written -/

/-- What is read has a property. -/
def Yields (item : Reader α) (P : α → Prop) : Prop :=
  ∀ toks a rest, item toks = some (a, rest) → P a

theorem yields_fixed {P : α → Prop} {a : α} (h : P a) (expected : List Token) :
    Yields (fixed expected a) P := by
  intro toks b rest hread
  obtain ⟨after, -, heq⟩ := Option.map_eq_some_iff.1 hread
  cases heq
  exact h

theorem Yields.sequence {item : Reader α} {P : α → Prop} (h : Yields item P) (sep close : Char)
    (n : Nat) : Yields (Grammar.sequence sep close item n) fun items => ∀ a ∈ items, P a := by
  induction n with
  | zero => exact fun _ _ _ hread => nomatch hread
  | succ n ih =>
    intro toks items rest hread
    unfold Grammar.sequence at hread
    split at hread
    · cases hread
      exact List.forall_mem_nil _
    · obtain ⟨⟨a, after⟩, ha, hread⟩ := Option.bind_eq_some_iff.1 hread
      dsimp only at hread
      split at hread
      · obtain ⟨⟨others, final⟩, hothers, hread⟩ := Option.bind_eq_some_iff.1 hread
        cases hread
        exact List.forall_mem_cons.2 ⟨h _ _ _ ha, ih _ _ _ hothers⟩
      · have hone : ∀ b ∈ [a], P b := List.forall_mem_singleton.2 (h _ _ _ ha)
        exact yields_fixed (P := fun items => ∀ b ∈ items, P b) hone _ _ _ _ hread

theorem Yields.alternatives {item : Reader α} {P : α → Prop} (h : Yields item P) (n : Nat) :
    Yields (Grammar.alternatives item n) fun items => ∀ a ∈ items, P a := by
  induction n with
  | zero => exact fun _ _ _ hread => nomatch hread
  | succ n ih =>
    intro toks items rest hread
    obtain ⟨⟨a, after⟩, ha, hread⟩ := Option.bind_eq_some_iff.1 hread
    dsimp only at hread
    split at hread
    · obtain ⟨⟨others, final⟩, hothers, hread⟩ := Option.bind_eq_some_iff.1 hread
      cases hread
      exact List.forall_mem_cons.2 ⟨h _ _ _ ha, ih _ _ _ hothers⟩
    · cases hread
      exact List.forall_mem_singleton.2 (h _ _ _ ha)

/-- A text with a property that no name of a number that is not finite has. -/
theorem not_mem_nonFinite {p : List Char → Bool} (hall : ∀ w ∈ nonFinite, p w.toList = false)
    {text : List Char} (h : p text) : String.ofList text ∉ nonFinite := by
  intro hmem
  have := hall _ hmem
  rw [String.toList_ofList, h] at this
  cases this

/-- A literal of a type is finite. -/
theorem yields_literal :
    Yields (literal truthWords) fun text => String.ofList text ∉ nonFinite := by
  have htruth : ∀ w ∈ truthWords, w ∉ nonFinite := by decide
  have hstring : ∀ w ∈ nonFinite, (Json.decode? w.toList).isSome = false := by decide
  have hnumeral : ∀ w ∈ nonFinite, Decimal.isNumeral w.toList = false := by decide
  have hminus : ∀ w ∈ nonFinite, Decimal.isNumeral w.toList.tail = false := by decide
  intro toks text rest hread
  unfold literal at hread
  split at hread
  all_goals simp only [Option.ite_none_right_eq_some, Option.some.injEq, Prod.mk.injEq,
    reduceCtorEq] at hread
  · obtain ⟨hdecode, rfl, rfl⟩ := hread
    exact not_mem_nonFinite (p := fun w => (Json.decode? w).isSome) hstring hdecode
  · obtain ⟨htext, rfl, rfl⟩ := hread
    exact not_mem_nonFinite hnumeral htext
  · obtain ⟨hword, rfl, rfl⟩ := hread
    exact htruth _ hword
  · obtain ⟨htext, rfl, rfl⟩ := hread
    exact not_mem_nonFinite (p := fun w => Decimal.isNumeral w.tail) hminus htext
  · obtain ⟨hword, rfl, rfl⟩ := hread
    exact htruth _ hword

theorem yields_typeName (word : List Char) :
    Yields (typeName word) (Shape.Forall Shape.IsWritable) := by
  have hdot : ∀ w ∈ operators, '.' ∉ w.toList := by decide
  intro toks shape rest hread
  unfold typeName at hread
  split at hread
  · next hname =>
    split at hread
    · next name _ =>
      cases hread
      refine fun hmem => hdot _ hmem ?_
      rw [String.toList_ofList]
      exact List.mem_append_right _ List.mem_cons_self
    · cases hread
      exact fun hmem => of_decide_eq_true hname (List.mem_append_right _ hmem)
  · cases hread

theorem forall_predefined? {word : List Char} {shape : Shape} (h : predefined? word = some shape) :
    shape.Forall Shape.IsWritable := by
  unfold predefined? at h
  split_ifs at h
  all_goals
    cases h
    exact trivial

theorem forall_brackets {p : Shape → Prop} (toks : List Token) {shape : Shape}
    (h : shape.Forall p) :
    (brackets shape toks).1.Forall p := by
  fun_induction brackets shape toks with
  | case1 shape rest ih => exact ih h
  | case2 shape rest => exact h

section

variable {v : Reader Shape} (hv : Yields v (Shape.Forall Shape.IsWritable))
include hv

theorem yields_named (word : List Char) :
    Yields (named v word) (Shape.Forall Shape.IsWritable) := by
  have htruth : ∀ w ∈ truthWords, w ∉ nonFinite := by decide
  intro toks shape rest hread
  unfold named at hread
  split at hread
  · split at hread
    · obtain ⟨start, -, hread⟩ := Option.bind_eq_some_iff.1 hread
      obtain ⟨⟨values, after⟩, hvalues, hread⟩ := Option.bind_eq_some_iff.1 hread
      have hrecord : values.Forall Shape.IsWritable := hv _ _ _ hvalues
      obtain ⟨_, -, heq⟩ := Option.map_eq_some_iff.1 hread
      cases heq
      exact hrecord
    · cases hread
  · split at hread
    · next hpredefined =>
      cases hread
      exact forall_predefined? hpredefined
    · split at hread
      · next hword =>
        cases hread
        exact List.forall_mem_singleton.2 (htruth _ hword)
      · exact yields_typeName word _ _ _ hread

theorem yields_typeProperty :
    Yields (typeProperty v) fun q => q.2.2.Forall Shape.IsWritable := by
  intro toks q rest hread
  unfold typeProperty at hread
  split at hread
  · obtain ⟨name, -, hread⟩ := Option.bind_eq_some_iff.1 hread
    obtain ⟨⟨shape, after⟩, hshape, hread⟩ := Option.bind_eq_some_iff.1 hread
    cases hread
    exact hv _ _ _ hshape
  · obtain ⟨name, -, hread⟩ := Option.bind_eq_some_iff.1 hread
    obtain ⟨⟨shape, after⟩, hshape, hread⟩ := Option.bind_eq_some_iff.1 hread
    cases hread
    exact hv _ _ _ hshape
  · cases hread

theorem yields_primary (n : Nat) :
    Yields (primary v n) (Shape.Forall Shape.IsWritable) := by
  intro toks shape rest hread
  unfold primary at hread
  split at hread
  · obtain ⟨⟨inner, after⟩, hinner, hread⟩ := Option.bind_eq_some_iff.1 hread
    exact yields_fixed (hv _ _ _ hinner) _ _ _ _ hread
  · obtain ⟨⟨properties, after⟩, hproperties, hread⟩ := Option.bind_eq_some_iff.1 hread
    cases hread
    exact Shape.forallIn_iff.2 ((yields_typeProperty hv).sequence ';' '\x7d' n _ _ _ hproperties)
  · exact yields_named hv _ _ _ _ hread
  · obtain ⟨⟨text, after⟩, htext, hread⟩ := Option.map_eq_some_iff.1 hread
    cases hread
    exact List.forall_mem_singleton.2 (yields_literal _ _ _ htext)

theorem yields_alternative (n : Nat) :
    Yields (alternative v n) fun shape? => ∀ shape ∈ shape?, shape.Forall Shape.IsWritable := by
  intro toks shape? rest hread
  unfold alternative at hread
  split at hread
  · cases hread
    exact nofun
  · obtain ⟨⟨shape, after⟩, hshape, hread⟩ := Option.map_eq_some_iff.1 hread
    cases hread
    rintro _ ⟨⟩
    exact forall_brackets after (yields_primary hv n _ _ _ hshape)

end

theorem forall_joined? {shapes : List Shape} (h : ∀ shape ∈ shapes, shape.Forall Shape.IsWritable)
    {shape : Shape} (hjoined : joined? shapes = some shape) : shape.Forall Shape.IsWritable := by
  unfold joined? at hjoined
  split at hjoined
  · cases hjoined
  · cases hjoined
    exact h _ List.mem_cons_self
  · obtain ⟨texts, htexts, hjoined⟩ := Option.map_eq_some_iff.1 hjoined
    cases hjoined
    intro text htext
    obtain ⟨single, hsingle, htext⟩ := Contract.exists_of_mem_mapM htexts text htext
    have hwritable := h single hsingle
    unfold oneLiteral? at htext
    split at htext
    · cases htext
      exact hwritable _ List.mem_cons_self
    · cases htext

theorem forall_union? {parts : List (Option Shape)}
    (h : ∀ part ∈ parts, ∀ shape ∈ part, shape.Forall Shape.IsWritable) {shape : Shape}
    (hunion : union? parts = some shape) : shape.Forall Shape.IsWritable := by
  obtain ⟨joined, hjoined, rfl⟩ := Option.map_eq_some_iff.1 hunion
  refine (Shape.forall_orNullIf _ joined).2 (forall_joined? (fun shape hshape => ?_) hjoined)
  obtain ⟨part, hpart, rfl⟩ := List.mem_filterMap.1 hshape
  exact h _ hpart shape rfl

/-- Every type that is read can be written. -/
theorem yields_type (n : Nat) : Yields (type n) (Shape.Forall Shape.IsWritable) := by
  induction n with
  | zero => exact fun _ _ _ hread => nomatch hread
  | succ n ih =>
    intro toks shape rest hread
    obtain ⟨⟨parts, after⟩, hparts, hread⟩ := Option.bind_eq_some_iff.1 hread
    obtain ⟨whole, hwhole, hread⟩ := Option.bind_eq_some_iff.1 hread
    cases hread
    exact forall_union? ((yields_alternative ih n).alternatives _ _ _ _ hparts) hwhole

theorem forall_of_readType {text : List Char} {shape : Shape} (h : readType text = some shape) :
    shape.Forall Shape.IsWritable := by
  unfold readType at h
  dsimp only at h
  split at h
  · next htype =>
    cases h
    exact yields_type _ _ _ _ htype
  · cases h

end Grammar

namespace Schema

/-! ## Schemas that are read -/

theorem isFilled_enumeration (nullable : Bool) {values : List Value} (h : values ≠ []) :
    (enumeration nullable values).shape.Forall Shape.IsFilled := by
  rw [shape]
  split
  · next literals hmap =>
    rw [Shape.forall_orNullIf]
    rintro rfl
    cases values with
    | nil => exact h rfl
    | cons value values =>
      rw [List.mapM_cons, Option.bind_eq_bind, Option.bind_eq_some_iff] at hmap
      obtain ⟨first, -, hmap⟩ := hmap
      obtain ⟨others, -, hmap⟩ := Option.bind_eq_some_iff.1 hmap
      cases hmap
  · exact trivial

theorem isFilled_object (nullable : Bool) {properties : List (String × Schema)}
    (required : List String) {additional : Option Schema}
    (hproperties : ∀ p ∈ properties, p.2.shape.Forall Shape.IsFilled)
    (hadditional : ∀ schema ∈ additional, schema.shape.Forall Shape.IsFilled) :
    (object nullable properties required additional).shape.Forall Shape.IsFilled := by
  rw [shape, Shape.forall_orNullIf]
  split
  · cases additional with
    | none => exact trivial
    | some schema => exact hadditional schema rfl
  · rw [shapes_eq]
    exact Shape.forallIn_iff.2 (List.forall_mem_map.2 hproperties)

/-- A list of values without any is not read. -/
theorem isFilled_of_read {value : Value} {schema : Schema}
    (h : (read value).outcome = .ok schema) : schema.shape.Forall Shape.IsFilled := by
  have hsimple : ∀ (nullable : Bool) (shape : Shape), shape.Forall Shape.IsFilled →
      (shape.orNullIf nullable).Forall Shape.IsFilled :=
    fun nullable shape => (Shape.forall_orNullIf nullable shape).2
  refine read_induction (motive := fun schema => schema.shape.Forall Shape.IsFilled)
    (fun nullable format => ?_) (fun _ _ => hsimple _ _ trivial) (fun _ => hsimple _ _ trivial)
    (fun _ items => hsimple _ (.array items.shape))
    (fun nullable _ required _ => isFilled_object nullable required)
    (fun _ _ => hsimple _ _ trivial) (fun nullable _ => isFilled_enumeration nullable)
    (fun _ _ _ => trivial) (fun _ => trivial) h
  rw [shape, Shape.forall_orNullIf]
  split <;> exact trivial

end Schema

namespace Contract

/-- **Validator and type agree.** The validator of a schema that is read and has no line feed in its
names is read as the shape of the schema. Its type is read as what a type says of the same shape if
and only if all literals are finite and no name begins an operator of types. -/
theorem type_agrees_iff {value : Value} {schema : Schema}
    (hread : (Schema.read value).outcome = .ok schema)
    (hnames : ∀ name ∈ schema.names, '\n' ∉ name.toList) {space : List Char}
    (hspace : Grammar.IsSpace space) :
    Grammar.readValidator false (ofSchema space schema).validator = some schema.shape ∧
      (Grammar.readType (ofSchema space schema).type = some (schema.shape.inType space) ↔
        (schema.shape.inType space).Forall Shape.IsWritable) := by
  refine ⟨Grammar.readValidator_ofSchema space fun name hname => .inr (hnames name hname),
    Grammar.forall_of_readType, fun hwritable => ?_⟩
  have hfilled := Schema.isFilled_of_read hread
  exact (Grammar.readsType_atDepth hspace 1 schema hnames hfilled hwritable).readType

/-- Lists inside each other, with null and with texts that look like parts of a type. -/
theorem type_agrees_iff_nested :
    let choices : Value := .object [
      (.text "enum", .list [.text "a | b", .text "\"\x7b", .int (-1)]),
      (.text "nullable", .bool true)]
    let lists : Value := .object [(.text "type", .text "array"), (.text "items", choices),
      (.text "nullable", .bool true)]
    let value : Value := .object [(.text "properties", .object [
      (.text "rows", .object [(.text "type", .text "array"), (.text "items", lists)]),
      (.text "next row", .object [(.text "$ref", .text "#/components/schemas/Row")])]),
      (.text "required", .list [.text "rows"])]
    ∃ schema, (Schema.read value).outcome = .ok schema ∧
      (∀ name ∈ schema.names, '\n' ∉ name.toList) ∧ Grammar.IsSpace schemasSpace ∧
      Grammar.readValidator false (ofSchema schemasSpace schema).validator = some schema.shape ∧
      Grammar.readType (ofSchema schemasSpace schema).type =
        some (schema.shape.inType schemasSpace) ∧
      (ofSchema schemasSpace schema).type =
        ("\x7b\n  rows: ((\"a | b\" | \"\\\"\x7b\" | -1 | null)[] | null)[];\n" ++
          "  \"next row\"?: Schemas.Row;\n\x7d").toList := by
  intro choices lists value
  obtain ⟨schema, hread, hschema⟩ := exists_of_toOption_map
    (show (Schema.read value).outcome.toOption.map (fun schema =>
        (schema.names, decide ((schema.shape.inType schemasSpace).Forall Shape.IsWritable),
          (ofSchema schemasSpace schema).type)) = some (["rows", "next row", "Row"], true,
        ("\x7b\n  rows: ((\"a | b\" | \"\\\"\x7b\" | -1 | null)[] | null)[];\n" ++
          "  \"next row\"?: Schemas.Row;\n\x7d").toList) by decide +kernel)
  simp only [Prod.mk.injEq, decide_eq_true_eq] at hschema
  obtain ⟨hnames, hwritable, htype⟩ := hschema
  have hfeed : ∀ name ∈ schema.names, '\n' ∉ name.toList := by
    rw [hnames]
    decide
  obtain ⟨hvalidator, hiff⟩ := type_agrees_iff hread hfeed Grammar.isSpace_schemasSpace
  exact ⟨schema, hread, hfeed, Grammar.isSpace_schemasSpace, hvalidator, hiff.2 hwritable, htype⟩

/-- No type is read back where a literal is not finite. -/
theorem not_readType_infinite :
    let value : Value := .object [(.text "enum", .list [.float (.infinite true), .int 1])]
    ∃ schema, (Schema.read value).outcome = .ok schema ∧ schema.names = [] ∧
      Grammar.readValidator false (ofSchema [] schema).validator = some schema.shape ∧
      (ofSchema [] schema).type = "-Infinity | 1".toList ∧
      Grammar.readType (ofSchema [] schema).type = none := by
  intro value
  obtain ⟨schema, hread, hschema⟩ := exists_of_toOption_map
    (show (Schema.read value).outcome.toOption.map (fun schema =>
        (schema.names, (ofSchema [] schema).type)) = some ([], "-Infinity | 1".toList) by
      decide +kernel)
  obtain ⟨hnames, htype⟩ := Prod.mk.inj hschema
  have hfeed : ∀ name ∈ schema.names, false = true ∨ '\n' ∉ name.toList := by
    rw [hnames]
    exact List.forall_mem_nil _
  have hvalidator := Grammar.readValidator_ofSchema [] hfeed
  have hnone : Grammar.readType "-Infinity | 1".toList = none :=
    Option.not_isSome_iff_eq_none.1 (by decide +kernel)
  exact ⟨schema, hread, hnames, hvalidator, htype, htype ▸ hnone⟩

end Contract

end ApiContract
