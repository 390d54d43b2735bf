import ApiContract.Proofs.Contract.Reading

/-!
# The names that a contract refers to

A contract writes fewer references than its schema holds: compositions accept anything, and an
object with properties says nothing of its other properties. `Schema.written` lists those that are
written.

`Refers` ties the list to the two texts of a contract: the constants in the validator and the types
in the type are those of the listed names. Every way to build a contract keeps it.

Main facts: `written_subset` (what is written is a reference of the schema) and `refers_atDepth`.
-/

namespace ApiContract

namespace Schema

mutual

/-- The names to which the contract of a schema refers, in the order of writing. -/
def written : Schema → List String
  | array _ items => items.written
  | object _ properties _ additional =>
    if properties.isEmpty then writtenInOption additional else writtenInProperties properties
  | reference _ target => [target]
  | text _ _ | number _ _ | boolean _ | enumeration _ _ | composite _ _ _ | unknown _ => []

/-- The names to which the contracts of properties refer. -/
def writtenInProperties : List (String × Schema) → List String
  | [] => []
  | (_, schema) :: rest => schema.written ++ writtenInProperties rest

/-- The names to which the contract of an optional schema refers. -/
def writtenInOption : Option Schema → List String
  | none => []
  | some schema => schema.written

end

theorem writtenInProperties_eq (properties : List (String × Schema)) :
    writtenInProperties properties = properties.flatMap fun p => p.2.written := by
  induction properties with
  | nil => rfl
  | cons p ps ih => simp [writtenInProperties, ih]

mutual

/-- What a contract refers to, its schema refers to. -/
theorem written_subset : ∀ schema : Schema, schema.written ⊆ schema.references
  | array _ items => by
    rw [written, references_array]
    exact written_subset items
  | object _ properties _ additional => by
    rw [written, references]
    split
    · exact List.subset_append_of_subset_right _ (writtenInOption_subset additional)
    · exact List.subset_append_of_subset_left _ (writtenInProperties_subset properties)
  | reference _ _ => by rw [written, references]; exact List.Subset.refl _
  | text _ _ | number _ _ | boolean _ | enumeration _ _ | composite _ _ _ | unknown _ => by
    rw [written]
    exact List.nil_subset _

theorem writtenInProperties_subset : ∀ properties : List (String × Schema),
    writtenInProperties properties ⊆ referencesInProperties properties
  | [] => List.nil_subset _
  | (_, schema) :: rest => by
    rw [writtenInProperties, referencesInProperties]
    exact List.append_subset.2
      ⟨List.subset_append_of_subset_left _ (written_subset schema),
        List.subset_append_of_subset_right _ (writtenInProperties_subset rest)⟩

theorem writtenInOption_subset : ∀ schema : Option Schema,
    writtenInOption schema ⊆ referencesInOption schema
  | none => List.nil_subset _
  | some schema => by
    rw [writtenInOption, referencesInOption]
    exact written_subset schema

end

end Schema

namespace Contract

open Reading

/-- The constants and the types in the texts of a contract are those of `targets`. Types are only
told from other words inside their namespace. -/
structure Refers (space : List Char) (c : Contract) (targets : List String) : Prop where
  validator : constants.Gives c.validator
    (targets.map fun target => Identifier.validatorName target.toList)
  type : space = schemasSpace →
    aliases.Gives c.type (targets.map fun target => Identifier.typeAlias target.toList)

/-! ## Contracts without parts -/

/-- Where no quotation mark and no S stands there is no reference. -/
theorem refers_nil_of_quiet {space : List Char} {c : Contract} (hv : c.validator.all isQuiet)
    (ht : c.type.all isQuiet) : c.Refers space [] where
  validator := .of_quiet hv
  type _ := .of_quiet ht

theorem refers_permissive {space : List Char} : permissive.Refers space [] :=
  refers_nil_of_quiet (by decide) (by decide)

theorem refers_void {space : List Char} : void.Refers space [] :=
  refers_nil_of_quiet (by decide) (by decide)

theorem refers_text {space : List Char} (format : Option String) :
    (text format).Refers space [] := by
  unfold text
  split
  · exact refers_nil_of_quiet (by decide) (by decide)
  · exact refers_nil_of_quiet (by decide) (by decide)

theorem refers_number {space : List Char} (integer : Bool) : (number integer).Refers space [] := by
  cases integer with
  | false => exact refers_nil_of_quiet (by decide) (by decide)
  | true => exact refers_nil_of_quiet (by decide) (by decide)

theorem refers_boolean {space : List Char} : boolean.Refers space [] :=
  refers_nil_of_quiet (by decide) (by decide)

theorem gives_validatorName (target : String) :
    constants.Gives (Identifier.validatorName target.toList)
      [Identifier.validatorName target.toList] := by
  have hgiven := Identifier.isGiven_of_mem_validatorName target.toList
  have hsuffix : "Schema".toList <:+ Identifier.validatorName target.toList := by
    rw [Identifier.validatorName]
    exact List.suffix_append _ _
  exact Gives.of_name (fun c hc => inWord_of_isGiven (hgiven c hc)) (constants_name? hsuffix)

theorem gives_typeAlias (target : String) :
    aliases.Gives (schemasSpace ++ Identifier.typeAlias target.toList)
      [Identifier.typeAlias target.toList] := by
  have hgiven := Identifier.isGiven_of_mem_typeAlias target.toList
  have hword : ∀ c ∈ schemasSpace ++ Identifier.typeAlias target.toList, aliases.inWord c :=
    List.forall_mem_append.2
      ⟨List.all_eq_true.1 rfl, fun c hc => inWord_of_isGiven (hgiven c hc)⟩
  exact Gives.of_name hword (aliases_name? _)

theorem refers_reference {space : List Char} (target : String) :
    (reference space target).Refers space [target] where
  validator := gives_validatorName target
  type hspace := by
    subst hspace
    exact gives_typeAlias target

theorem exists_of_mem_mapM {α β : Type} {f : α → Option β} {as : List α} {bs : List β}
    (h : as.mapM f = some bs) : ∀ b ∈ bs, ∃ a ∈ as, f a = some b := by
  induction as generalizing bs with
  | nil =>
    cases h
    exact List.forall_mem_nil _
  | cons a as ih =>
    rw [List.mapM_cons, Option.bind_eq_bind, Option.bind_eq_some_iff] at h
    obtain ⟨first, hfirst, h⟩ := h
    obtain ⟨others, hothers, h⟩ := Option.bind_eq_some_iff.1 h
    cases h
    refine List.forall_mem_cons.2 ⟨⟨a, List.mem_cons_self, hfirst⟩, fun b hb => ?_⟩
    obtain ⟨c, hc, hfc⟩ := ih hothers b hb
    exact ⟨c, List.mem_cons_of_mem a hc, hfc⟩

theorem gives_literalValidator {literal : List Char} (h : constants.Gives literal []) :
    constants.Gives (literalValidator literal) [] :=
  Gives.quiet_append "z.literal".toList '(' (by decide) (by decide)
    (Gives.concat (show constants.separates ')' by decide) h)

/-- Literals separated by commas, between brackets in parentheses. -/
theorem gives_bracketed (head : List Char) {literals : List (List Char)}
    (hhead : head.all isQuiet) (h : ∀ literal ∈ literals, constants.Gives literal []) :
    constants.Gives (head ++ "([".toList ++ Text.join [',', ' '] literals ++ "])".toList) [] := by
  have hlist : constants.Gives (Text.join [',', ' '] literals) [] :=
    Gives.join (by decide) (by decide) h
  have hinner : constants.Gives (Text.join [',', ' '] literals ++ [']'] ++ [')']) [] :=
    Gives.concat (by decide) (Gives.concat (by decide) hlist)
  have := Gives.quiet_append head '(' hhead (by decide)
    (Gives.cons (show constants.separates '[' by decide) hinner)
  simpa using this

theorem refers_enumeration {space : List Char} {values : List Value} {c : Contract}
    (h : enumeration? values = some c) : c.Refers space [] := by
  obtain ⟨literals, hmap, h⟩ := Option.bind_eq_some_iff.1 h
  cases h
  have hgives {r : Reading} : ∀ literal ∈ literals, r.Gives literal [] := fun literal hl =>
    let ⟨_, _, hvalue⟩ := exists_of_mem_mapM hmap literal hl
    Gives.of_literal hvalue
  refine ⟨?_, fun _ => Gives.join (by decide) (by decide) hgives⟩
  dsimp only
  split
  · exact gives_bracketed "z.enum".toList (by decide) hgives
  · split
    · exact gives_literalValidator (hgives _ List.mem_cons_self)
    · refine gives_bracketed "z.union".toList (by decide) fun text htext => ?_
      obtain ⟨literal, hl, rfl⟩ := List.mem_map.1 htext
      exact gives_literalValidator (hgives literal hl)

/-! ## Contracts of contracts -/

namespace Refers

variable {space : List Char} {c : Contract} {targets : List String}

theorem orNull (h : c.Refers space targets) (nullable : Bool) :
    (c.orNull nullable).Refers space targets := by
  cases nullable with
  | false => exact h
  | true =>
    constructor
    · exact Gives.append_quiet '.' "nullable()".toList (by decide) (by decide) h.validator
    · intro hspace
      exact Gives.append_quiet ' ' "| null".toList (by decide) (by decide) (h.type hspace)

theorem array (h : c.Refers space targets) : c.array.Refers space targets where
  validator :=
    Gives.quiet_append "z.array".toList '(' (by decide) (by decide)
      (Gives.concat (show constants.separates ')' by decide) h.validator)
  type hspace := by
    have brackets {t : List Char} {names : List (List Char)} (ht : aliases.Gives t names) :
        aliases.Gives (t ++ ['[', ']']) names := by
      have := Gives.concat (show aliases.separates ']' by decide)
        (Gives.concat (show aliases.separates '[' by decide) ht)
      rwa [List.append_assoc] at this
    refine brackets ?_
    split
    · exact Gives.cons (by decide) (Gives.concat (by decide) (h.type hspace))
    · exact h.type hspace

theorem record (h : c.Refers space targets) : c.record.Refers space targets where
  validator :=
    Gives.quiet_append "z.record(z.string(),".toList ' ' (by decide) (by decide)
      (Gives.concat (show constants.separates ')' by decide) h.validator)
  type hspace :=
    Gives.quiet_append "Record<string,".toList ' ' (by decide) (by decide)
      (Gives.concat (show aliases.separates '>' by decide) (h.type hspace))

end Refers

/-! ## Objects -/

/-- The key of a property with its colon is no constant, whatever it ends in. -/
theorem gives_key (name : List Char) :
    constants.Gives (Identifier.propertyKey name ++ [':']) [] := by
  unfold Identifier.propertyKey
  split
  · next h =>
    have hgiven := Identifier.isGiven_of_isAccepted h
    have hword : ∀ c ∈ name ++ [':'], constants.inWord c :=
      List.forall_mem_append.2
        ⟨fun c hc => inWord_of_isGiven (hgiven c hc), List.all_eq_true.1 rfl⟩
    refine Gives.of_other hword (if_neg fun hs => ?_)
    obtain ⟨front, hfront⟩ := List.isSuffixOf_iff_suffix.1 hs
    have := congrArg List.getLast? hfront
    simp at this
  · exact Gives.literal_append name (.of_quiet (by decide))

/-- The key of a property has no point, so there is no namespace in it. -/
theorem gives_typeKey (name : List Char) : aliases.Gives (Identifier.propertyKey name) [] := by
  unfold Identifier.propertyKey
  split
  · next h =>
    have hgiven := Identifier.isGiven_of_isAccepted h
    refine Gives.of_other (fun c hc => inWord_of_isGiven (hgiven c hc)) ?_
    cases hn : aliases.name? name with
    | none => rfl
    | some rest =>
      obtain ⟨front, rfl, hfront⟩ := List.dropPrefix?_eq_some_iff.1 hn
      rw [eq_of_beq hfront] at hgiven
      exact absurd (hgiven '.' (List.mem_append_left _ (by decide))) (by decide)
  · exact Gives.literal name

/-- The line of a property in a validator, without the blank before it and the comma after it. -/
def validatorLine (depth : Nat) (required : List String) (name : String) (c : Contract) :
    List Char :=
  ' ' :: indent depth ++ (Identifier.propertyKey name.toList ++ [':']) ++
    ' ' :: (c.validator ++ if name ∈ required then [] else ".optional()".toList)

/-- The line of a property in a type, without the blank before it and the semicolon after it. -/
def typeLine (depth : Nat) (required : List String) (name : String) (c : Contract) : List Char :=
  ' ' :: indent depth ++ Identifier.propertyKey name.toList ++
    (if name ∈ required then [] else ['?']) ++ ':' :: ' ' :: c.type

/-- At a depth other than zero the lines of a property begin with a blank. -/
theorem property_succ (depth : Nat) (required : List String) (name : String) (c : Contract) :
    property (depth + 1) required name c =
      (' ' :: validatorLine depth required name c ++ [','],
        ' ' :: typeLine depth required name c ++ [';']) := by
  have hindent : indent (depth + 1) = ' ' :: ' ' :: indent depth := rfl
  unfold property validatorLine typeLine
  rw [hindent]
  split <;> simp

theorem all_separates_indent (r : Reading) (depth : Nat) :
    (indent depth).all r.separates := by
  rw [List.all_eq_true]
  intro c hc
  rw [List.eq_of_mem_replicate hc]
  exact r.separates_blank

theorem gives_validatorLine {depth : Nat} {required : List String} {name : String} {c : Contract}
    {names : List (List Char)} (h : constants.Gives c.validator names) :
    constants.Gives (validatorLine depth required name c) names := by
  have hkey : constants.Gives
      (' ' :: indent depth ++ (Identifier.propertyKey name.toList ++ [':'])) [] :=
    Gives.cons (by decide)
      (Gives.separators (all_separates_indent _ depth) (gives_key name.toList))
  refine Gives.append_cons (by decide) hkey ?_
  split
  · rwa [List.append_nil]
  · exact Gives.append_quiet '.' "optional()".toList (by decide) (by decide) h

theorem gives_typeLine {depth : Nat} {required : List String} {name : String} {c : Contract}
    {names : List (List Char)} (h : aliases.Gives c.type names) :
    aliases.Gives (typeLine depth required name c) names := by
  have hkey : aliases.Gives (' ' :: indent depth ++ Identifier.propertyKey name.toList) [] :=
    Gives.cons (by decide)
      (Gives.separators (all_separates_indent _ depth) (gives_typeKey name.toList))
  have hmark : aliases.Gives (' ' :: indent depth ++ Identifier.propertyKey name.toList ++
      if name ∈ required then [] else ['?']) [] := by
    split
    · rwa [List.append_nil]
    · exact Gives.concat (by decide) hkey
  exact Gives.append_cons (by decide) hmark (Gives.cons (by decide) h)

/-- An object, with a line feed before each of its lines. -/
theorem object_succ {α : Type} (depth : Nat) (required : List String) (items : List α)
    (named : α → String × Contract) :
    object (depth + 1) required (items.map named) =
      ⟨"z.object(".toList ++ '\x7b' :: ('\n' :: Text.join ['\n'] (items.map fun a =>
          ' ' :: validatorLine depth required (named a).1 (named a).2 ++ [',']) ++
            ('\n' :: indent depth ++ ['\x7d', ')'])),
        '\x7b' :: ('\n' :: Text.join ['\n'] (items.map fun a =>
          ' ' :: typeLine depth required (named a).1 (named a).2 ++ [';']) ++
            ('\n' :: indent depth ++ ['\x7d']))⟩ := by
  have hlines : (items.map named).map
      (fun p => property (depth + 1) required p.1 p.2) = items.map fun a =>
        (' ' :: validatorLine depth required (named a).1 (named a).2 ++ [','],
          ' ' :: typeLine depth required (named a).1 (named a).2 ++ [';']) := by
    rw [List.map_map]
    exact List.map_congr_left fun a _ => property_succ depth required (named a).1 (named a).2
  unfold object
  rw [hlines]
  dsimp only
  rw [List.map_map, List.map_map]
  simp only [List.append_assoc]
  rfl

theorem refers_object {α : Type} {space : List Char} {depth : Nat} {required : List String}
    {items : List α} (hne : items ≠ []) {named : α → String × Contract}
    {targets : α → List String} (h : ∀ a ∈ items, (named a).2.Refers space (targets a)) :
    (object (depth + 1) required (items.map named)).Refers space (items.flatMap targets) := by
  have hend (ends : List Char) (hends : ends.all isQuiet) :
      ('\n' :: indent depth ++ ends).all isQuiet := by
    rw [List.all_append, Bool.and_eq_true, List.all_eq_true]
    exact ⟨List.forall_mem_cons.2 ⟨rfl, isQuiet_of_mem_replicate rfl _⟩, hends⟩
  constructor
  · rw [object_succ, List.map_flatMap]
    refine Gives.quiet_append "z.object(".toList '\x7b' (by decide) (by decide) ?_
    have := Gives.lines (show constants.separates ',' by decide) hne
      (fun a ha => @gives_validatorLine depth required (named a).1 _ _ (h a ha).validator)
      (.of_quiet (hend ['\x7d', ')'] rfl))
    rwa [List.append_nil] at this
  · intro hspace
    rw [object_succ, List.map_flatMap]
    refine Gives.cons (by decide) ?_
    have := Gives.lines (show aliases.separates ';' by decide) hne
      (fun a ha => @gives_typeLine depth required (named a).1 _ _ ((h a ha).type hspace))
      (.of_quiet (hend ['\x7d'] rfl))
    rwa [List.append_nil] at this

/-! ## Contracts of schemas -/

theorem ofProperties_eq (space : List Char) (depth : Nat) (properties : List (String × Schema)) :
    ofProperties space depth properties =
      properties.map fun p => (p.1, atDepth space depth p.2) := by
  induction properties with
  | nil => rfl
  | cons p ps ih =>
    rw [ofProperties, ih]
    rfl

mutual

/-- **What a contract refers to**: the constants in its validator, and the types in its type, are
those of the names that its schema writes. -/
theorem refers_atDepth {space : List Char} (depth : Nat) :
    ∀ schema : Schema, (atDepth space (depth + 1) schema).Refers space schema.written
  | .text nullable format => (refers_text format).orNull nullable
  | .number nullable integer => (refers_number integer).orNull nullable
  | .boolean nullable => refers_boolean.orNull nullable
  | .array nullable items => by
    rw [atDepth, Schema.written]
    exact (refers_atDepth depth items).array.orNull nullable
  | .object nullable properties required additional => by
    rw [atDepth, Schema.written]
    refine Refers.orNull ?_ nullable
    split
    · exact (refers_ofOption depth additional).record
    · next hne =>
      rw [ofProperties_eq, Schema.writtenInProperties_eq]
      exact refers_object (by simpa using hne) (refers_ofProperties (depth + 1) properties)
  | .reference nullable target => (refers_reference target).orNull nullable
  | .enumeration nullable values => by
    rw [atDepth, Schema.written]
    split
    · next c hc => exact (refers_enumeration hc).orNull nullable
    · exact refers_permissive
  | .composite _ _ _ => refers_permissive
  | .unknown _ => refers_permissive

theorem refers_ofOption {space : List Char} (depth : Nat) : ∀ schema : Option Schema,
    (ofOption space (depth + 1) schema).Refers space (Schema.writtenInOption schema)
  | none => refers_permissive
  | some schema => refers_atDepth depth schema

theorem refers_ofProperties {space : List Char} (depth : Nat) :
    ∀ properties : List (String × Schema), ∀ p ∈ properties,
      (atDepth space (depth + 1) p.2).Refers space p.2.written
  | [] => List.forall_mem_nil _
  | (_, schema) :: rest =>
    List.forall_mem_cons.2 ⟨refers_atDepth depth schema, refers_ofProperties depth rest⟩

end

theorem refers_ofSchema {space : List Char} (schema : Schema) :
    (ofSchema space schema).Refers space schema.written :=
  refers_atDepth 0 schema

end Contract

end ApiContract
