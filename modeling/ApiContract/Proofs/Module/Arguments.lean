import ApiContract.Module.Endpoints
import ApiContract.Proofs.Identifier.Repair
import ApiContract.Proofs.Operation.Basic

/-!
# The arguments of a function

A function has an argument for each placeholder of its path, and up to three of its own. The latter
differ from each other and from all the others, for a placeholder of such a name is marked. Two
placeholders can share an argument, and nothing keeps one from being called `apiClient`, as the
client is that the function calls.

In code an argument ends before the line feed that its text may hold. Arguments that differ as texts
may then still be one, and a line feed even keeps a placeholder from being marked.

Main facts: `names_arguments` (the names that are written, in order), `declared_arguments` (those
that they declare) and `arguments_distinct_iff`.
-/

namespace ApiContract

namespace Identifier

theorem declared_argument_line (name : List Char) (h : isName name) :
    declared (argument (name ++ ['\n'])) = name := by
  rw [argument_of_endsLine ⟨name, h, rfl⟩, declared_append_line h]

theorem isName_of_mem_ownArguments {name : List Char} (h : String.ofList name ∈ ownArguments) :
    isName name := by
  have hnames : ∀ word ∈ ownArguments, isName word.toList := by decide
  rw [← String.toList_ofList (l := name)]
  exact hnames _ h

/-- Only a line feed makes a placeholder declare an argument that functions declare themselves. -/
theorem declared_argument_eq_own_iff {text own : List Char}
    (hown : String.ofList own ∈ ownArguments) :
    declared (argument text) = own ↔ text = own ++ ['\n'] := by
  have hname := isName_of_mem_ownArguments hown
  by_cases h : EndsLine text
  · obtain ⟨name, hn, rfl⟩ := h
    rw [declared_argument_line name hn, List.append_left_inj]
  · rw [declared_of_isName ((isName_argument_iff text).2 h)]
    refine iff_of_false ?_ fun heq => h ⟨own, hname, heq⟩
    rintro rfl
    exact argument_not_mem_ownArguments text hown

theorem declared_argument_eq_apiClient_iff {text : List Char} :
    declared (argument text) = "apiClient".toList ↔
      declared (spelling text) = "apiClient".toList := by
  by_cases h : EndsLine text
  · rw [argument_of_endsLine h, spelling_of_isAccepted (isAccepted_iff.2 (.inr h))]
  · rw [declared_of_isName ((isName_argument_iff text).2 h), declared_of_isName (isName_spelling h)]
    exact argument_eq_apiClient_iff

end Identifier

namespace Module

open Identifier

/-- The arguments that a function declares itself. -/
def ownNames (operation : Operation) : List (List Char) :=
  (if operation.queryParams = [] then [] else ["params".toList]) ++
    (if operation.requestBodyType.isSome then ["body".toList] else []) ++ ["options".toList]

theorem names_arguments (operation : Operation) :
    (arguments operation).map Argument.name =
      operation.pathParams.map (fun name => argument name.toList) ++ ownNames operation := by
  unfold arguments ownNames
  split <;> cases operation.requestBodyType <;> simp [Function.comp_def]

theorem ownNames_sublist (operation : Operation) :
    (ownNames operation).Sublist (ownArguments.map String.toList) := by
  unfold ownNames
  cases operation.requestBodyType.isSome <;> split <;> decide

theorem nodup_ownNames (operation : Operation) : (ownNames operation).Nodup :=
  (ownNames_sublist operation).nodup (by decide)

theorem mem_ownArguments_of_mem_ownNames {operation : Operation} {name : List Char}
    (h : name ∈ ownNames operation) : String.ofList name ∈ ownArguments := by
  obtain ⟨word, hword, rfl⟩ := List.mem_map.1 ((ownNames_sublist operation).subset h)
  rwa [String.ofList_toList]

/-- The arguments of placeholders differ when none fall together. -/
theorem nodup_arguments_iff {names : List String} (h : names.Nodup) :
    (names.map fun name => argument name.toList).Nodup ↔
      ∀ a ∈ names, ∀ b ∈ names, a ≠ b → ¬ FallTogether a.toList b.toList := by
  rw [List.nodup_map_iff_inj_on h]
  constructor
  · intro hinj a ha b hb hne htogether
    exact hne (hinj a ha b hb (argument_eq_iff.2 htogether))
  · intro hapart a ha b hb heq
    apply Classical.byContradiction
    intro hne
    exact hapart a ha b hb hne (argument_eq_iff.1 heq)

/-- The arguments differ when those of the placeholders do. -/
theorem nodup_names_iff {operation : Operation} (h : operation.pathParams.Nodup) :
    ((arguments operation).map Argument.name).Nodup ↔
      ∀ a ∈ operation.pathParams, ∀ b ∈ operation.pathParams, a ≠ b →
        ¬ FallTogether a.toList b.toList := by
  have hdisjoint : ∀ name ∈ operation.pathParams.map (fun name => argument name.toList),
      ∀ other ∈ ownNames operation, name ≠ other := by
    intro name hname other hother heq
    obtain ⟨text, -, rfl⟩ := List.mem_map.1 hname
    exact argument_not_mem_ownArguments text.toList
      (heq ▸ mem_ownArguments_of_mem_ownNames hother)
  rw [names_arguments, List.nodup_append, ← nodup_arguments_iff h]
  exact ⟨And.left, fun hgiven => ⟨hgiven, nodup_ownNames operation, hdisjoint⟩⟩

theorem apiClient_not_mem_ownNames (operation : Operation) :
    "apiClient".toList ∉ ownNames operation := fun h =>
  absurd (mem_ownArguments_of_mem_ownNames h) (by decide)

/-- Only the arguments of placeholders can be the client. -/
theorem apiClient_not_mem_append_iff {operation : Operation} {given spelled : String → List Char}
    (hgiven : ∀ name, given name = "apiClient".toList ↔ spelled name = "apiClient".toList) :
    "apiClient".toList ∉ operation.pathParams.map given ++ ownNames operation ↔
      ∀ name ∈ operation.pathParams, spelled name ≠ "apiClient".toList := by
  rw [List.mem_append, not_or, and_iff_left (apiClient_not_mem_ownNames _), List.mem_map]
  constructor
  · intro h name hname hspelled
    exact h ⟨name, hname, (hgiven name).2 hspelled⟩
  · rintro h ⟨name, hname, heq⟩
    exact h name hname ((hgiven name).1 heq)

theorem apiClient_not_mem_iff {operation : Operation} :
    "apiClient".toList ∉ (arguments operation).map Argument.name ↔
      ∀ name ∈ operation.pathParams, spelling name.toList ≠ "apiClient".toList := by
  rw [names_arguments]
  exact apiClient_not_mem_append_iff fun _ => argument_eq_apiClient_iff

/-! ## Declared arguments -/

theorem declared_arguments (operation : Operation) :
    (arguments operation).map (fun a => declared a.name) =
      operation.pathParams.map (fun name => declared (argument name.toList)) ++
        ownNames operation := by
  have hown : (ownNames operation).map declared = ownNames operation := by
    refine (List.map_congr_left fun name hname => ?_).trans (List.map_id _)
    exact declared_of_isName (isName_of_mem_ownArguments (mem_ownArguments_of_mem_ownNames hname))
  have hnames := congrArg (List.map declared) (names_arguments operation)
  rw [List.map_map, List.map_append, List.map_map, hown] at hnames
  simpa only [Function.comp_def] using hnames

/-- In code no two arguments of a function are one: no two placeholders fall together, none is the
argument of another one with a line feed, and none is an argument of the function itself with
one. -/
structure Separate (operation : Operation) : Prop where
  apart : ∀ a ∈ operation.pathParams, ∀ b ∈ operation.pathParams, a ≠ b →
    ¬ FallTogether a.toList b.toList
  lines : LinesApart argument operation.pathParams
  own : ∀ name ∈ operation.pathParams, ∀ own ∈ ownNames operation, name.toList ≠ own ++ ['\n']

theorem nodup_declared_arguments_iff {operation : Operation} (h : operation.pathParams.Nodup) :
    ((arguments operation).map fun a => declared a.name).Nodup ↔ Separate operation := by
  have hown : ∀ name ∈ operation.pathParams, ∀ own ∈ ownNames operation,
      declared (argument name.toList) = own ↔ name.toList = own ++ ['\n'] :=
    fun name _ own hmem => declared_argument_eq_own_iff (mem_ownArguments_of_mem_ownNames hmem)
  rw [declared_arguments, List.nodup_append, and_iff_right (nodup_ownNames operation)]
  constructor
  · rintro ⟨hdeclared, hdisjoint⟩
    have hgiven : (operation.pathParams.map fun name => argument name.toList).Nodup := by
      refine List.Nodup.of_map declared ?_
      simpa only [List.map_map, Function.comp_def] using hdeclared
    refine ⟨?_, (nodup_declared_iff isName_argument_iff declared_argument_line hgiven).1 hdeclared,
      fun name hname own hmem heq => ?_⟩
    · exact (nodup_arguments_iff h).1 hgiven
    · exact hdisjoint _ (List.mem_map_of_mem hname) own hmem ((hown name hname own hmem).2 heq)
  · intro hseparate
    have hgiven := (nodup_arguments_iff h).2 hseparate.apart
    refine ⟨(nodup_declared_iff isName_argument_iff declared_argument_line hgiven).2
      hseparate.lines, fun text htext own hmem heq => ?_⟩
    obtain ⟨name, hname, rfl⟩ := List.mem_map.1 htext
    exact hseparate.own name hname own hmem ((hown name hname own hmem).1 heq)

theorem apiClient_not_mem_declared_iff {operation : Operation} :
    "apiClient".toList ∉ (arguments operation).map (fun a => declared a.name) ↔
      ∀ name ∈ operation.pathParams, declared (spelling name.toList) ≠ "apiClient".toList := by
  rw [declared_arguments]
  exact apiClient_not_mem_append_iff fun _ => declared_argument_eq_apiClient_iff

/-- **The arguments of a function**: whatever an operation is read from, the arguments of its
function differ from each other and from the client exactly when no two of its placeholders fall
together and none is spelled as the client is. In code they do so exactly when moreover no line feed
at the end of a placeholder makes it an argument that is there already, or the client. -/
theorem arguments_distinct_iff {around : Operation.Surroundings} {path : String} {method : Method}
    {fields : Fields} {operation : Operation}
    (h : (Operation.read around path method fields).outcome = .ok operation) :
    ((((arguments operation).map Argument.name).Nodup ∧
        "apiClient".toList ∉ (arguments operation).map Argument.name) ↔
      (∀ a ∈ operation.pathParams, ∀ b ∈ operation.pathParams, a ≠ b →
        ¬ FallTogether a.toList b.toList) ∧
      ∀ name ∈ operation.pathParams, spelling name.toList ≠ "apiClient".toList) ∧
    ((((arguments operation).map fun a => declared a.name).Nodup ∧
        "apiClient".toList ∉ (arguments operation).map fun a => declared a.name) ↔
      Separate operation ∧
      ∀ name ∈ operation.pathParams, declared (spelling name.toList) ≠ "apiClient".toList) := by
  obtain ⟨parameters, hparams⟩ := (Operation.readFrom_of_ok h).pathParams_eq
  have hnodup : operation.pathParams.Nodup := by
    rw [hparams]
    exact Operation.nodup_pathNames parameters _
  constructor
  · rw [nodup_names_iff hnodup, apiClient_not_mem_iff]
  · rw [nodup_declared_arguments_iff hnodup, apiClient_not_mem_declared_iff]

/-- Nothing around an operation. -/
def bare : Operation.Surroundings :=
  ⟨[], .object [], [], Contract.schemasSpace⟩

/-- Placeholders that are all marked or have their words joined, and one that ends a line. -/
theorem arguments_distinct_iff_marked : ∃ operation,
    (Operation.read bare "/\x7bbody\x7d/\x7bclass\x7d/\x7bpet-id\x7d/\x7bpage\n\x7d" .post
      []).outcome = .ok operation ∧
    operation.pathParams = ["body", "class", "pet-id", "page\n"] ∧
    (((arguments operation).map Argument.name).Nodup ∧
      "apiClient".toList ∉ (arguments operation).map Argument.name) ∧
    ((arguments operation).map fun a => declared a.name).Nodup ∧
      "apiClient".toList ∉ (arguments operation).map fun a => declared a.name := by
  have hparams : (Operation.read bare "/\x7bbody\x7d/\x7bclass\x7d/\x7bpet-id\x7d/\x7bpage\n\x7d"
      .post []).outcome.toOption.map Operation.pathParams =
      some ["body", "class", "pet-id", "page\n"] := by
    decide +kernel
  obtain ⟨operation, h, hparams⟩ := exists_of_toOption_map hparams
  have hapart : ∀ a ∈ operation.pathParams, ∀ b ∈ operation.pathParams, a ≠ b →
      ¬ FallTogether a.toList b.toList := by
    rw [hparams]
    decide +kernel
  have hfree : ∀ name ∈ operation.pathParams, spelling name.toList ≠ "apiClient".toList ∧
      declared (spelling name.toList) ≠ "apiClient".toList := by
    rw [hparams]
    decide +kernel
  have hlines : LinesApart argument operation.pathParams := by
    rw [hparams]
    have hnone : ∀ a ∈ ["body", "class", "pet-id", "page\n"],
        ∀ b ∈ ["body", "class", "pet-id", "page\n"],
          b.toList ≠ argument a.toList ++ ['\n'] := by decide +kernel
    exact fun a ha b hb _ => hnone a ha b hb
  have hown : ∀ name ∈ operation.pathParams, ∀ own ∈ ownNames operation,
      name.toList ≠ own ++ ['\n'] := by
    intro name hname own hmem
    have hnone : ∀ name ∈ ["body", "class", "pet-id", "page\n"], ∀ own ∈ ownArguments,
        name.toList ≠ own.toList ++ ['\n'] := by decide +kernel
    rw [hparams] at hname
    rw [← String.toList_ofList (l := own)]
    exact hnone name hname _ (mem_ownArguments_of_mem_ownNames hmem)
  obtain ⟨htexts, hdeclared⟩ := arguments_distinct_iff h
  exact ⟨operation, h, hparams, htexts.2 ⟨hapart, fun name hname => (hfree name hname).1⟩,
    hdeclared.2 ⟨⟨hapart, hlines, hown⟩, fun name hname => (hfree name hname).2⟩⟩

/-- Two placeholders share an argument, and a third hides the client; and two that differ in a line
feed share one in code only. -/
theorem arguments_shared : (∃ operation,
    (Operation.read bare "/\x7bpet-id\x7d/\x7bpetId\x7d/\x7bapiClient\x7d" .get []).outcome =
      .ok operation ∧
    (arguments operation).map Argument.name =
      ["petId".toList, "petId".toList, "apiClient".toList, "options".toList] ∧
    ¬ ((arguments operation).map Argument.name).Nodup ∧
    "apiClient".toList ∈ (arguments operation).map Argument.name) ∧
  ∃ operation,
    (Operation.read bare "/\x7bid\x7d/\x7bid\n\x7d" .get []).outcome = .ok operation ∧
    ((arguments operation).map Argument.name).Nodup ∧
    (arguments operation).map (fun a => declared a.name) =
      ["id".toList, "id".toList, "options".toList] := by
  have hnames : (Operation.read bare "/\x7bpet-id\x7d/\x7bpetId\x7d/\x7bapiClient\x7d" .get
      []).outcome.toOption.map (fun operation => (arguments operation).map Argument.name) =
      some ["petId".toList, "petId".toList, "apiClient".toList, "options".toList] := by
    decide +kernel
  have hlines : (Operation.read bare "/\x7bid\x7d/\x7bid\n\x7d" .get []).outcome.toOption.map
      (fun operation => (arguments operation).map Argument.name) =
      some ["id".toList, "id\n".toList, "options".toList] := by
    decide +kernel
  obtain ⟨operation, h, hnames⟩ := exists_of_toOption_map hnames
  obtain ⟨other, hother, hlines⟩ := exists_of_toOption_map hlines
  refine ⟨⟨operation, h, hnames, ?_⟩, other, hother, ?_⟩
  · rw [hnames]
    exact ⟨by decide, by decide⟩
  · have hdeclared := congrArg (List.map declared) hlines
    rw [List.map_map] at hdeclared
    exact ⟨by rw [hlines]; decide, hdeclared⟩

end Module

end ApiContract
