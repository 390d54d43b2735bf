import ApiContract.Proofs.Module.Arguments
import ApiContract.Proofs.Path.Template

/-!
# A function is closed

The address that a function requests, the arguments that it declares and the call in its body are
written from different parts of an operation. They fit together: what the body uses is declared, and
what is declared is used.

`function_eq` says where in the text of a function each part stands. What the body does is read off
that text: the lines that add the query parameters stand first in it, and a call that passes the
body ends as `callEnd` does.

Main facts: `function_eq`, `passesBody_iff`, `mergesParams_iff` and `isClosed_of_read`.
-/

namespace ApiContract.Module

open Identifier

/-! ## The parts of a function -/

/-- The first line of a function. -/
def signature (operation : Operation) : List Char :=
  "export async function ".toList ++ operation.identifier.toList ++ ['('] ++
    Text.join ", ".toList ((arguments operation).map Argument.text) ++
    "): Promise<ApiResponse<".toList ++ operation.responseType.toList ++ ">> \x7b\n".toList

/-- What begins the call of the client. -/
def callStart : List Char := "  return apiClient.".toList

/-- The end of a function whose call passes these arguments after the address. -/
def callEnd (passed : List String) : List Char :=
  '\x60' :: passed.flatMap (fun name => ", ".toList ++ name.toList) ++ ");\n\x7d\n".toList

/-- The arguments that the call passes after the address. -/
def passed (operation : Operation) : List String :=
  if operation.requestBodyType.isSome then ["body", "options"] else ["options"]

/-- The call of the client, to the end of the function. -/
def call (operation : Operation) : List Char :=
  callStart ++ operation.method.clientName.toList ++ ['<'] ++ operation.responseType.toList ++
    ">(\x60".toList ++ operation.urlTemplate.toList ++ callEnd (passed operation)

/-- The body of a function. -/
def body (operation : Operation) : List Char :=
  (if operation.queryParams = [] then [] else queryLines) ++ call operation

theorem function_eq (operation : Operation) :
    function operation =
      '\n' :: (comment operation ++ (signature operation ++ body operation)) := by
  have hend : callEnd (passed operation) =
      '\x60' :: ((if operation.requestBodyType.isSome then ", body".toList else []) ++
        ", options);\n\x7d\n".toList) := by
    unfold passed
    cases operation.requestBodyType.isSome
    · decide +kernel
    · decide +kernel
  rw [body, call, hend]
  unfold function signature callStart
  simp only [List.append_assoc, List.cons_append, List.nil_append]

/-! ## What the body does -/

/-- The call of the client passes the body. -/
def PassesBody (operation : Operation) : Prop :=
  callEnd ["body", "options"] <:+ function operation

/-- The body of the function begins with the lines that add the query parameters to the options. -/
def MergesParams (operation : Operation) : Prop :=
  ∃ statements, function operation =
    '\n' :: (comment operation ++ (signature operation ++ statements)) ∧
    queryLines <+: statements

theorem callEnd_suffix (operation : Operation) :
    callEnd (passed operation) <:+ function operation := by
  rw [function_eq, body, call]
  refine List.suffix_cons_iff.2 (.inr ?_)
  simp only [← List.append_assoc]
  exact List.suffix_append _ _

theorem passesBody_iff (operation : Operation) :
    PassesBody operation ↔ operation.requestBodyType.isSome := by
  have hsuffix := callEnd_suffix operation
  unfold passed at hsuffix
  constructor
  · intro h
    by_contra hnone
    rw [if_neg hnone] at hsuffix
    -- both would end the same text, but the character before the options differs
    have := List.suffix_of_suffix_length_le hsuffix h (by decide)
    exact absurd this (by decide)
  · intro h
    rwa [if_pos h] at hsuffix

theorem mergesParams_iff (operation : Operation) :
    MergesParams operation ↔ operation.queryParams ≠ [] := by
  constructor
  · rintro ⟨statements, heq, hlines⟩ hnone
    rw [function_eq] at heq
    have hbody : body operation = statements :=
      List.append_cancel_left (List.append_cancel_left (List.cons.inj heq).2)
    rw [← hbody, body, if_pos hnone] at hlines
    have hcall : callStart <+: call operation := by
      simp only [call, List.append_assoc]
      exact List.prefix_append _ _
    have := List.prefix_of_prefix_length_le hcall hlines (by decide)
    exact absurd this (by decide)
  · intro h
    refine ⟨body operation, function_eq operation, ?_⟩
    rw [body, if_neg h]
    exact List.prefix_append _ _

/-! ## Closed functions -/

/-- The names of the arguments that a function declares. -/
def argumentNames (operation : Operation) : List (List Char) :=
  (arguments operation).map Argument.name

/-- What the body of a function uses is declared and the other way round; `relative` is the path
that the function requests. -/
structure IsClosed (relative : List Char) (operation : Operation) : Prop where
  slots_eq : Path.slots operation.urlTemplate.toList = (Path.placeholders relative).map argument
  slots_declared : ∀ slot ∈ Path.slots operation.urlTemplate.toList, slot ∈ argumentNames operation
  passesBody : PassesBody operation ↔ "body".toList ∈ argumentNames operation
  mergesParams : MergesParams operation ↔ "params".toList ∈ argumentNames operation

/-- No placeholder has a name that functions declare themselves. -/
theorem mem_argumentNames_iff {operation : Operation} {name : String} (h : name ∈ ownArguments) :
    name.toList ∈ argumentNames operation ↔ name.toList ∈ ownNames operation := by
  rw [argumentNames, names_arguments, List.mem_append]
  refine or_iff_right ?_
  intro hmem
  obtain ⟨text, -, heq⟩ := List.mem_map.1 hmem
  refine argument_not_mem_ownArguments text.toList ?_
  rw [heq, String.ofList_toList]
  exact h

theorem body_mem_ownNames_iff (operation : Operation) :
    "body".toList ∈ ownNames operation ↔ operation.requestBodyType.isSome := by
  unfold ownNames
  cases operation.requestBodyType.isSome <;> split <;> decide

theorem params_mem_ownNames_iff (operation : Operation) :
    "params".toList ∈ ownNames operation ↔ operation.queryParams ≠ [] := by
  unfold ownNames
  by_cases h : operation.queryParams = []
  · rw [if_pos h]
    cases operation.requestBodyType.isSome <;> simp [h]
  · rw [if_neg h]
    simp [h]

/-- **Closed functions**: whatever an operation is read from, the slots of its address are the
arguments of the placeholders of the path that it requests, in order, and all of them are declared;
the call passes the body just when there is an argument for it, and the body of the function adds
the query parameters just when there is one for them. -/
theorem isClosed_of_read {around : Operation.Surroundings} {path : String} {method : Method}
    {fields : Fields} {operation : Operation}
    (h : (Operation.read around path method fields).outcome = .ok operation) :
    IsClosed (Path.relativeTo around.basePath path.toList) operation := by
  have hread := Operation.readFrom_of_ok h
  have hslots : Path.slots operation.urlTemplate.toList =
      (Path.placeholders (Path.relativeTo around.basePath path.toList)).map argument := by
    rw [hread.urlTemplate_eq, String.toList_ofList, Path.slots_template]
  refine ⟨hslots, ?_, ?_, ?_⟩
  · intro slot hslot
    rw [hslots] at hslot
    obtain ⟨name, hname, rfl⟩ := List.mem_map.1 hslot
    obtain ⟨parameters, hparams⟩ := hread.pathParams_eq
    have hparam : String.ofList name ∈ operation.pathParams := by
      rw [hparams]
      exact Operation.mem_pathNames.2 (.inr ⟨name, hname, rfl⟩)
    rw [argumentNames, names_arguments]
    refine List.mem_append_left _ (List.mem_map.2 ⟨_, hparam, ?_⟩)
    rw [String.toList_ofList]
  · rw [passesBody_iff, mem_argumentNames_iff (by decide), body_mem_ownNames_iff]
  · rw [mergesParams_iff, mem_argumentNames_iff (by decide), params_mem_ownNames_iff]

/-- A query parameter. -/
def searching : Fields :=
  [(.text "parameters", .list [.object [(.text "name", .text "q"), (.text "in", .text "query")]])]

/-- Placeholders that are spelled like the function's own arguments, one of them twice. -/
theorem isClosed_of_read_clashing : ∃ operation,
    (Operation.read bare "/\x7bbody\x7d/\x7bparams\x7d/\x7bbody\x7d" .post searching).outcome =
      .ok operation ∧
    Path.slots operation.urlTemplate.toList =
      ["bodyParam".toList, "paramsParam".toList, "bodyParam".toList] ∧
    argumentNames operation = ["bodyParam".toList, "paramsParam".toList, "params".toList,
      "body".toList, "options".toList] ∧
    PassesBody operation ∧ MergesParams operation := by
  have hread : (Operation.read bare "/\x7bbody\x7d/\x7bparams\x7d/\x7bbody\x7d" .post
      searching).outcome.toOption.map (fun operation =>
        (Path.slots operation.urlTemplate.toList, argumentNames operation)) =
      some (["bodyParam".toList, "paramsParam".toList, "bodyParam".toList],
        ["bodyParam".toList, "paramsParam".toList, "params".toList, "body".toList,
          "options".toList]) := by
    decide +kernel
  obtain ⟨operation, h, hread⟩ := exists_of_toOption_map hread
  obtain ⟨hslots, hnames⟩ := Prod.mk.inj hread
  have hclosed := isClosed_of_read h
  refine ⟨operation, h, hslots, hnames, hclosed.passesBody.2 ?_, hclosed.mergesParams.2 ?_⟩
  · rw [hnames]
    decide
  · rw [hnames]
    decide

end ApiContract.Module
