import ApiContract.Proofs.Operation.Naming
import ApiContract.Proofs.Path.Name

/-!
# Which functions have legal names

A function is declared under the name of its operation. A name from the description is legal unless
a line feed ends it. A name from the method and the path is checked against no reserved word, so the
first operation that deletes without a word in its path is called `delete`; a number saves the later
ones.

Main facts: `named_ownName` (how the name of an operation comes from its own parts),
`mem_delete_iff` (when an earlier function is called `delete`) and `isLegal_identifier_iff`.
-/

namespace ApiContract.Operation

open Identifier

/-- The description names the operation, with a line feed after the name. -/
def LineNamed (operation : Operation) : Prop :=
  ∃ id, operation.operationId = some id ∧ EndsLine id.toList

/-- The description does not name the operation, which deletes, and its path has no word. -/
def BareDelete (basePath : List Char) (operation : Operation) : Prop :=
  operation.operationId = none ∧ operation.method = .delete ∧
    Path.Nameless (Path.relativeTo basePath operation.path.toList)

/-- The name of an operation as long as no other counts, by its own parts. -/
def own (basePath : List Char) (operation : Operation) : List Char :=
  ownName operation.method (Path.relativeTo basePath operation.path.toList) operation.operationId

section
variable {basePath : List Char} {operation : Operation}

theorem own_of_lineNamed (h : operation.LineNamed) : '\n' ∈ operation.own basePath := by
  obtain ⟨id, hid, hline⟩ := h
  rw [own, hid, ownName, ofText_of_endsLine hline]
  exact hline.mem

theorem own_of_bareDelete (h : operation.BareDelete basePath) :
    operation.own basePath = "delete".toList := by
  obtain ⟨hid, hmethod, hnameless⟩ := h
  rw [own, hid, hmethod, ownName]
  exact Path.operationName_of_nameless hnameless .delete

theorem isName_own (h : ¬ operation.LineNamed) : isName (operation.own basePath) := by
  unfold own
  cases hid : operation.operationId with
  | none => exact Path.isName_operationName operation.method _
  | some id => exact ((isLegal_ofText_iff id.toList).2 fun hline => h ⟨id, hid, hline⟩).1

theorem isLegal_own (h : ¬ operation.LineNamed) (hbare : ¬ operation.BareDelete basePath) :
    IsLegal (operation.own basePath) := by
  unfold own
  cases hid : operation.operationId with
  | none => exact Path.isLegal_operationName_iff.2 fun hdelete => hbare ⟨hid, hdelete⟩
  | some id => exact (isLegal_ofText_iff id.toList).2 fun hline => h ⟨id, hid, hline⟩

/-- Only a bare deletion is called `delete` by itself. -/
theorem bareDelete_of_own (h : operation.own basePath = "delete".toList) :
    operation.BareDelete basePath := by
  have hline : ¬ operation.LineNamed := fun hline => by
    have hmem : '\n' ∈ operation.own basePath := own_of_lineNamed hline
    rw [h] at hmem
    exact absurd hmem (by decide)
  apply Classical.byContradiction
  intro hbare
  have hfree := (isLegal_own hline hbare).2
  rw [h] at hfree
  exact hfree (by decide)

end

/-! ## Names in a run -/

section
variable {d : Description} {basePath : List Char} {operations : List Operation} {i : Nat}
  {operation : Operation}

theorem named_ownName (h : (readAll d basePath).outcome = .ok operations)
    (hi : operations[i]? = some operation) :
    Named (moduleNames ++ (operations.take i).map Operation.identifier)
      (String.ofList (operation.own basePath)) operation.identifier := by
  obtain ⟨place, original, -, horiginal, heq, hnamed⟩ := getElem?_readPlaces h hi
  have hread := readFrom_of_ok horiginal
  have hown : original.identifier = String.ofList (operation.own basePath) := by
    rw [hread.identifier_eq, heq]
    show _ = String.ofList (ownName original.method
      (Path.relativeTo basePath original.path.toList) original.operationId)
    rw [hread.method_eq, hread.path_eq, hread.operationId_eq]
  rwa [hown] at hnamed

/-- An earlier function is called `delete` when an earlier operation is a bare deletion. -/
theorem mem_delete_iff (h : (readAll d basePath).outcome = .ok operations) :
    "delete" ∈ (operations.take i).map Operation.identifier ↔
      ∃ earlier ∈ operations.take i, earlier.BareDelete basePath := by
  constructor
  · intro hmem
    obtain ⟨earlier, hearlier, hidentifier⟩ := List.mem_map.1 hmem
    refine ⟨earlier, hearlier, ?_⟩
    obtain ⟨j, hj, hget⟩ := List.mem_take_iff_getElem.1 hearlier
    have hnamed := named_ownName h (List.getElem?_eq_some_iff.2 ⟨by omega, hget⟩)
    rw [hidentifier] at hnamed
    rcases hnamed with ⟨-, hown⟩ | ⟨-, n, -, hown, -⟩
    · refine bareDelete_of_own ?_
      rw [hown, String.toList_ofList]
    · have hfree : "delete" ∉ reserved := hown ▸ append_toString_not_mem_reserved _ n
      exact absurd (by decide) hfree
  · rintro ⟨earlier, hearlier, hbare⟩
    obtain ⟨j, hj, hget⟩ := List.mem_take_iff_getElem.1 hearlier
    have hnamed := named_ownName h (List.getElem?_eq_some_iff.2 ⟨by omega, hget⟩)
    rw [own_of_bareDelete hbare, String.ofList_toList] at hnamed
    rcases hnamed with ⟨-, hidentifier⟩ | ⟨htaken, -⟩
    · exact hidentifier ▸ List.mem_map_of_mem hearlier
    · -- the name went to an operation before that
      have hmodule : "delete" ∉ moduleNames := by decide
      have hbefore := (List.mem_append.1 htaken).resolve_left hmodule
      rw [List.map_take] at hbefore ⊢
      exact List.take_subset_take_left _ (by omega) hbefore

theorem not_isLegal_of_lineNamed (h : (readAll d basePath).outcome = .ok operations)
    (hi : operations[i]? = some operation) (hline : operation.LineNamed) :
    ¬ IsLegal operation.identifier.toList := by
  have hfeed : '\n' ∈ operation.own basePath := own_of_lineNamed hline
  refine fun hlegal => not_isName_of_mem (c := '\n') ?_ rfl hlegal.1
  rcases named_ownName h hi with ⟨-, heq⟩ | ⟨-, n, -, heq, -⟩
  · rwa [heq, String.toList_ofList]
  · rw [heq, String.toList_append, String.toList_ofList]
    exact List.mem_append_left _ hfeed

theorem isLegal_of_not_bareDelete (h : (readAll d basePath).outcome = .ok operations)
    (hi : operations[i]? = some operation) (hline : ¬ operation.LineNamed)
    (hbare : ¬ operation.BareDelete basePath) : IsLegal operation.identifier.toList := by
  rcases named_ownName h hi with ⟨-, heq⟩ | ⟨-, n, -, heq, -⟩
  · rw [heq, String.toList_ofList]
    exact isLegal_own hline hbare
  · rw [heq]
    refine isLegal_append_toString ?_ n
    rw [String.toList_ofList]
    exact isName_own hline

/-- A bare deletion has a legal name when another one comes before it. -/
theorem isLegal_of_bareDelete (h : (readAll d basePath).outcome = .ok operations)
    (hi : operations[i]? = some operation) (hbare : operation.BareDelete basePath) :
    IsLegal operation.identifier.toList ↔
      ∃ earlier ∈ operations.take i, earlier.BareDelete basePath := by
  have hnamed := named_ownName h hi
  rw [own_of_bareDelete hbare, String.ofList_toList] at hnamed
  rw [← mem_delete_iff h]
  rcases hnamed with ⟨hfree, heq⟩ | ⟨htaken, n, -, heq, -⟩
  · constructor
    · intro hlegal
      rw [heq] at hlegal
      exact absurd (by decide) hlegal.2
    · exact fun hmem => absurd (List.mem_append_right _ hmem) hfree
  · constructor
    · exact fun _ => (List.mem_append.1 htaken).resolve_left (by decide)
    · intro _
      rw [heq]
      exact isLegal_append_toString (by decide) n

/-- **Legal names**: whatever the description and the base path, the function of an operation has a
legal name unless the description names the operation with a line feed at the end, or the operation
is the first to delete under no name of the description and on a path without words. -/
theorem isLegal_identifier_iff (h : (readAll d basePath).outcome = .ok operations)
    (hi : operations[i]? = some operation) :
    IsLegal operation.identifier.toList ↔ ¬ operation.LineNamed ∧
      ¬ (operation.BareDelete basePath ∧
        ∀ earlier ∈ operations.take i, ¬ earlier.BareDelete basePath) := by
  by_cases hline : operation.LineNamed
  · exact iff_of_false (not_isLegal_of_lineNamed h hi hline) fun hnot => hnot.1 hline
  · by_cases hbare : operation.BareDelete basePath
    · rw [isLegal_of_bareDelete h hi hbare]
      constructor
      · rintro ⟨earlier, hearlier, hbefore⟩
        exact ⟨hline, fun hfirst => hfirst.2 earlier hearlier hbefore⟩
      · rintro ⟨-, hfirst⟩
        apply Classical.byContradiction
        intro hnone
        exact hfirst ⟨hbare, fun earlier hearlier hbefore => hnone ⟨earlier, hearlier, hbefore⟩⟩
    · exact iff_of_true (isLegal_of_not_bareDelete h hi hline hbare)
        ⟨hline, fun hfirst => hbare hfirst.1⟩

/-- Everything is cleared under two paths without words, and pets are listed under a name with a
line feed. -/
def clearing : Description where
  title := "Clearing"
  version := "1"
  openapi := "3.0.3"
  servers := []
  schemas := []
  paths := [("/", [("delete", .object [])]), ("/-", [("delete", .object [])]),
    ("/pets", [("get", .object [(.text "operationId", .text "listPets\n")])])]
  components := []

theorem isLegal_identifier_iff_clearing : ∃ operations operation,
    (readAll clearing []).outcome = .ok operations ∧ operations[1]? = some operation ∧
    operation.identifier = "delete2" ∧
    ¬ (operation.BareDelete [] ∧ ∀ earlier ∈ operations.take 1, ¬ earlier.BareDelete []) := by
  have hnames : (readAll clearing []).outcome.toOption.map
      (fun operations => operations[1]?.map Operation.identifier) = some (some "delete2") := by
    decide +kernel
  obtain ⟨operations, h, hnames⟩ := exists_of_toOption_map hnames
  obtain ⟨operation, hi, hname⟩ := Option.map_eq_some_iff.1 hnames
  have hlegal : IsLegal operation.identifier.toList := by
    rw [hname]
    exact ⟨by decide, by decide⟩
  exact ⟨operations, operation, h, hi, hname, ((isLegal_identifier_iff h hi).1 hlegal).2⟩

/-- Two functions that cannot be declared: one is called as a reserved word, the other has a line
feed in its name. -/
theorem not_isLegal_clearing : ∃ operations, (readAll clearing []).outcome = .ok operations ∧
    operations.map Operation.identifier = ["delete", "delete2", "listPets\n"] ∧
    ∃ first ∈ operations, ∃ last ∈ operations, first.identifier = "delete" ∧
      last.identifier = "listPets\n" ∧ ¬ IsLegal first.identifier.toList ∧
      ¬ IsLegal last.identifier.toList := by
  have hnames : (readAll clearing []).outcome.toOption.map (·.map Operation.identifier) =
      some ["delete", "delete2", "listPets\n"] := by decide +kernel
  obtain ⟨operations, h, hnames⟩ := exists_of_toOption_map hnames
  obtain ⟨first, hfirst, hdelete⟩ : ∃ operation ∈ operations, operation.identifier = "delete" :=
    List.mem_map.1 (hnames ▸ by decide)
  obtain ⟨last, hlast, hline⟩ : ∃ operation ∈ operations, operation.identifier = "listPets\n" :=
    List.mem_map.1 (hnames ▸ by decide)
  refine ⟨operations, h, hnames, first, hfirst, last, hlast, hdelete, hline, ?_, ?_⟩
  · rw [hdelete]
    exact fun hlegal => hlegal.2 (by decide)
  · rw [hline]
    exact fun hlegal => absurd hlegal.1 (by decide)

end

end ApiContract.Operation
