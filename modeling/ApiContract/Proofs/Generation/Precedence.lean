import ApiContract.Proofs.Contract.Written
import ApiContract.Proofs.Generation.Basic
import ApiContract.Proofs.Graph.Order

/-!
# Constants are declared before they are used

The schemas module evaluates a validator where it declares it, so the constants that the validator
names must stand in earlier blocks. They do: what a contract writes its schema refers to, what a
schema refers to is an edge of the graph if it is declared, and the order of the blocks follows the
edges. A strict generation leaves no reference that is not declared.

Main facts: `getElem?_blocks` (each name of the order has its block, at the same place) and
`declared_before_use`.
-/

namespace ApiContract.Generation

open ApiContract.Module

/-- A block before place `i` exports the constant. -/
def ExportedBefore (blocks : List Block) (i : Nat) (constant : List Char) : Prop :=
  ∃ j < i, ∃ block, blocks[j]? = some block ∧ block.validatorName = constant

/-! ## Blocks -/

theorem block?_of_mem {schemas : List (String × Schema)} {name : String}
    (h : name ∈ schemas.map Prod.fst) :
    ∃ schema, (name, schema) ∈ schemas ∧
      block? schemas name = some (Block.ofSchema name schema) := by
  obtain ⟨entry, hmem, rfl⟩ := List.mem_map.1 h
  cases hl : schemas.lookup entry.1 with
  | none =>
    have := List.lookup_eq_none_iff.1 hl entry hmem
    simp at this
  | some found =>
    obtain ⟨front, back, hschemas, -⟩ := List.lookup_eq_some_iff.1 hl
    refine ⟨found, ?_, ?_⟩
    · rw [hschemas]
      exact List.mem_append_right _ List.mem_cons_self
    · rw [block?, hl]
      rfl

theorem getElem?_blocks {schemas : List (String × Schema)} {order : List String}
    (h : ∀ name ∈ order, name ∈ schemas.map Prod.fst) (i : Nat) :
    (order.filterMap (block? schemas))[i]? = order[i]?.bind (block? schemas) := by
  induction order generalizing i with
  | nil => rfl
  | cons name order ih =>
    obtain ⟨hname, horder⟩ := List.forall_mem_cons.1 h
    obtain ⟨schema, -, hblock⟩ := block?_of_mem hname
    rw [List.filterMap_cons_some hblock]
    cases i with
    | zero => exact hblock.symm
    | succ i => exact ih horder i

theorem length_blocks {schemas : List (String × Schema)} {order : List String}
    (h : ∀ name ∈ order, name ∈ schemas.map Prod.fst) :
    (order.filterMap (block? schemas)).length = order.length := by
  rw [List.length_filterMap_eq_countP, List.countP_eq_length]
  intro name hname
  obtain ⟨schema, -, hblock⟩ := block?_of_mem (h name hname)
  rw [hblock]
  rfl

/-! ## References -/

section
variable {d : Description} {name target : String} {schema : Schema}

/-- A written reference to a declared schema is an edge. -/
theorem edge_of_written (hmem : (name, schema) ∈ d.schemas) (hw : target ∈ schema.written)
    (ht : target ∈ d.schemas.map Prod.fst) : (Graph.ofSchemas d.schemas).Edge name target := by
  have hentry : (name, schema.dependencies) ∈ Graph.ofSchemas d.schemas :=
    List.mem_map.2 ⟨_, hmem, rfl⟩
  have hdep : target ∈ schema.dependencies :=
    Schema.mem_dependencies.2 (Schema.written_subset schema hw)
  rw [← Graph.names_ofSchemas] at ht
  exact ⟨⟨_, hentry, rfl, hdep⟩, ht⟩

/-- Where nothing dangles, every written reference is to a declared schema. -/
theorem mem_of_written (hres : (Graph.ofSchemas d.schemas).dangling = [])
    (hmem : (name, schema) ∈ d.schemas) (hw : target ∈ schema.written) :
    target ∈ d.schemas.map Prod.fst := by
  rw [← Graph.names_ofSchemas]
  apply Classical.byContradiction
  intro hnot
  have hentry : (name, schema.dependencies) ∈ Graph.ofSchemas d.schemas :=
    List.mem_map.2 ⟨_, hmem, rfl⟩
  have hdep : target ∈ schema.dependencies :=
    Schema.mem_dependencies.2 (Schema.written_subset schema hw)
  have : target ∈ (Graph.ofSchemas d.schemas).dangling :=
    Graph.mem_dangling.2 ⟨⟨_, hentry, hdep⟩, hnot⟩
  rw [hres] at this
  cases this

end

/-- **Declaration before use**: the schemas module consists of one block for each name of the
order. The constants in the validator of a block are those of the names that its schema writes; the
constant of a declared name is exported by an earlier block, and in a strict generation every
constant is. -/
theorem declared_before_use {d : Description} {origin : Option String} {strict : Bool} {s : Sources}
    (hn : (d.schemas.map Prod.fst).Nodup) (h : (generate d origin strict).outcome = .ok s) :
    ∃ blocks : List Block,
      s.schemas = Module.schemas blocks ∧ blocks.length = s.schemaOrder.length ∧
      ∀ i name, s.schemaOrder[i]? = some name → ∃ schema block,
        (name, schema) ∈ d.schemas ∧ blocks[i]? = some block ∧
        block = Block.ofSchema name schema ∧
        Reading.constants.names block.contract.validator =
          (schema.written.map fun target => Identifier.validatorName target.toList) ∧
        (∀ target ∈ schema.written, target ∈ d.schemas.map Prod.fst →
          ExportedBefore blocks i (Identifier.validatorName target.toList)) ∧
        (strict = true → ∀ constant ∈ Reading.constants.names block.contract.validator,
          ExportedBefore blocks i constant) := by
  have hg := generated_of_ok h
  have harr : (Graph.ofSchemas d.schemas).Arranges
      (fun a b => (Graph.ofSchemas d.schemas).Edge b a) s.schemaOrder :=
    Graph.arranges_emission (by rwa [Graph.names_ofSchemas]) hg.order
  have hdeclared : ∀ name ∈ s.schemaOrder, name ∈ d.schemas.map Prod.fst := by
    intro name hname
    rw [← Graph.names_ofSchemas]
    exact (harr.mem name).1 hname
  refine ⟨_, hg.schemas, length_blocks hdeclared, fun i name hi => ?_⟩
  obtain ⟨schema, hmem, hblock⟩ := block?_of_mem (hdeclared name (List.mem_of_getElem? hi))
  have hconstants : Reading.constants.names (Block.ofSchema name schema).contract.validator =
      schema.written.map fun target => Identifier.validatorName target.toList :=
    (Contract.refers_ofSchema schema).validator.eq
  have hbefore : ∀ target ∈ schema.written, target ∈ d.schemas.map Prod.fst →
      ExportedBefore (s.schemaOrder.filterMap (block? d.schemas)) i
        (Identifier.validatorName target.toList) := by
    intro target hw ht
    obtain ⟨j, hj, hget⟩ := harr.exists_lt (edge_of_written hmem hw ht)
      (by rwa [Graph.names_ofSchemas]) hi
    obtain ⟨targetSchema, -, htarget⟩ := block?_of_mem ht
    refine ⟨j, hj, Block.ofSchema target targetSchema, ?_, rfl⟩
    rw [getElem?_blocks hdeclared, hget]
    exact htarget
  refine ⟨schema, Block.ofSchema name schema, hmem, ?_, rfl, hconstants, hbefore, ?_⟩
  · rw [getElem?_blocks hdeclared, hi]
    exact hblock
  · intro hs constant hc
    rw [hconstants] at hc
    obtain ⟨target, hw, rfl⟩ := List.mem_map.1 hc
    exact hbefore target hw (mem_of_written (hg.resolved hs) hmem hw)

/-- An order of pets: the first schema refers to the second inside a list, the second to the third
inside a record. -/
def petShop : Description where
  title := "Pet shop"
  version := "1"
  openapi := "3.0.3"
  servers := []
  schemas := [
    ("Order", .object false [("pets", .array false (.reference false "Pet"))] ["pets"] none),
    ("Pet", .object false [] [] (some (.reference true "Tag"))),
    ("Tag", .text false none)]
  paths := []
  components := []

theorem declared_before_use_petShop :
    (petShop.schemas.map Prod.fst).Nodup ∧
      ∃ s blocks, (generate petShop none true).outcome = .ok s ∧
        s.schemas = Module.schemas blocks ∧ s.schemaOrder = ["Tag", "Pet", "Order"] ∧
        ExportedBefore blocks 2 "PetSchema".toList := by
  have hn : (petShop.schemas.map Prod.fst).Nodup := by decide
  have horder : (generate petShop none true).outcome.toOption.map (·.schemaOrder) =
      some ["Tag", "Pet", "Order"] := by decide +kernel
  obtain ⟨s, h, hs⟩ := exists_of_toOption_map horder
  obtain ⟨blocks, hmodule, -, hblocks⟩ := declared_before_use hn h
  obtain ⟨schema, block, hmem, -, -, -, hbefore, -⟩ := hblocks 2 "Order" (by rw [hs]; rfl)
  have hwritten : "Pet" ∈ schema.written := by
    simp only [petShop, List.mem_cons, Prod.mk.injEq, List.not_mem_nil] at hmem
    rcases hmem with ⟨-, rfl⟩ | ⟨h, -⟩ | ⟨h, -⟩ | h
    · decide
    · exact absurd h (by decide)
    · exact absurd h (by decide)
    · cases h
  exact ⟨hn, s, blocks, h, hmodule, hs, hbefore "Pet" hwritten (by decide)⟩

end ApiContract.Generation
