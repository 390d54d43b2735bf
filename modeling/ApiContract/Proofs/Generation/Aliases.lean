import ApiContract.Proofs.Generation.Basic
import ApiContract.Proofs.Operation.Reader

/-!
# Which types the module of functions names

The check of references goes through the declared schemas. The contents of responses and bodies
have schemas of their own, which it does not reach, so the types of an operation may name a schema
that is not declared, after a strict generation as after any other.

Main fact: `aliases_declared_iff` (they name declared schemas only exactly when the schemas of
contents refer to declared ones only).
-/

namespace ApiContract.Generation

/-- The type is the alias of a declared schema. -/
def Declared (d : Description) (type : List Char) : Prop :=
  ∃ name ∈ d.schemas.map Prod.fst, Identifier.typeAlias name.toList = type

/-- The schemas of contents refer to declared schemas only, where their contracts say so. -/
def ContentsDeclared (d : Description) : Prop :=
  ∀ place ∈ Operation.places d, ∀ schema,
    Operation.Shows d.componentsValue place.method place.fields schema →
      ∀ target ∈ schema.written, Declared d (Identifier.typeAlias target.toList)

/-- **The types of operations**: whether strict or not, a generation names declared schemas only in
the types of its operations exactly when the schemas of contents refer to declared schemas only. -/
theorem aliases_declared_iff {d : Description} {origin : Option String} {strict : Bool}
    {s : Sources} (h : (generate d origin strict).outcome = .ok s) :
    (∀ operation ∈ s.operations, ∀ type ∈ operation.aliases, Declared d type) ↔
      ContentsDeclared d := by
  have hread := Operation.forall₂_readPlaces (generated_of_ok h).operations
  refine (Operation.forall_mem_iff_of_forall₂ hread ?_).symm
  rintro place operation ⟨original, horiginal, heq⟩
  -- the name of the function does not count
  have haliases : operation.aliases = original.aliases := by
    rw [heq]
    rfl
  rw [haliases]
  exact (Operation.forall_aliases_iff rfl horiginal).symm

/-- Pets are declared, and the response of the one operation is a list of `target`. -/
def listing (target : String) : Description where
  title := "Pets"
  version := "1"
  openapi := "3.0.3"
  servers := []
  schemas := [("Pet", .text false none)]
  paths := [("/pets", [("get", .object [(.text "responses", .object [(.text "200", .object [
    (.text "content", .object [(.text "application/json", .object [
      (.text "schema", .object [(.text "type", .text "array"), (.text "items", .object [
        (.text "$ref", .text ("#/components/schemas/" ++ target))])])])])])])])])]
  components := []

theorem aliases_declared_iff_listing : ∃ s,
    (generate (listing "Pet") none true).outcome = .ok s ∧ ContentsDeclared (listing "Pet") := by
  have haliases : (generate (listing "Pet") none true).outcome.toOption.map
      (fun s => s.operations.map Operation.aliases) = some [["Pet".toList]] := by decide +kernel
  obtain ⟨s, h, haliases⟩ := exists_of_toOption_map haliases
  refine ⟨s, h, (aliases_declared_iff h).1 fun operation hoperation type htype => ?_⟩
  have hmem : operation.aliases ∈ s.operations.map Operation.aliases :=
    List.mem_map_of_mem hoperation
  rw [haliases, List.mem_singleton] at hmem
  rw [hmem, List.mem_singleton] at htype
  subst htype
  exact ⟨"Pet", by decide, by decide⟩

/-- A strict generation whose one operation names a type that the schemas module does not export. -/
theorem strict_listing_undeclared : ∃ s,
    (generate (listing "Gone") none true).outcome = .ok s ∧
    ∃ operation ∈ s.operations, operation.responseType = "Schemas.Gone[]" ∧
      "Gone".toList ∈ operation.aliases ∧ ¬ Declared (listing "Gone") "Gone".toList := by
  have hoperations : (generate (listing "Gone") none true).outcome.toOption.map
      (fun s => s.operations.map fun operation => (operation.responseType, operation.aliases)) =
        some [("Schemas.Gone[]", ["Gone".toList])] := by decide +kernel
  obtain ⟨s, h, hoperations⟩ := exists_of_toOption_map hoperations
  have hmem : ("Schemas.Gone[]", ["Gone".toList]) ∈
      s.operations.map fun operation => (operation.responseType, operation.aliases) := by
    rw [hoperations]
    exact List.mem_cons_self
  obtain ⟨operation, hoperation, heq⟩ := List.mem_map.1 hmem
  obtain ⟨htype, haliases⟩ := Prod.mk.inj heq
  refine ⟨s, h, operation, hoperation, htype, ?_, ?_⟩
  · rw [haliases]
    exact List.mem_cons_self
  · rintro ⟨name, hname, halias⟩
    have hpet : name = "Pet" := List.mem_singleton.1 hname
    rw [hpet] at halias
    exact absurd halias (by decide)

end ApiContract.Generation
