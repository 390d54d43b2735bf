import ApiContract.Proofs.Generation.Precedence
import ApiContract.Proofs.Identifier.Collision

/-!
# What the schemas module declares

Without collisions the schemas module declares every alias and every constant once, as texts. In
code two of them can still be one name, if a line feed ends one of the texts; and an alias can be a
name that the module uses for something else, since the names of the library and of the predefined
generic types are not among the words that an alias avoids.

Main fact: `hygienic_iff`.
-/

namespace ApiContract.Generation

open ApiContract.Module ApiContract.Identifier

/-- The blocks of the schemas that were generated, in their order. -/
def blocks (d : Description) (s : Sources) : List Block :=
  s.schemaOrder.filterMap (block? d.schemas)

/-- In code, blocks declare every alias and every constant once, and no alias is a name that their
module uses for something else. -/
structure Hygienic (blocks : List Block) : Prop where
  aliases : (blocks.map fun b => declared b.typeAlias).Nodup
  constants : (blocks.map fun b => declared b.validatorName).Nodup
  free : ∀ b ∈ blocks, ∀ word ∈ ambient, declared b.typeAlias ≠ word.toList

/-- No name is spelled like a name that the module uses for something else, and none is the alias or
the constant of another one with a line feed. -/
structure Apart (names : List String) : Prop where
  free : ∀ a ∈ names, ∀ word ∈ ambient, declared (spelling a.toList) ≠ word.toList
  aliases : LinesApart typeAlias names
  constants : LinesApart validatorName names

theorem map_filterMap_block? {f : Block → List Char} {give : String → List Char}
    (hgive : ∀ name schema, f (Block.ofSchema name schema) = give name)
    {schemas : List (String × Schema)} {order : List String}
    (h : ∀ name ∈ order, name ∈ schemas.map Prod.fst) :
    (order.filterMap (block? schemas)).map f = order.map give := by
  induction order with
  | nil => rfl
  | cons name order ih =>
    obtain ⟨hname, horder⟩ := List.forall_mem_cons.1 h
    obtain ⟨schema, -, hblock⟩ := block?_of_mem hname
    rw [List.filterMap_cons_some hblock, List.map_cons, List.map_cons, ih horder, hgive]

theorem nodup_map_typeAlias {names : List String} (h : collisions names = []) :
    (names.map fun name => typeAlias name.toList).Nodup := by
  have haliases : (names.map aliasOf).Nodup := collisions_eq_nil_iff.1 h
  rw [List.nodup_map_iff_inj_on haliases.of_map]
  intro a ha b hb heq
  exact (List.nodup_map_iff_inj_on haliases.of_map).1 haliases a ha b hb
    (congrArg String.ofList heq)

theorem nodup_map_validatorName {names : List String}
    (h : (names.map fun name => typeAlias name.toList).Nodup) :
    (names.map fun name => validatorName name.toList).Nodup := by
  rw [List.nodup_map_iff_inj_on h.of_map]
  intro a ha b hb heq
  exact (List.nodup_map_iff_inj_on h.of_map).1 h a ha b hb (List.append_cancel_right heq)

section
variable {d : Description} {origin : Option String} {strict : Bool} {s : Sources}
  (h : (generate d origin strict).outcome = .ok s)
  (haliases : ((d.schemas.map Prod.fst).map fun name => typeAlias name.toList).Nodup)
include h haliases

/-- The order is a rearrangement of the names of the schemas. -/
theorem perm_schemaOrder : s.schemaOrder.Perm (d.schemas.map Prod.fst) := by
  have hnames : (d.schemas.map Prod.fst).Nodup := haliases.of_map
  have harranges := Graph.arranges_emission (by rwa [Graph.names_ofSchemas])
    (generated_of_ok h).order
  refine (List.perm_ext_iff_of_nodup harranges.nodup hnames).2 fun name => ?_
  rw [harranges.mem, Graph.names_ofSchemas]

/-- What the blocks are given for the names of their schemas. -/
theorem perm_map_blocks {f : Block → List Char} {give : String → List Char}
    (hgive : ∀ name schema, f (Block.ofSchema name schema) = give name) :
    ((blocks d s).map f).Perm ((d.schemas.map Prod.fst).map give) := by
  have hperm := perm_schemaOrder h haliases
  rw [blocks, map_filterMap_block? hgive fun name => hperm.mem_iff.1]
  exact hperm.map give

theorem perm_typeAlias_blocks : ((blocks d s).map Block.typeAlias).Perm
    ((d.schemas.map Prod.fst).map fun name => typeAlias name.toList) :=
  perm_map_blocks h haliases fun _ _ => by rw [Block.ofSchema]

theorem perm_validatorName_blocks : ((blocks d s).map Block.validatorName).Perm
    ((d.schemas.map Prod.fst).map fun name => validatorName name.toList) :=
  perm_map_blocks h haliases fun _ _ => by rw [Block.ofSchema]

theorem perm_declared_typeAlias_blocks :
    ((blocks d s).map fun b => declared b.typeAlias).Perm
      ((d.schemas.map Prod.fst).map fun name => declared (typeAlias name.toList)) :=
  perm_map_blocks h haliases fun _ _ => by rw [Block.ofSchema]

theorem perm_declared_validatorName_blocks :
    ((blocks d s).map fun b => declared b.validatorName).Perm
      ((d.schemas.map Prod.fst).map fun name => declared (validatorName name.toList)) :=
  perm_map_blocks h haliases fun _ _ => by rw [Block.ofSchema]

theorem nodup_declared_typeAlias_iff :
    ((blocks d s).map fun b => declared b.typeAlias).Nodup ↔
      LinesApart typeAlias (d.schemas.map Prod.fst) := by
  rw [(perm_declared_typeAlias_blocks h haliases).nodup_iff]
  exact nodup_declared_iff isName_typeAlias_iff declared_typeAlias_line haliases

theorem nodup_declared_validatorName_iff :
    ((blocks d s).map fun b => declared b.validatorName).Nodup ↔
      LinesApart validatorName (d.schemas.map Prod.fst) := by
  rw [(perm_declared_validatorName_blocks h haliases).nodup_iff]
  exact nodup_declared_iff isName_validatorName_iff declared_validatorName_line
    (nodup_map_validatorName haliases)

theorem free_blocks_iff :
    (∀ b ∈ blocks d s, ∀ word ∈ ambient, declared b.typeAlias ≠ word.toList) ↔
      ∀ name ∈ d.schemas.map Prod.fst, ∀ word ∈ ambient,
        declared (spelling name.toList) ≠ word.toList := by
  have hall : (∀ text ∈ (blocks d s).map fun b => declared b.typeAlias, ∀ word ∈ ambient,
      text ≠ word.toList) ↔ ∀ text ∈ (d.schemas.map Prod.fst).map fun name =>
        declared (typeAlias name.toList), ∀ word ∈ ambient, text ≠ word.toList := by
    simp only [(perm_declared_typeAlias_blocks h haliases).mem_iff]
  rw [List.forall_mem_map, List.forall_mem_map] at hall
  rw [hall]
  exact forall₂_congr fun name _ => forall₂_congr fun word hword =>
    not_congr (declared_typeAlias_eq_ambient_iff hword)

end

/-- **What the schemas module declares**: without collisions it writes every alias and every
constant once. In code they are distinct too, and none is a name that the module uses itself,
exactly when no name is spelled like one of these, and none is the alias or the constant of another
one with a line feed. -/
theorem hygienic_iff {d : Description} {origin : Option String} {strict : Bool} {s : Sources}
    (h : (generate d origin strict).outcome = .ok s)
    (hcollisions : collisions (d.schemas.map Prod.fst) = []) :
    s.schemas = Module.schemas (blocks d s) ∧
      ((blocks d s).map Block.typeAlias).Nodup ∧ ((blocks d s).map Block.validatorName).Nodup ∧
      (Hygienic (blocks d s) ↔ Apart (d.schemas.map Prod.fst)) := by
  have haliases := nodup_map_typeAlias hcollisions
  refine ⟨(generated_of_ok h).schemas, (perm_typeAlias_blocks h haliases).nodup_iff.2 haliases,
    (perm_validatorName_blocks h haliases).nodup_iff.2 (nodup_map_validatorName haliases), ?_, ?_⟩
  · exact fun hblocks => ⟨(free_blocks_iff h haliases).1 hblocks.free,
      (nodup_declared_typeAlias_iff h haliases).1 hblocks.aliases,
      (nodup_declared_validatorName_iff h haliases).1 hblocks.constants⟩
  · exact fun hapart => ⟨(nodup_declared_typeAlias_iff h haliases).2 hapart.aliases,
      (nodup_declared_validatorName_iff h haliases).2 hapart.constants,
      (free_blocks_iff h haliases).2 hapart.free⟩

theorem hygienic_iff_petShop :
    collisions (petShop.schemas.map Prod.fst) = [] ∧
      ∃ s, (generate petShop none true).outcome = .ok s ∧ Hygienic (blocks petShop s) := by
  have hcollisions : collisions (petShop.schemas.map Prod.fst) = [] := by decide +kernel
  have horder : (generate petShop none true).outcome.toOption.map (·.schemaOrder) =
      some ["Tag", "Pet", "Order"] := by decide +kernel
  obtain ⟨s, h, -⟩ := exists_of_toOption_map horder
  have hline : ∀ name ∈ petShop.schemas.map Prod.fst, ¬ EndsLine name.toList := by
    have hnever : ∀ name ∈ petShop.schemas.map Prod.fst, '\n' ∉ name.toList := by decide +kernel
    exact fun name hname hends => hnever name hname hends.mem
  have hapart : Apart (petShop.schemas.map Prod.fst) :=
    ⟨by decide +kernel, fun _ _ name hname hends => absurd hends (hline name hname),
      fun _ _ name hname hends => absurd hends (hline name hname)⟩
  exact ⟨hcollisions, s, h, (hygienic_iff h hcollisions).2.2.2.2 hapart⟩

/-- Recordings and their tags, which are free texts by free names. -/
def recordings : Description where
  title := "Recordings"
  version := "1"
  openapi := "3.0.3"
  servers := []
  schemas := [
    ("Record", .object false [("id", .text false none)] ["id"] none),
    ("Tags", .object false [] [] (some (.text false none)))]
  paths := []
  components := []

/-- The type of tags is written with the predefined `Record`, which the schema of that name takes
away. -/
theorem recordings_captured :
    collisions (recordings.schemas.map Prod.fst) = [] ∧
      ∃ s, (generate recordings none true).outcome = .ok s ∧ ¬ Hygienic (blocks recordings s) ∧
        ∃ b ∈ blocks recordings s, b.contract.type = "Record<string, string>".toList := by
  have hcollisions : collisions (recordings.schemas.map Prod.fst) = [] := by decide +kernel
  have hblocks : (generate recordings none true).outcome.toOption.map (fun s =>
      (blocks recordings s).map fun b => (declared b.typeAlias, b.contract.type)) =
      some [("Record".toList, "\x7b\n  id: string;\n\x7d".toList),
        ("Tags".toList, "Record<string, string>".toList)] := by decide +kernel
  obtain ⟨s, h, hblocks⟩ := exists_of_toOption_map hblocks
  have hmem : ∀ given ∈ [("Record".toList, "\x7b\n  id: string;\n\x7d".toList),
      ("Tags".toList, "Record<string, string>".toList)],
      ∃ b ∈ blocks recordings s, (declared b.typeAlias, b.contract.type) = given := by
    rw [← hblocks]
    exact fun given => List.mem_map.1
  obtain ⟨record, hrecord, hgiven⟩ := hmem _ List.mem_cons_self
  obtain ⟨tags, htags, hgiven'⟩ := hmem _ (List.mem_cons_of_mem _ List.mem_cons_self)
  have halias : declared record.typeAlias = "Record".toList := congrArg Prod.fst hgiven
  have htype : tags.contract.type = "Record<string, string>".toList := congrArg Prod.snd hgiven'
  exact ⟨hcollisions, s, h, fun hygienic =>
    hygienic.free record hrecord "Record" (by decide) halias, tags, htags, htype⟩

end ApiContract.Generation
