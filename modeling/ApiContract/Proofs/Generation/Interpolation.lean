import ApiContract.Proofs.Generation.Basic
import ApiContract.Proofs.Operation.Naming
import ApiContract.Proofs.Path.Base
import ApiContract.Proofs.Path.Template

/-!
# Every placeholder is filled in

The base path is taken off a path before its placeholders are looked for. It stops before a segment
in braces, but a placeholder may also stand inside a segment, or reach over several. If one begins
in the base path, it is written into the client as it stands and no function fills it in; otherwise
a function has a slot and an argument for every placeholder of its path.

Main facts: `fromPath_of_mem` (what an operation has from its path), `interpolates_iff_not_loses`
and `interpolates_iff`.
-/

namespace ApiContract

/-- A placeholder of the path begins in what the base path takes off it. -/
def Path.Loses (base path : List Char) : Prop :=
  ∃ front, path = front ++ relativeTo base path ∧ Opens front (relativeTo base path)

/-- A base path without opening braces takes off no placeholder. -/
theorem Path.not_loses_of_not_mem {paths : List (List Char)} {path : List Char} (h : path ∈ paths)
    (hbase : '\x7b' ∉ basePath paths) : ¬ Loses (basePath paths) path := by
  rintro ⟨front, hcut, hopens⟩
  obtain ⟨front', hcut', hfront⟩ := exists_front h
  have hsame : front = front' := List.append_cancel_right (hcut.symm.trans hcut')
  refine not_opens_of_not_mem ?_ hopens
  rcases hfront with hnil | hfront
  · rw [hsame, hnil]
    exact List.not_mem_nil
  · rwa [hsame, hfront]

namespace Operation

variable {base : List Char} {operation : Operation}

/-- The function of an operation fills in every placeholder of its path. -/
structure Interpolates (base : List Char) (operation : Operation) : Prop where
  /-- After what the base path takes off, the template is that of the whole path. -/
  url : ∃ front, (front = [] ∨ front = base) ∧
    operation.path.toList = front ++ Path.relativeTo base operation.path.toList ∧
    Path.template operation.path.toList = front ++ operation.urlTemplate.toList
  /-- The template has the slots of the placeholders, in order. -/
  slots : Path.slots operation.urlTemplate.toList =
    (Path.placeholders operation.path.toList).map Identifier.argument
  /-- Each placeholder is an argument. -/
  arguments : ∀ name ∈ Path.placeholders operation.path.toList,
    String.ofList name ∈ operation.pathParams ∧
    ⟨Identifier.argument name, false, "string".toList⟩ ∈ Module.arguments operation

/-- What an operation has from its path and the base path. -/
structure FromPath (d : Description) (base : List Char) (operation : Operation) : Prop where
  path_mem : operation.path.toList ∈ d.pathTexts
  urlTemplate_eq : operation.urlTemplate.toList =
    Path.template (Path.relativeTo base operation.path.toList)
  placeholders_mem : ∀ name ∈ Path.placeholders (Path.relativeTo base operation.path.toList),
    String.ofList name ∈ operation.pathParams

theorem fromPath_of_mem {d : Description} {operations : List Operation}
    (h : (readAll d base).outcome = .ok operations) (hmem : operation ∈ operations) :
    FromPath d base operation := by
  obtain ⟨i, hi⟩ := List.mem_iff_getElem?.1 hmem
  obtain ⟨entries, fields, original, hdeclares, horiginal, heq, -⟩ :=
    (allNamed_of_ok h).named i operation hi
  have hread := readFrom_of_ok horiginal
  refine ⟨List.mem_map_of_mem (f := fun entry => entry.1.toList) hdeclares.1, ?_, ?_⟩
  · rw [heq]
    show original.urlTemplate.toList = Path.template (Path.relativeTo base original.path.toList)
    rw [hread.urlTemplate_eq, String.toList_ofList, hread.path_eq]
  · intro name hname
    obtain ⟨parameters, hparams⟩ := hread.pathParams_eq
    have : operation.pathParams = original.pathParams := by rw [heq]
    rw [this, hparams]
    exact mem_pathNames.2 (.inr ⟨name, hname, rfl⟩)

theorem mem_arguments {name : List Char} (h : String.ofList name ∈ operation.pathParams) :
    ⟨Identifier.argument name, false, "string".toList⟩ ∈ Module.arguments operation := by
  unfold Module.arguments
  simp only [List.mem_append, List.mem_map]
  refine .inl (.inl (.inl ⟨_, h, ?_⟩))
  rw [String.toList_ofList]

theorem interpolates_iff_not_loses {d : Description}
    (hpath : FromPath d (Path.basePath d.pathTexts) operation) :
    operation.Interpolates (Path.basePath d.pathTexts) ↔
      ¬ Path.Loses (Path.basePath d.pathTexts) operation.path.toList := by
  constructor
  · rintro ⟨⟨front, -, hcut, hurl⟩, -, -⟩ ⟨front', hcut', hopens⟩
    rw [hpath.urlTemplate_eq] at hurl
    have hfront : front' = front := List.append_cancel_right (hcut'.symm.trans hcut)
    rw [hfront] at hopens
    refine Path.template_append_iff.1 ?_ hopens
    rwa [← hcut]
  · intro h
    obtain ⟨front, hcut, hfront⟩ := Path.exists_front hpath.path_mem
    have hclosed := fun hopens => h ⟨front, hcut, hopens⟩
    have hplaceholders := Path.placeholders_append hclosed
    have htemplate := Path.template_append_iff.2 hclosed
    rw [← hcut] at hplaceholders htemplate
    refine ⟨⟨front, hfront, hcut, ?_⟩, ?_, ?_⟩
    · rw [hpath.urlTemplate_eq, htemplate]
    · rw [hpath.urlTemplate_eq, Path.slots_template, hplaceholders]
    · intro name hname
      rw [hplaceholders] at hname
      have hparam := hpath.placeholders_mem name hname
      exact ⟨hparam, mem_arguments hparam⟩

end Operation

namespace Generation

theorem client_of_ok {d : Description} {origin : Option String} {strict : Bool} {s : Sources}
    (h : (generate d origin strict).outcome = .ok s) :
    s.client = Module.client (clientBase origin (Path.basePath d.pathTexts)) := by
  unfold generate at h
  simp only [Trace.bind_eq_ok, Trace.outcome_report, Trace.outcome_pure, Except.ok.injEq,
    exists_const, true_and] at h
  obtain ⟨_, -, _, -, _, -, _, -, rfl⟩ := h
  rfl

/-- **Interpolation**: the base path is written into the client. It holds no placeholder, and every
function fills in all placeholders of its path, exactly when no placeholder begins in it, neither by
itself nor in a path that it is taken off. -/
theorem interpolates_iff {d : Description} {origin : Option String} {strict : Bool} {s : Sources}
    (h : (generate d origin strict).outcome = .ok s) :
    s.client = Module.client (clientBase origin (Path.basePath d.pathTexts)) ∧
    ((Path.placeholders (Path.basePath d.pathTexts) = [] ∧
        ∀ operation ∈ s.operations, operation.Interpolates (Path.basePath d.pathTexts)) ↔
      ¬ Path.Opens (Path.basePath d.pathTexts) [] ∧
        ∀ operation ∈ s.operations,
          ¬ Path.Loses (Path.basePath d.pathTexts) operation.path.toList) := by
  refine ⟨client_of_ok h, and_congr Path.placeholders_eq_nil_iff ?_⟩
  refine forall₂_congr fun operation hoperation => ?_
  exact Operation.interpolates_iff_not_loses
    (Operation.fromPath_of_mem (generated_of_ok h).operations hoperation)

/-- A description of two paths, which are read and nothing else. -/
def reading (first second : String) : Description where
  title := "Reading"
  version := "1"
  openapi := "3.0.3"
  servers := []
  schemas := []
  paths := [(first, [("get", .object [])]), (second, [("get", .object [])])]
  components := []

/-- Placeholders after the base path, one of them inside a segment. -/
def versionLast : Description :=
  reading "/api/users/\x7buser-id\x7d/v\x7bversion\x7d" "/api/pets"

theorem interpolates_iff_reading : ∃ s base,
    (generate versionLast none false).outcome = .ok s ∧
    Path.basePath versionLast.pathTexts = base ∧ base = "/api".toList ∧
    s.operations.map Operation.urlTemplate =
      ["/users/$\x7buserId\x7d/v$\x7bversion\x7d", "/pets"] ∧
    ∀ operation ∈ s.operations, operation.Interpolates base := by
  have hbase : Path.basePath versionLast.pathTexts = "/api".toList := by decide +kernel
  have htemplates : (generate versionLast none false).outcome.toOption.map
      (fun s => s.operations.map Operation.urlTemplate) =
      some ["/users/$\x7buserId\x7d/v$\x7bversion\x7d", "/pets"] := by decide +kernel
  obtain ⟨s, h, htemplates⟩ := exists_of_toOption_map htemplates
  have hbrace : '\x7b' ∉ Path.basePath versionLast.pathTexts := by
    rw [hbase]
    decide
  have hall := (interpolates_iff h).2.2 ⟨Path.not_opens_of_not_mem hbrace, fun operation hmem =>
    Path.not_loses_of_not_mem
      (Operation.fromPath_of_mem (generated_of_ok h).operations hmem).path_mem hbrace⟩
  exact ⟨s, _, h, rfl, hbase, htemplates, hall.2⟩

/-- A placeholder inside a segment that both paths begin with. -/
def versionFirst : Description :=
  reading "/v\x7bversion\x7d/users" "/v\x7bversion\x7d/pets"

/-- A placeholder inside a segment that the paths share is written into the client, and no function
fills it in. -/
theorem not_interpolates_reading : ∃ s operation,
    (generate versionFirst none false).outcome = .ok s ∧
    s.baseUrl = "/v\x7bversion\x7d" ∧ operation ∈ s.operations ∧
    operation.path = "/v\x7bversion\x7d/users" ∧
    Path.placeholders operation.path.toList = ["version".toList] ∧
    Path.slots operation.urlTemplate.toList = [] ∧ operation.pathParams = [] := by
  have hread : (generate versionFirst none false).outcome.toOption.map (fun s =>
      (s.baseUrl, s.operations.map fun operation =>
        (operation.path, operation.urlTemplate, operation.pathParams))) =
      some ("/v\x7bversion\x7d", [("/v\x7bversion\x7d/users", "/users", []),
        ("/v\x7bversion\x7d/pets", "/pets", [])]) := by decide +kernel
  obtain ⟨s, h, hread⟩ := exists_of_toOption_map hread
  obtain ⟨hbase, hoperations⟩ := Prod.mk.inj hread
  obtain ⟨operation, hmem, heq⟩ := List.mem_map.1 (hoperations ▸ List.mem_cons_self)
  obtain ⟨hpath, htemplate, hparams⟩ : operation.path = "/v\x7bversion\x7d/users" ∧
      operation.urlTemplate = "/users" ∧ operation.pathParams = [] := by
    simpa using heq
  refine ⟨s, operation, h, hbase, hmem, hpath, ?_, ?_, hparams⟩
  · rw [hpath]
    decide +kernel
  · rw [htemplate]
    decide +kernel

end Generation

end ApiContract
