import ApiContract.Proofs.Generation.Interpolation

/-!
# The address of a request

The base path is computed from all paths, written into the client after the origin, and taken off
every path before its template is written. The client puts the two together again: the address that
it requests is the origin and the path of the description, for every path in proper form.

Main facts: `exists_origin` (what the client writes before the base path) and `address_restored`.
-/

namespace ApiContract.Generation

/-- What the base URL of a generation is put together from. -/
theorem baseUrl_of_ok {d : Description} {origin : Option String} {strict : Bool} {s : Sources}
    (h : (generate d origin strict).outcome = .ok s) :
    s.baseUrl = clientBase origin (Path.basePath d.pathTexts) := by
  unfold generate at h
  simp only [Trace.bind_eq_ok, Trace.outcome_report, Trace.outcome_pure, Except.ok.injEq,
    exists_const, true_and] at h
  obtain ⟨_, -, _, -, _, -, _, -, rfl⟩ := h
  rfl

/-- A text without the slashes at its end. -/
def Trimmed (text trimmed : List Char) : Prop :=
  ∃ n, text = trimmed ++ List.replicate n '/' ∧ trimmed.getLast? ≠ some '/'

theorem trimmed_dropEndWhile (text : List Char) :
    Trimmed text (Text.dropEndWhile (· == '/') text) := by
  have hslashes : ∀ c ∈ text.reverse.takeWhile (· == '/'), c = '/' := by
    intro c hc
    exact eq_of_beq (List.all_eq_true.1 (List.all_takeWhile (l := text.reverse)) c hc)
  refine ⟨(text.reverse.takeWhile (· == '/')).length, ?_, ?_⟩
  · have hcut : text = (text.reverse.dropWhile (· == '/')).reverse ++
        (text.reverse.takeWhile (· == '/')).reverse := by
      rw [← List.reverse_append, List.takeWhile_append_dropWhile, List.reverse_reverse]
    rw [← List.reverse_replicate, ← List.eq_replicate_of_mem hslashes]
    exact hcut
  · rw [Text.dropEndWhile, List.getLast?_reverse]
    intro hhead
    have hnot := List.head?_dropWhile_not (· == '/') text.reverse
    rw [hhead] at hnot
    cases hnot

/-- The base URL is the origin without slashes at its end, and the base path after it. -/
theorem exists_origin {d : Description} {origin : Option String} {strict : Bool} {s : Sources}
    (h : (generate d origin strict).outcome = .ok s) :
    ∃ trimmed, Trimmed (origin.getD "").toList trimmed ∧
      s.baseUrl.toList = trimmed ++ Path.basePath d.pathTexts := by
  refine ⟨_, trimmed_dropEndWhile _, ?_⟩
  rw [baseUrl_of_ok h, clientBase, String.toList_ofList]

/-- The functions of a path request it below the base URL: `relative` is what is left of it there,
and with the base URL before it, it is the path below the origin. -/
structure Restored (s : Sources) (trimmed path relative : List Char) : Prop where
  head?_eq : relative.head? = some '/'
  segments_ne_nil : Path.segments relative ≠ []
  url : s.baseUrl.toList ++ relative = trimmed ++ path
  templates : ∀ operation ∈ s.operations, operation.path.toList = path →
    Path.Rewritten relative operation.urlTemplate.toList

/-- **The address of a request**: where all paths are in proper form, what the base path leaves of
a path is in proper form again, the base URL and this rest are the origin and the path, and the
template of every operation on the path is the rest with its placeholders rewritten. -/
theorem address_restored {d : Description} {origin : Option String} {strict : Bool} {s : Sources}
    (hpaths : ∀ path ∈ d.pathTexts, Path.IsPath path)
    (h : (generate d origin strict).outcome = .ok s) :
    ∃ trimmed, Trimmed (origin.getD "").toList trimmed ∧ ∀ path ∈ d.pathTexts,
      Restored s trimmed path (Path.relativeTo (Path.basePath d.pathTexts) path) := by
  obtain ⟨trimmed, htrimmed, hbase⟩ := exists_origin h
  refine ⟨trimmed, htrimmed, fun path hpath => ?_⟩
  obtain ⟨hcut, hrelative⟩ := (hpaths path hpath).eq_basePath_append hpath
  refine ⟨hrelative.head?_eq, hrelative.segments_ne_nil, ?_, ?_⟩
  · rw [hbase, List.append_assoc, ← hcut]
  · intro operation hoperation heq
    have hread := Operation.fromPath_of_mem (generated_of_ok h).operations hoperation
    rw [hread.urlTemplate_eq, heq]
    exact Path.rewritten_template _

/-- Paths that share segments and a piece of one more, one of them with a slash at its end. -/
def versions : Description :=
  reading "/api/v1/users/\x7bid\x7d/" "/api/v10"

theorem address_restored_versions :
    (∀ path ∈ versions.pathTexts, Path.IsPath path) ∧ ∃ s,
      (generate versions (some "https://host//") false).outcome = .ok s ∧
      s.baseUrl = "https://host/api" ∧
      s.operations.map Operation.urlTemplate = ["/v1/users/$\x7bid\x7d/", "/v10"] ∧
      Restored s "https://host".toList "/api/v1/users/\x7bid\x7d/".toList
        "/v1/users/\x7bid\x7d/".toList := by
  have hpaths : ∀ path ∈ versions.pathTexts, Path.IsPath path := by
    have hsegment : ∀ part ∈ ["api".toList, "v1".toList, "users".toList, "\x7bid\x7d".toList,
        "v10".toList], Path.IsSegment part := by
      decide
    intro path hpath
    rcases List.mem_cons.1 hpath with rfl | hpath
    · exact ⟨["api".toList, "v1".toList, "users".toList, "\x7bid\x7d".toList], by decide,
        fun part hpart => hsegment part (by revert hpart; simp; tauto), .inr (by decide)⟩
    · rw [List.mem_singleton.1 hpath]
      exact ⟨["api".toList, "v10".toList], by decide,
        fun part hpart => hsegment part (by revert hpart; simp; tauto), .inl (by decide)⟩
  have hread : (generate versions (some "https://host//") false).outcome.toOption.map (fun s =>
      (s.baseUrl, s.operations.map Operation.urlTemplate)) =
      some ("https://host/api", ["/v1/users/$\x7bid\x7d/", "/v10"]) := by decide +kernel
  obtain ⟨s, h, hread⟩ := exists_of_toOption_map hread
  obtain ⟨hbase, htemplates⟩ := Prod.mk.inj hread
  obtain ⟨trimmed, -, hall⟩ := address_restored hpaths h
  have hrelative : Path.relativeTo (Path.basePath versions.pathTexts)
      "/api/v1/users/\x7bid\x7d/".toList = "/v1/users/\x7bid\x7d/".toList := by decide +kernel
  have hpath := hall "/api/v1/users/\x7bid\x7d/".toList List.mem_cons_self
  rw [hrelative] at hpath
  have htrimmed : trimmed = "https://host".toList := by
    refine List.append_cancel_right (hpath.url.symm.trans ?_)
    rw [hbase]
    decide
  rw [htrimmed] at hpath
  exact ⟨hpaths, s, h, hbase, htemplates, hpath⟩

end ApiContract.Generation
