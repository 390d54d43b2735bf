import ApiContract.Proofs.Path.Base

/-!
# The longest base path

Segments can be taken off all paths if every path begins with them, none of them is in braces, and
every path has one more. Of two such lists one begins with the other, so there is a longest, and it
is the base path of two or more paths. Which segments these are depends on which paths there are
only, not on their order or on how often each is listed. A path that is listed twice makes two,
though, so listing the only path again can give a base path where there was none.

Main facts: `isLongest_sharedSegments`, `basePath_longest` and `basePath_listed_again`.
-/

namespace ApiContract.Path

/-- A segment that begins with an opening brace and ends with a closing one. -/
def InBraces (segment : List Char) : Prop :=
  ['\x7b'] <+: segment ∧ ['\x7d'] <:+ segment

/-- Segments that can be taken off all paths. -/
structure IsShared (paths : List (List (List Char))) (shared : List (List Char)) : Prop where
  begins : ∀ path ∈ paths, shared <+: path
  free : ∀ segment ∈ shared, ¬ InBraces segment
  shorter : shared = [] ∨ ∀ path ∈ paths, shared.length < path.length

/-- The segments that can be taken off all paths and with which all others of the kind begin. -/
structure IsLongest (paths : List (List (List Char))) (shared : List (List Char)) : Prop
    extends IsShared paths shared where
  longest : ∀ other, IsShared paths other → other <+: shared

theorem isSlot_iff {segment : List Char} : isSlot segment ↔ InBraces segment := by
  rw [isSlot, Bool.and_eq_true, beq_iff_eq, beq_iff_eq, List.head?_eq_some_iff,
    List.getLast?_eq_some_iff]
  refine and_congr (exists_congr fun rest => ?_) (exists_congr fun rest => ?_)
  · exact eq_comm
  · exact eq_comm

/-! ## What all paths begin with -/

theorem prefix_commonStart {α : Type} [DecidableEq α] {other as bs : List α} (has : other <+: as)
    (hbs : other <+: bs) : other <+: commonStart as bs := by
  induction other generalizing as bs with
  | nil => exact List.nil_prefix
  | cons a other ih =>
    obtain ⟨as, rfl⟩ := has
    obtain ⟨bs, rfl⟩ := hbs
    rw [List.cons_append, List.cons_append, commonStart, if_pos rfl]
    exact List.cons_prefix_cons.2 ⟨rfl, ih (List.prefix_append _ _) (List.prefix_append _ _)⟩

theorem prefix_foldl_of_forall {others : List (List (List Char))} {first other : List (List Char)}
    (h : ∀ path ∈ first :: others, other <+: path) : other <+: others.foldl commonStart first := by
  induction others generalizing first with
  | nil => exact h first List.mem_cons_self
  | cons next rest ih =>
    obtain ⟨hfirst, h⟩ := List.forall_mem_cons.1 h
    obtain ⟨hnext, hrest⟩ := List.forall_mem_cons.1 h
    exact ih (List.forall_mem_cons.2 ⟨prefix_commonStart hfirst hnext, hrest⟩)

theorem prefix_takeWhile {α : Type} {p : α → Bool} {other as : List α} (h : other <+: as)
    (hp : ∀ a ∈ other, p a) : other <+: as.takeWhile p := by
  obtain ⟨rest, rfl⟩ := h
  rw [List.takeWhile_append_of_pos hp]
  exact List.prefix_append _ _

theorem le_foldl_min {others : List Nat} {first n : Nat} (h : ∀ m ∈ first :: others, n ≤ m) :
    n ≤ others.foldl min first := by
  induction others generalizing first with
  | nil => exact h first List.mem_cons_self
  | cons next rest ih =>
    obtain ⟨hfirst, h⟩ := List.forall_mem_cons.1 h
    obtain ⟨hnext, hrest⟩ := List.forall_mem_cons.1 h
    exact ih (List.forall_mem_cons.2 ⟨Nat.le_min.2 ⟨hfirst, hnext⟩, hrest⟩)

/-! ## Shared segments -/

theorem not_inBraces_of_mem_sharedSegments {paths : List (List (List Char))}
    {segment : List Char} (h : segment ∈ sharedSegments paths) : ¬ InBraces segment := by
  cases paths with
  | nil => cases h
  | cons first others =>
    have hfree := List.all_eq_true.1 (List.all_takeWhile (p := fun s => !isSlot s)
      (l := others.foldl commonStart first)) segment (List.mem_of_mem_take h)
    rw [← isSlot_iff]
    simpa using hfree

theorem isShared_sharedSegments (paths : List (List (List Char))) :
    IsShared paths (sharedSegments paths) := by
  refine ⟨fun _ => prefix_sharedSegments, fun _ => not_inBraces_of_mem_sharedSegments, ?_⟩
  by_cases hnil : sharedSegments paths = []
  · exact .inl hnil
  · refine .inr fun path hpath => ?_
    have hlength := length_sharedSegments_le hpath
    have hpos := List.length_pos_iff.2 hnil
    omega

/-- What can be taken off all paths is among what is taken off them. -/
theorem IsShared.prefix_sharedSegments {paths : List (List (List Char))}
    {other : List (List Char)} (h : IsShared paths other) (hpaths : paths ≠ []) :
    other <+: sharedSegments paths := by
  obtain ⟨first, others, rfl⟩ := List.exists_cons_of_ne_nil hpaths
  have hplain : ∀ segment ∈ other, (!isSlot segment) = true := by
    intro segment hsegment
    have := h.free segment hsegment
    rw [← isSlot_iff] at this
    simpa using this
  refine List.prefix_take_iff.2 ⟨prefix_takeWhile (prefix_foldl_of_forall h.begins) hplain, ?_⟩
  rcases h.shorter with rfl | hshorter
  · exact Nat.zero_le _
  · have hshortest : other.length + 1 ≤ (others.map List.length).foldl min first.length := by
      refine le_foldl_min fun n hn => ?_
      rw [← List.map_cons (f := List.length)] at hn
      obtain ⟨path, hpath, rfl⟩ := List.mem_map.1 hn
      exact hshorter path hpath
    exact Nat.le_sub_of_add_le hshortest

theorem isLongest_sharedSegments {paths : List (List (List Char))} (h : paths ≠ []) :
    IsLongest paths (sharedSegments paths) :=
  ⟨isShared_sharedSegments paths, fun _ hother => hother.prefix_sharedSegments h⟩

/-! ## Order and repetition -/

theorem IsShared.congr {paths others : List (List (List Char))} {shared : List (List Char)}
    (hmem : ∀ path, path ∈ others ↔ path ∈ paths) (h : IsShared paths shared) :
    IsShared others shared :=
  ⟨fun path hpath => h.begins path ((hmem path).1 hpath), h.free,
    h.shorter.imp_right fun hshorter path hpath => hshorter path ((hmem path).1 hpath)⟩

/-- The longest shared segments are the same for paths in another order or listed more often. -/
theorem IsLongest.eq {paths others : List (List (List Char))} {shared shared' : List (List Char)}
    (h : IsLongest paths shared) (h' : IsLongest others shared')
    (hmem : ∀ path, path ∈ others ↔ path ∈ paths) : shared' = shared := by
  have hfirst : shared <+: shared' := h'.longest shared (h.toIsShared.congr hmem)
  have hsecond : shared' <+: shared :=
    h.longest shared' (h'.toIsShared.congr fun path => (hmem path).symm)
  exact hsecond.eq_of_length (Nat.le_antisymm hsecond.length_le hfirst.length_le)

/-! ## The base path -/

theorem flatMap_slash_eq (shared : List (List Char)) :
    shared.flatMap ('/' :: ·) = if shared = [] then [] else '/' :: Text.join ['/'] shared := by
  induction shared with
  | nil => rfl
  | cons segment rest ih =>
    rw [List.flatMap_cons, ih, if_neg (List.cons_ne_nil _ _)]
    cases rest with
    | nil => simp [Text.join]
    | cons next rest => simp [Text.join]

theorem exists_basePath_eq {paths : List (List Char)} (h : 2 ≤ paths.length) :
    ∃ shared, IsLongest (paths.map segments) shared ∧
      basePath paths = if shared = [] then [] else '/' :: Text.join ['/'] shared := by
  have hne : paths.map segments ≠ [] := by
    rintro hnil
    rw [List.map_eq_nil_iff.1 hnil] at h
    cases h
  refine ⟨_, isLongest_sharedSegments hne, ?_⟩
  rw [basePath, if_neg (Nat.not_lt.2 h), flatMap_slash_eq]

/-- **The longest base path**: fewer than two paths have no base path. The base path of two or more
is the longest list of segments that can be taken off all of them, written with a slash before each.
It depends on which paths there are, and on whether they are fewer than two, but neither on their
order nor on how often each is listed. -/
theorem basePath_longest (paths : List (List Char)) :
    (paths.length < 2 → basePath paths = []) ∧
    (2 ≤ paths.length → ∃ shared, IsLongest (paths.map segments) shared ∧
      basePath paths = if shared = [] then [] else '/' :: Text.join ['/'] shared) ∧
    ∀ others : List (List Char), (∀ path, path ∈ others ↔ path ∈ paths) →
      (others.length < 2 ↔ paths.length < 2) → basePath others = basePath paths := by
  refine ⟨fun h => if_pos h, exists_basePath_eq, fun others hmem hfew => ?_⟩
  by_cases hpaths : paths.length < 2
  · rw [basePath, basePath, if_pos hpaths, if_pos (hfew.2 hpaths)]
  · obtain ⟨shared, hlongest, heq⟩ := exists_basePath_eq (Nat.not_lt.1 hpaths)
    obtain ⟨shared', hlongest', heq'⟩ :=
      exists_basePath_eq (Nat.not_lt.1 fun h => hpaths (hfew.1 h))
    have hsegments : ∀ path, path ∈ others.map segments ↔ path ∈ paths.map segments := by
      intro path
      simp only [List.mem_map, hmem]
    rw [heq, heq', hlongest.eq hlongest' hsegments]

/-- Paths of different lengths, the second with empty segments. -/
def nested : List (List Char) := ["/api/v1/users".toList, "/api//v1/".toList]

/-- The base path of two paths, which is the same in another order and with one of them twice; and
that of one path listed twice, which is the same when it is listed a third time. -/
theorem basePath_longest_nested : (∃ shared, IsLongest (nested.map segments) shared ∧
      basePath nested = (if shared = [] then [] else '/' :: Text.join ['/'] shared) ∧
      shared = ["api".toList] ∧
      basePath ["/api//v1/".toList, "/api/v1/users".toList, "/api//v1/".toList] =
        basePath nested) ∧
    basePath ["/a/b".toList, "/a/b".toList] = "/a".toList ∧
    basePath ["/a/b".toList, "/a/b".toList, "/a/b".toList] =
      basePath ["/a/b".toList, "/a/b".toList] := by
  obtain ⟨-, hlongest, hsame⟩ := basePath_longest nested
  obtain ⟨shared, hshared, heq⟩ := hlongest (by decide)
  have hmodel : IsLongest (nested.map segments) (sharedSegments (nested.map segments)) :=
    isLongest_sharedSegments (by decide)
  have hapi : shared = ["api".toList] := by
    rw [hmodel.eq hshared fun _ => Iff.rfl]
    decide +kernel
  have horder : ∀ path, path ∈ ["/api//v1/".toList, "/api/v1/users".toList, "/api//v1/".toList] ↔
      path ∈ nested := by
    intro path
    simp only [nested, List.mem_cons, List.not_mem_nil, or_false]
    rw [or_comm, or_assoc, or_self]
  refine ⟨⟨shared, hshared, heq, hapi, hsame _ horder (by decide)⟩, by decide +kernel, ?_⟩
  exact (basePath_longest ["/a/b".toList, "/a/b".toList]).2.2 _ (fun path => by simp) (by decide)

/-- One path has no base path, but listed twice it has: there repetition counts. -/
theorem basePath_listed_again :
    let once := ["/a/b".toList]
    let twice := ["/a/b".toList, "/a/b".toList]
    (∀ path, path ∈ twice ↔ path ∈ once) ∧ basePath once = [] ∧ basePath twice = "/a".toList :=
  ⟨fun path => by simp, by decide +kernel, by decide +kernel⟩

end ApiContract.Path
