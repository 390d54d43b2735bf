import ApiContract.Path

/-!
# The base path

All paths of a description begin with the segments of the base path, and each has a segment more.
So a path whose text begins with the base path goes on after it, and what is relative to it is the
rest.

A path in proper form, a slash before each of its segments and perhaps one at the end, always begins
with the base path, and what is relative to it is in proper form again.

Main facts: `segments_flatMap` (segments written with slashes are read back), `exists_front` (a path
is what the base path takes off and what is relative to it) and `IsPath.eq_basePath_append`.
-/

namespace ApiContract

namespace Path

/-! ## Segments -/

/-- A text that can be a segment. -/
def IsSegment (segment : List Char) : Prop :=
  segment ≠ [] ∧ '/' ∉ segment

instance (segment : List Char) : Decidable (IsSegment segment) :=
  inferInstanceAs (Decidable (_ ∧ _))

theorem isSegment_of_mem {path segment : List Char} (h : segment ∈ segments path) :
    IsSegment segment := by
  obtain ⟨hpiece, hne⟩ := List.mem_filter.1 h
  refine ⟨by simpa using hne, fun hslash => ?_⟩
  have := Text.not_mem_of_mem_pieces hpiece '/' hslash
  simp at this

theorem segments_append_slash (before after : List Char) :
    segments (before ++ '/' :: after) = segments before ++ segments after := by
  rw [segments, Text.piecesAt, Text.pieces_append_cons (by simp), List.filter_append]
  rfl

theorem segments_slash (after : List Char) : segments ('/' :: after) = segments after :=
  segments_append_slash [] after

theorem segments_of_isSegment {segment : List Char} (h : IsSegment segment) :
    segments segment = [segment] := by
  have hplain : ∀ c ∈ segment, (c == '/') = false := fun c hc =>
    beq_eq_false_iff_ne.2 fun heq => h.2 (heq ▸ hc)
  rw [segments, Text.piecesAt, Text.pieces_of_forall hplain]
  simp [h.1]

theorem segments_flatMap {path : List (List Char)} (h : ∀ segment ∈ path, IsSegment segment) :
    segments (path.flatMap ('/' :: ·)) = path := by
  induction path with
  | nil => rfl
  | cons segment path ih =>
    obtain ⟨hsegment, hpath⟩ := List.forall_mem_cons.1 h
    have hfirst : segments ('/' :: segment) = [segment] := by
      rw [segments_slash, segments_of_isSegment hsegment]
    cases path with
    | nil => simpa using hfirst
    | cons next rest =>
      have hrest := ih hpath
      rw [List.flatMap_cons, List.cons_append, segments_slash] at hrest
      have hcut := segments_append_slash ('/' :: segment) (next ++ rest.flatMap ('/' :: ·))
      rw [hfirst, hrest] at hcut
      exact hcut

/-- A text of segments with slashes before them does not end in a slash. -/
theorem getLast?_flatMap {path : List (List Char)} (h : ∀ segment ∈ path, IsSegment segment) :
    ∀ c ∈ (path.flatMap ('/' :: ·)).getLast?, (c == '/') = false := by
  rcases List.eq_nil_or_concat path with rfl | ⟨front, last, rfl⟩
  · intro c hc
    cases hc
  · rw [List.concat_eq_append] at h ⊢
    obtain ⟨hne, hslash⟩ := h last (List.mem_append_right front List.mem_cons_self)
    rcases List.eq_nil_or_concat last with rfl | ⟨init, d, rfl⟩
    · exact absurd rfl hne
    · intro c hc
      rw [List.concat_eq_append] at hc hslash
      have htext : (front ++ [init ++ [d]]).flatMap ('/' :: ·) =
          (front.flatMap ('/' :: ·) ++ '/' :: init) ++ [d] := by simp
      rw [htext, List.getLast?_concat, Option.mem_some_iff] at hc
      refine beq_eq_false_iff_ne.2 fun heq => hslash ?_
      rw [← heq, ← hc]
      exact List.mem_append_right init List.mem_cons_self

/-! ## Shared segments -/

/-- All paths begin with what is shared. -/
theorem prefix_foldl_commonStart (others : List (List (List Char))) (first : List (List Char)) :
    ∀ path ∈ first :: others, others.foldl commonStart first <+: path := by
  induction others generalizing first with
  | nil =>
    intro path hpath
    rw [List.mem_singleton] at hpath
    rw [hpath]
    exact List.prefix_rfl
  | cons next rest ih =>
    intro path hpath
    have hshared := ih (commonStart first next)
    rw [List.foldl_cons]
    rcases List.mem_cons.1 hpath with rfl | hpath
    · exact (hshared _ List.mem_cons_self).trans (commonStart_prefix_left path next)
    · rcases List.mem_cons.1 hpath with rfl | hpath
      · exact (hshared _ List.mem_cons_self).trans (commonStart_prefix_right first path)
      · exact hshared path (List.mem_cons_of_mem _ hpath)

theorem foldl_min_le (others : List Nat) (first : Nat) :
    ∀ n ∈ first :: others, others.foldl min first ≤ n := by
  induction others generalizing first with
  | nil => simp
  | cons next rest ih =>
    intro n hn
    have hmin := ih (min first next)
    rw [List.foldl_cons]
    rcases List.mem_cons.1 hn with rfl | hn
    · exact Nat.le_trans (hmin _ List.mem_cons_self) (Nat.min_le_left _ _)
    · rcases List.mem_cons.1 hn with rfl | hn
      · exact Nat.le_trans (hmin _ List.mem_cons_self) (Nat.min_le_right _ _)
      · exact hmin n (List.mem_cons_of_mem _ hn)

/-- Each path has a segment more than all paths share. -/
theorem length_sharedSegments_le {paths : List (List (List Char))} {path : List (List Char)}
    (h : path ∈ paths) : (sharedSegments paths).length ≤ path.length - 1 := by
  cases paths with
  | nil => cases h
  | cons first others =>
    have hshortest : (others.map List.length).foldl min first.length ≤ path.length :=
      foldl_min_le _ _ _ (List.mem_map_of_mem (f := List.length) h)
    rw [sharedSegments, List.length_take]
    omega

/-- Each path begins with the segments that all paths share. -/
theorem prefix_sharedSegments {paths : List (List (List Char))} {path : List (List Char)}
    (h : path ∈ paths) : sharedSegments paths <+: path := by
  cases paths with
  | nil => cases h
  | cons first others =>
    have hshared := prefix_foldl_commonStart others first path h
    rw [sharedSegments]
    exact (List.take_prefix _ _).trans ((List.takeWhile_prefix _).trans hshared)

theorem mem_of_mem_sharedSegments {paths : List (List (List Char))} {segment : List Char}
    (h : segment ∈ sharedSegments paths) : ∃ path ∈ paths, segment ∈ path := by
  cases paths with
  | nil => cases h
  | cons first others =>
    exact ⟨first, List.mem_cons_self, (prefix_sharedSegments List.mem_cons_self).subset h⟩

/-! ## The base path -/

theorem basePath_eq (paths : List (List Char)) : ∃ shared : List (List Char),
    basePath paths = shared.flatMap ('/' :: ·) ∧ (∀ segment ∈ shared, IsSegment segment) ∧
    ∀ path ∈ paths, shared <+: segments path ∧
      shared.length ≤ (segments path).length - 1 := by
  unfold basePath
  split
  · exact ⟨[], rfl, fun _ h => absurd h List.not_mem_nil,
      fun _ _ => ⟨List.nil_prefix, Nat.zero_le _⟩⟩
  · refine ⟨_, rfl, fun segment hsegment => ?_, fun path hpath =>
      ⟨prefix_sharedSegments (List.mem_map_of_mem hpath),
        length_sharedSegments_le (List.mem_map_of_mem hpath)⟩⟩
    obtain ⟨_, hpath, hmem⟩ := mem_of_mem_sharedSegments hsegment
    obtain ⟨path, -, rfl⟩ := List.mem_map.1 hpath
    exact isSegment_of_mem hmem

/-- A path is more than the base path. -/
theorem ne_basePath {paths : List (List Char)} {path : List Char} (h : path ∈ paths)
    (hne : basePath paths ≠ []) : path ≠ basePath paths := by
  obtain ⟨shared, heq, hsegments, hshared⟩ := basePath_eq paths
  intro hpath
  have hless := (hshared path h).2
  rw [hpath, heq, segments_flatMap hsegments] at hless
  have hnil : shared = [] := List.eq_nil_of_length_eq_zero (by omega)
  rw [heq, hnil] at hne
  exact hne rfl

theorem dropEndWhile_basePath (paths : List (List Char)) :
    Text.dropEndWhile (· == '/') (basePath paths) = basePath paths := by
  obtain ⟨shared, heq, hsegments, -⟩ := basePath_eq paths
  rw [heq]
  exact Text.dropEndWhile_eq_self (getLast?_flatMap hsegments)

/-- A path is what the base path takes off it, which is nothing or the base path, and what is
relative to it. -/
theorem exists_front {paths : List (List Char)} {path : List Char} (h : path ∈ paths) :
    ∃ front, path = front ++ relativeTo (basePath paths) path ∧
      (front = [] ∨ front = basePath paths) := by
  unfold relativeTo
  rw [dropEndWhile_basePath]
  dsimp only
  split
  · next hcut =>
    obtain ⟨rest, rfl⟩ := List.isPrefixOf_iff_prefix.1 hcut.2
    rw [List.drop_left]
    cases rest with
    | nil =>
      rw [List.append_nil] at h
      exact absurd rfl (ne_basePath h hcut.1)
    | cons c rest =>
      split
      · next hnil => cases hnil
      · next heq =>
        rw [heq]
        exact ⟨_, rfl, .inr rfl⟩
      · exact ⟨[], rfl, .inl rfl⟩
  · exact ⟨[], rfl, .inl rfl⟩

/-! ## Paths in proper form -/

/-- A path with a slash before each of its segments, of which there is at least one, and with at
most one slash after the last. -/
def IsPath (path : List Char) : Prop :=
  ∃ parts : List (List Char), parts ≠ [] ∧ (∀ part ∈ parts, IsSegment part) ∧
    (path = parts.flatMap ('/' :: ·) ∨ path = parts.flatMap ('/' :: ·) ++ ['/'])

theorem segments_of_slashes {parts : List (List Char)} {path : List Char}
    (hparts : ∀ part ∈ parts, IsSegment part)
    (hpath : path = parts.flatMap ('/' :: ·) ∨ path = parts.flatMap ('/' :: ·) ++ ['/']) :
    segments path = parts := by
  rcases hpath with rfl | rfl
  · exact segments_flatMap hparts
  · rw [segments_append_slash, segments_flatMap hparts]
    exact List.append_nil parts

namespace IsPath

variable {path : List Char}

theorem segments_ne_nil (h : IsPath path) : segments path ≠ [] := by
  obtain ⟨parts, hne, hparts, hpath⟩ := h
  rwa [segments_of_slashes hparts hpath]

theorem head?_eq (h : IsPath path) : path.head? = some '/' := by
  obtain ⟨parts, hne, -, hpath⟩ := h
  obtain ⟨first, others, rfl⟩ := List.exists_cons_of_ne_nil hne
  rcases hpath with rfl | rfl
  · rfl
  · rfl

/-- Segments less than all can be taken off a path. -/
theorem exists_rest (h : IsPath path) {shared : List (List Char)}
    (hshared : shared <+: segments path) (hlength : shared.length ≤ (segments path).length - 1) :
    ∃ rest, path = shared.flatMap ('/' :: ·) ++ rest ∧ IsPath rest := by
  have hne := h.segments_ne_nil
  obtain ⟨parts, -, hparts, hpath⟩ := h
  have hsegments := segments_of_slashes hparts hpath
  rw [hsegments] at hshared hlength hne
  obtain ⟨own, rfl⟩ := hshared
  have hown : own ≠ [] := by
    rintro rfl
    have hpos := List.length_pos_iff.2 hne
    simp only [List.append_nil] at hlength hpos
    omega
  have hownparts : ∀ part ∈ own, IsSegment part := fun part hpart =>
    hparts part (List.mem_append_right shared hpart)
  rw [List.flatMap_append] at hpath
  rcases hpath with rfl | rfl
  · exact ⟨_, rfl, own, hown, hownparts, .inl rfl⟩
  · exact ⟨_, List.append_assoc .., own, hown, hownparts, .inr rfl⟩

/-- A path begins with the base path, and what is relative to it is a path. -/
theorem eq_basePath_append {paths : List (List Char)} (hmem : path ∈ paths) (h : IsPath path) :
    path = basePath paths ++ relativeTo (basePath paths) path ∧
      IsPath (relativeTo (basePath paths) path) := by
  obtain ⟨shared, heq, -, hshared⟩ := basePath_eq paths
  obtain ⟨hbegin, hlength⟩ := hshared path hmem
  obtain ⟨rest, hcut, hrest⟩ := h.exists_rest hbegin hlength
  have hrelative : relativeTo (basePath paths) path = rest := by
    unfold relativeTo
    rw [dropEndWhile_basePath, heq, hcut]
    dsimp only
    split
    · rw [List.drop_left]
      cases rest with
      | nil => cases hrest.head?_eq
      | cons c rest =>
        cases hrest.head?_eq
        rfl
    · next hnot =>
      have hnil : shared.flatMap ('/' :: ·) = [] := by
        apply Classical.byContradiction
        intro hne
        exact hnot ⟨hne, List.isPrefixOf_iff_prefix.2 (List.prefix_append _ _)⟩
      rw [hnil, List.nil_append]
  rw [hrelative, heq]
  exact ⟨hcut, hrest⟩

end IsPath

end Path

end ApiContract
