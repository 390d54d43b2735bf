import ApiContract.Proofs.Files.Place

/-!
# Making directories

What `makeDirectories` leaves, whether it succeeds or fails half-way: directories of the path where
nothing was, and everything else as before (`Grows`). One directory is made at a time
(`ensureDirectory_cases`), and a directory that is made stays, so the steps add up.

Main facts: `grows_makeDirectories`, `present_of_makeDirectories` (after a success the directory is
there), `makeDirectories_of_present` (a directory that is there is not made again) and
`eq_of_makeDirectories_zeroCharacter` (a name that no file can have stops it at once).
-/

namespace ApiContract

@[simp] theorem FilePath.way_child (path : FilePath) (name : String) :
    (path.child name).way = path.way ++ [path.place.step name] := by
  rw [FilePath.way, FilePath.passed_child, FilePath.place_child]

namespace Files

/-- The places that a path leads through where nothing is. -/
def missing (files : Files) (path : FilePath) : List Location :=
  path.way.filter fun place => (files.get? place).isNone

/-- New directories are at some of the places, where nothing was, and all else is as before. -/
def Grows (places : List Location) (before after : Files) : Prop :=
  ∀ p, after.get? p = before.get? p ∨
    p ∈ places ∧ before.get? p = none ∧ after.get? p = some .directory

namespace Grows

variable {places : List Location} {before mid after : Files}

theorem refl (places : List Location) (files : Files) : Grows places files files :=
  fun _ => .inl rfl

theorem trans (h : Grows places before mid) (h' : Grows places mid after) :
    Grows places before after := by
  intro p
  obtain hsame | ⟨hp, hnone, hmade⟩ := h p
  · rw [← hsame]
    exact h' p
  · obtain hsame | ⟨-, hnone', -⟩ := h' p
    · exact .inr ⟨hp, hnone, hsame.trans hmade⟩
    · rw [hmade] at hnone'
      cases hnone'

theorem mono {others : List Location} (h : Grows places before after)
    (hsub : ∀ p ∈ places, p ∈ others) : Grows others before after :=
  fun p => (h p).imp_right fun hp => ⟨hsub p hp.1, hp.2⟩

theorem keeps (h : Grows places before after) {p : Location} {entry : Entry}
    (hp : before.get? p = some entry) : after.get? p = some entry := by
  obtain hsame | ⟨-, hnone, -⟩ := h p
  · rw [hsame, hp]
  · rw [hp] at hnone
    cases hnone

theorem set {files : Files} {place : Location} (h : files.get? place = none) :
    Grows [place] files (files.set place .directory) := by
  intro p
  by_cases hp : p = place
  · subst hp
    exact .inr ⟨List.mem_cons_self, h, get?_set_of_free (by simp [h]) .directory⟩
  · exact .inl (get?_set_of_ne files hp .directory)

end Grows

section
variable {files after : Files} {path : FilePath}

/-! ## One directory -/

theorem newPlace_eq_ok {place : Location} (h : files.newPlace path = .ok place) :
    files.Reaches path ∧ path.place = place := by
  obtain ⟨hreaches, h⟩ := locate_bind_eq_ok_iff.1 h
  split at h
  · cases h
  · exact ⟨hreaches, Except.ok.inj h⟩

theorem makeDirectory_eq_ok (h : files.makeDirectory path = .ok after) :
    files.Reaches path ∧ files.get? path.place = none ∧
      after = files.set path.place .directory := by
  unfold makeDirectory at h
  obtain ⟨place, hplace, h⟩ := Except.bind_eq_ok.1 h
  obtain ⟨hreaches, rfl⟩ := newPlace_eq_ok hplace
  split at h
  · cases h
  · next hnone =>
    cases h
    exact ⟨hreaches, hnone, rfl⟩

theorem makeDirectory_of_present (h : files.Present path) :
    files.makeDirectory path = .error .alreadyThere := by
  obtain ⟨hreaches, hplace⟩ := present_iff.1 h
  unfold makeDirectory newPlace
  rw [locate_of_reaches hreaches]
  simp only [bind, Except.bind]
  split
  · next heq =>
    split at heq
    · cases heq
      rfl
    · cases heq
  · next heq =>
    split at heq
    · cases heq
    · cases heq
      rw [hplace]

/-- A directory is there, or it is made where nothing is, or nothing happens. -/
theorem ensureDirectory_cases {result : Files × Except Fault Unit}
    (h : files.ensureDirectory path = result) :
    (∃ fault, result = (files, .error fault)) ∨
      (files.Present path ∧ result = (files, .ok ())) ∨
      (files.Reaches path ∧ files.get? path.place = none ∧
        result = (files.set path.place .directory, .ok ())) := by
  subst h
  unfold ensureDirectory
  split
  · next made hmade =>
    obtain ⟨hreaches, hnone, rfl⟩ := makeDirectory_eq_ok hmade
    exact .inr (.inr ⟨hreaches, hnone, rfl⟩)
  · next fault hfault =>
    split
    · next hthere => exact .inr (.inl ⟨isDirectory_eq_true_iff.1 hthere, rfl⟩)
    · exact .inl ⟨_, rfl⟩
    · exact .inl ⟨_, rfl⟩

theorem ensureDirectory_of_present (h : files.Present path) :
    files.ensureDirectory path = (files, .ok ()) := by
  unfold ensureDirectory
  rw [makeDirectory_of_present h, isDirectory_eq_true_iff.2 h]

theorem grows_ensureDirectory {outcome : Except Fault Unit}
    (h : files.ensureDirectory path = (after, outcome)) : Grows path.way files after := by
  obtain ⟨fault, heq⟩ | ⟨-, heq⟩ | ⟨-, hnone, heq⟩ := ensureDirectory_cases h <;> cases heq
  · exact .refl _ _
  · exact .refl _ _
  · exact (Grows.set hnone).mono fun p hp => List.mem_singleton.1 hp ▸ path.place_mem_way

theorem present_of_ensureDirectory (h : files.ensureDirectory path = (after, .ok ())) :
    after.Present path := by
  obtain ⟨fault, heq⟩ | ⟨hpresent, heq⟩ | ⟨hreaches, hnone, heq⟩ := ensureDirectory_cases h
  · cases heq
  · cases heq
    exact hpresent
  · cases heq
    have hgrows := Grows.set hnone
    exact present_iff.2 ⟨hreaches.mono fun p hp => hgrows.keeps hp,
      get?_set_of_free (by simp [hnone]) .directory⟩

theorem eq_of_ensureDirectory_error {fault : Fault}
    (h : files.ensureDirectory path = (after, .error fault)) : after = files := by
  obtain ⟨_, heq⟩ | ⟨-, heq⟩ | ⟨-, -, heq⟩ := ensureDirectory_cases h <;> cases heq
  rfl

/-! ## All directories of a path -/

theorem reverse_cons_eq_child (origin : Origin) (name : String) (above : List String) :
    (⟨origin, (name :: above).reverse⟩ : FilePath) =
      (⟨origin, above.reverse⟩ : FilePath).child name := by
  rw [List.reverse_cons, FilePath.child]

/-- What making directories does beyond the last one: those above it come first, if the last one
cannot be made without them. -/
theorem makeAll_cases {origin : Origin} {name : String} {above : List String}
    {result : Files × Except Fault Unit} (h : files.makeAll origin (name :: above) = result) :
    files.ensureDirectory ⟨origin, (name :: above).reverse⟩ = result ∨
      files.makeDirectory ⟨origin, (name :: above).reverse⟩ = .error .notFound ∧
        ((∃ mid, files.makeAll origin above = (mid, .ok ()) ∧
            mid.ensureDirectory ⟨origin, (name :: above).reverse⟩ = result) ∨
          (∃ fault, files.makeAll origin above = result ∧ result.2 = .error fault)) := by
  subst h
  rw [makeAll]
  split
  · next hnone =>
    refine .inr ⟨hnone, ?_⟩
    rcases hmid : files.makeAll origin above with ⟨mid, fault | _⟩
    · exact .inr ⟨fault, rfl, rfl⟩
    · exact .inl ⟨mid, rfl, rfl⟩
  · exact .inl rfl

theorem makeAll_spec {origin : Origin} {names : List String} {outcome : Except Fault Unit}
    (h : files.makeAll origin names = (after, outcome)) :
    Grows (⟨origin, names.reverse⟩ : FilePath).way files after ∧
      (outcome = .ok () → after.Present ⟨origin, names.reverse⟩) := by
  induction names generalizing after outcome with
  | nil =>
    exact ⟨grows_ensureDirectory h, fun hok => present_of_ensureDirectory (hok ▸ h)⟩
  | cons name above ih =>
    have hsub : ∀ p ∈ (⟨origin, above.reverse⟩ : FilePath).way,
        p ∈ (⟨origin, (name :: above).reverse⟩ : FilePath).way := by
      intro p hp
      rw [reverse_cons_eq_child, FilePath.way_child]
      exact List.mem_append_left _ hp
    obtain h | ⟨-, ⟨mid, hmid, h⟩ | ⟨fault, h, hfault⟩⟩ := makeAll_cases h
    · exact ⟨grows_ensureDirectory h, fun hok => present_of_ensureDirectory (hok ▸ h)⟩
    · exact ⟨((ih hmid).1.mono hsub).trans (grows_ensureDirectory h),
        fun hok => present_of_ensureDirectory (hok ▸ h)⟩
    · refine ⟨(ih h).1.mono hsub, fun hok => ?_⟩
      rw [hok] at hfault
      cases hfault

theorem grows_makeDirectories {outcome : Except Fault Unit}
    (h : files.makeDirectories path = (after, outcome)) : Grows path.way files after := by
  simpa using (makeAll_spec h).1

theorem present_of_makeDirectories (h : files.makeDirectories path = (after, .ok ())) :
    after.Present path := by
  simpa using (makeAll_spec h).2 rfl

theorem makeDirectories_of_present (h : files.Present path) :
    files.makeDirectories path = (files, .ok ()) := by
  have hpath : (⟨path.origin, path.names.reverse.reverse⟩ : FilePath) = path := by
    rw [List.reverse_reverse]
  unfold makeDirectories
  cases hnames : path.names.reverse with
  | nil =>
    rw [hnames] at hpath
    rw [makeAll]
    exact ensureDirectory_of_present (hpath ▸ h)
  | cons name above =>
    rw [hnames] at hpath
    rw [makeAll]
    simp only [hpath, makeDirectory_of_present h]
    exact ensureDirectory_of_present h

/-! ## Names with a zero character -/

theorem makeDirectory_ne_zeroCharacter (h : path.Plain) :
    files.makeDirectory path ≠ .error .zeroCharacter := by
  have hplace : files.newPlace path ≠ .error .zeroCharacter :=
    locate_bind_ne_zeroCharacter h fun place => by split <;> nofun
  intro hfault
  unfold makeDirectory at hfault
  obtain hfault | ⟨place, -, hfault⟩ := Except.bind_eq_error.1 hfault
  · exact hplace hfault
  · split at hfault <;> cases hfault

theorem plain_of_makeDirectory (h : files.makeDirectory path = .error .notFound) :
    path.Plain := by
  refine Classical.byContradiction fun hzero => ?_
  unfold makeDirectory newPlace at h
  rw [locate_eq_zeroCharacter_iff.2 hzero] at h
  cases h

theorem ensureDirectory_ne_zeroCharacter (h : path.Plain) :
    files.ensureDirectory path ≠ (after, .error .zeroCharacter) := by
  unfold ensureDirectory
  split
  · nofun
  · next hfault =>
    split
    · nofun
    · rintro ⟨⟩
      exact makeDirectory_ne_zeroCharacter h hfault
    · next hcheck =>
      rintro ⟨⟩
      unfold isDirectory check at hcheck
      split at hcheck <;> cases hcheck
      contradiction

theorem makeAll_ne_zeroCharacter {origin : Origin} {names : List String}
    (h : (⟨origin, names.reverse⟩ : FilePath).Plain) :
    files.makeAll origin names ≠ (after, .error .zeroCharacter) := by
  induction names generalizing after with
  | nil => exact ensureDirectory_ne_zeroCharacter h
  | cons name above ih =>
    intro hfault
    obtain hlast | ⟨-, ⟨mid, -, hlast⟩ | ⟨_, habove, -⟩⟩ := makeAll_cases hfault
    · exact ensureDirectory_ne_zeroCharacter h hlast
    · exact ensureDirectory_ne_zeroCharacter h hlast
    · refine ih (fun other hother => h other ?_) habove
      rw [List.reverse_cons]
      exact List.mem_append_left _ hother

/-- A path with a zero character in a name is refused before any directory is made. -/
theorem eq_of_makeDirectories_zeroCharacter
    (h : files.makeDirectories path = (after, .error .zeroCharacter)) : after = files := by
  unfold makeDirectories at h
  cases hnames : path.names.reverse with
  | nil =>
    rw [hnames] at h
    exact eq_of_ensureDirectory_error h
  | cons name above =>
    rw [hnames] at h
    obtain hlast | ⟨hnone, -⟩ := makeAll_cases h
    · exact eq_of_ensureDirectory_error hlast
    · exact absurd h (makeAll_ne_zeroCharacter (plain_of_makeDirectory hnone))

end

end Files

end ApiContract
