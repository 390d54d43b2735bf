import ApiContract.Files
import ApiContract.Trace

/-!
# Where paths lead

A path leads through the places of its directories (`passed`) to a place of its own. The place is
the same whatever the files are; they decide whether it is reached, which it is if every place on
the way has a directory and no name is one that the system refuses.

Main facts: `locate_eq_ok_iff`, `find_eq_ok_iff` and `read_eq_ok_iff` (what is found at a path is
what is at its place), `Reaches.mono` (more directories hide nothing).
-/

namespace ApiContract

namespace Location

/-- The places that names lead through from a place on, without the last one. -/
def passed (place : Location) : List String → List Location
  | [] => []
  | name :: rest => place :: passed (place.step name) rest

theorem passed_concat (place : Location) (names : List String) (name : String) :
    place.passed (names ++ [name]) = place.passed names ++ [names.foldl Location.step place] := by
  induction names generalizing place with
  | nil => rfl
  | cons first rest ih =>
    rw [List.cons_append, passed, passed, ih, List.cons_append, List.foldl_cons]

theorem step_of_ne {place : Location} {name : String} (h : name ≠ above) :
    place.step name = place ++ [name] := if_neg h

end Location

namespace FilePath

/-- The place that a path leads to. -/
def place (path : FilePath) : Location :=
  path.names.foldl Location.step (Location.start path)

/-- The places of the directories that a path leads through. -/
def passed (path : FilePath) : List Location :=
  (Location.start path).passed path.names

/-- The places that a path leads through, with its own. -/
def way (path : FilePath) : List Location :=
  path.passed ++ [path.place]

@[simp] theorem place_child (path : FilePath) (name : String) :
    (path.child name).place = path.place.step name :=
  List.foldl_append

@[simp] theorem passed_child (path : FilePath) (name : String) :
    (path.child name).passed = path.way :=
  Location.passed_concat _ _ _

theorem place_mem_way (path : FilePath) : path.place ∈ path.way :=
  List.mem_append_right _ List.mem_cons_self

/-- No name of a path has a zero character. -/
def Plain (path : FilePath) : Prop :=
  ∀ name ∈ path.names, '\x00' ∉ name.toList

/-- The names of a path are ones that the system takes. -/
structure Fits (path : FilePath) : Prop where
  plain : path.Plain
  short : path.text.utf8ByteSize ≤ Files.longestPath
  short_names : ∀ name ∈ path.names, name.utf8ByteSize ≤ Files.longestName

end FilePath

namespace Files

theorem get?_set_of_free {files : Files} {place : Location}
    (h : files.get? place ≠ some .directory) (entry : Entry) :
    (files.set place entry).get? place = some entry :=
  get?_set_self files (isFixed_of_get? h) entry

theorem get?_erase_of_free {files : Files} {place : Location}
    (h : files.get? place ≠ some .directory) : (files.erase place).get? place = none :=
  get?_erase_self files (isFixed_of_get? h)

/-- Every place that a path leads through has a directory. -/
structure Reaches (files : Files) (path : FilePath) : Prop where
  fits : path.Fits
  passed : ∀ place ∈ path.passed, files.get? place = some .directory

/-- There is a directory at a path. -/
structure Present (files : Files) (path : FilePath) : Prop where
  fits : path.Fits
  way : ∀ place ∈ path.way, files.get? place = some .directory

section
variable {files after : Files} {path : FilePath}

theorem follow_eq_ok_iff {place target : Location} {names : List String} :
    files.follow place names = .ok target ↔
      (∀ name ∈ names, name.utf8ByteSize ≤ longestName) ∧
        (∀ p ∈ place.passed names, files.get? p = some .directory) ∧
        names.foldl Location.step place = target := by
  induction names generalizing place with
  | nil => simp [follow, Location.passed]
  | cons name rest ih =>
    rw [follow, Location.passed, List.forall_mem_cons, List.forall_mem_cons, List.foldl_cons]
    split
    · next h => simp [h]
    · next h => simp [h]
    · next h =>
      split
      · next hlong => exact iff_of_false nofun fun hall => absurd hall.1.1 (by omega)
      · next hshort => rw [ih]; simp [h, Nat.le_of_not_lt hshort]

theorem locate_eq_ok_iff {place : Location} :
    files.locate path = .ok place ↔ files.Reaches path ∧ path.place = place := by
  unfold locate
  split
  · next h =>
    refine iff_of_false nofun fun hall => ?_
    obtain ⟨name, hname, hzero⟩ := List.any_eq_true.1 h
    exact hall.1.fits.plain name hname (of_decide_eq_true hzero)
  · next h =>
    split
    · next hlong =>
      exact iff_of_false nofun fun hall => absurd hall.1.fits.short (Nat.not_le.2 hlong)
    · next hshort =>
      rw [follow_eq_ok_iff]
      constructor
      · rintro ⟨hnames, hpassed, hplace⟩
        refine ⟨⟨⟨fun name hname hzero => h ?_, Nat.le_of_not_lt hshort, hnames⟩, hpassed⟩, hplace⟩
        exact List.any_eq_true.2 ⟨name, hname, decide_eq_true hzero⟩
      · rintro ⟨hreaches, hplace⟩
        exact ⟨hreaches.fits.short_names, hreaches.passed, hplace⟩

theorem locate_of_reaches (h : files.Reaches path) : files.locate path = .ok path.place :=
  locate_eq_ok_iff.2 ⟨h, rfl⟩

theorem follow_ne_zeroCharacter {place : Location} {names : List String} :
    files.follow place names ≠ .error .zeroCharacter := by
  induction names generalizing place with
  | nil => nofun
  | cons name rest ih =>
    unfold follow
    split
    · nofun
    · nofun
    · split
      · nofun
      · exact ih

/-- A zero character is refused before anything is looked at. -/
theorem locate_eq_zeroCharacter_iff :
    files.locate path = .error .zeroCharacter ↔ ¬ path.Plain := by
  unfold locate
  split
  · next h =>
    obtain ⟨name, hname, hzero⟩ := List.any_eq_true.1 h
    exact iff_of_true rfl fun hplain => hplain name hname (of_decide_eq_true hzero)
  · next h =>
    refine iff_of_false ?_ fun hplain => hplain fun name hname hzero =>
      h (List.any_eq_true.2 ⟨name, hname, decide_eq_true hzero⟩)
    split
    · nofun
    · exact follow_ne_zeroCharacter

/-- What is done at the place of a path. -/
theorem locate_bind_eq_ok_iff {α : Type} {f : Location → Except Fault α} {a : α} :
    (files.locate path >>= f) = .ok a ↔ files.Reaches path ∧ f path.place = .ok a := by
  rw [Except.bind_eq_ok]
  constructor
  · rintro ⟨place, hplace, h⟩
    obtain ⟨hreaches, rfl⟩ := locate_eq_ok_iff.1 hplace
    exact ⟨hreaches, h⟩
  · rintro ⟨hreaches, h⟩
    exact ⟨path.place, locate_of_reaches hreaches, h⟩

theorem locate_bind_ne_zeroCharacter {α : Type} {f : Location → Except Fault α} (h : path.Plain)
    (hf : ∀ place, f place ≠ .error .zeroCharacter) :
    (files.locate path >>= f) ≠ .error .zeroCharacter := by
  intro hfault
  obtain hlocate | ⟨place, -, hplace⟩ := Except.bind_eq_error.1 hfault
  · exact locate_eq_zeroCharacter_iff.1 hlocate h
  · exact hf place hplace

theorem find_eq_ok_iff {entry : Entry} :
    files.find path = .ok entry ↔ files.Reaches path ∧ files.get? path.place = some entry := by
  unfold find
  rw [locate_bind_eq_ok_iff]
  refine and_congr_right fun _ => ?_
  cases files.get? path.place <;> simp [pure, Except.pure]

theorem read_eq_ok_iff {bytes : List UInt8} :
    files.read path = .ok bytes ↔
      files.Reaches path ∧ files.get? path.place = some (.file bytes) := by
  rw [← find_eq_ok_iff]
  unfold read
  rw [Except.bind_eq_ok]
  constructor
  · rintro ⟨entry, hentry, h⟩
    cases entry with
    | directory => cases h
    | file found =>
      cases h
      exact hentry
  · exact fun h => ⟨_, h, rfl⟩

theorem present_iff :
    files.Present path ↔ files.Reaches path ∧ files.get? path.place = some .directory := by
  constructor
  · rintro ⟨hfits, hway⟩
    exact ⟨⟨hfits, fun p hp => hway p (List.mem_append_left _ hp)⟩, hway _ path.place_mem_way⟩
  · rintro ⟨⟨hfits, hpassed⟩, hplace⟩
    refine ⟨hfits, fun p hp => ?_⟩
    obtain hp | hp := List.mem_append.1 hp
    · exact hpassed p hp
    · exact List.mem_singleton.1 hp ▸ hplace

theorem isDirectory_eq_true_iff : files.isDirectory path = .ok true ↔ files.Present path := by
  rw [present_iff, ← find_eq_ok_iff]
  unfold isDirectory check
  cases files.find path with
  | ok entry => cases entry <;> simp
  | error fault => cases fault <;> simp

/-- Whatever has all directories of some files reaches what these reach. -/
theorem Reaches.mono (h : files.Reaches path)
    (hkeeps : ∀ p, files.get? p = some .directory → after.get? p = some .directory) :
    after.Reaches path :=
  ⟨h.fits, fun p hp => hkeeps p (h.passed p hp)⟩

theorem Present.mono (h : files.Present path)
    (hkeeps : ∀ p, files.get? p = some .directory → after.get? p = some .directory) :
    after.Present path :=
  ⟨h.fits, fun p hp => hkeeps p (h.way p hp)⟩

end

end Files

end ApiContract
