import ApiContract.Proofs.Files.Place
import ApiContract.Source

/-!
# How loading fails

Loading gives the fields of a description, or a complaint about it. Other failures escape
(`Escapes`): what is no answer of standard input or of a URL, a file in a directory that must not be
searched, a name too long to be looked up, a file that is not UTF-8, and whatever the reader of YAML
fails with besides that a text is no YAML. Nothing else is assumed of that reader.

Main facts: `decode_eq_value_iff` (for a text), `isDescription_or_of_readFile` (for a file) and
`load_escapes_iff`.
-/

namespace ApiContract

/-- A complaint about a description. -/
def Failure.IsDescription (failure : Failure) : Prop :=
  ∃ text, failure = .complaint (.description text)

/-- The failure of an outcome. -/
def failure? {ε α : Type} : Except ε α → Option ε
  | .ok _ => none
  | .error e => some e

theorem eq_error_of_failure? {ε α : Type} {x : Except ε α} {e : ε} (h : failure? x = some e) :
    x = .error e := by
  cases x with
  | ok a => cases h
  | error other => rw [Option.some.inj h]

/-! ## Decoding -/

namespace Decoding

variable {readYaml : List Char → Except Yaml.Fault Value} {format : Option Format}
  {text : List Char}

/-- Whether a text is read as YAML: if it is known to be, or if it might be and is not JSON. -/
def TriesYaml (format : Option Format) (text : List Char) : Prop :=
  format = some .yaml ∨ format = none ∧ ∃ fault, Json.read text = .error fault

theorem fieldsOf_ne_value (v : Value) (fault : Yaml.Fault) :
    fieldsOf v ≠ .error (.value fault) := by
  unfold fieldsOf
  split <;> rintro ⟨⟩

theorem decodeYaml_eq_value_iff {tried : Option Json.Fault} {fault : Yaml.Fault} :
    decodeYaml readYaml tried text = .error (.value fault) ↔
      readYaml text = .error fault ∧ fault ≠ .malformed := by
  unfold decodeYaml
  split
  · next v hread => exact iff_of_false (fieldsOf_ne_value v fault) (by simp [hread])
  · next hread =>
    refine iff_of_false nofun ?_
    rintro ⟨hfault, hne⟩
    exact hne (Except.error.inj (hfault.symm.trans hread))
  · next other hother hread =>
    rw [hread, Except.error.injEq, Except.error.injEq, Fault.value.injEq]
    exact ⟨fun h => ⟨h, h ▸ hother⟩, And.left⟩

theorem decode_eq_value_iff {fault : Yaml.Fault} :
    decode readYaml format text = .error (.value fault) ↔
      TriesYaml format text ∧ readYaml text = .error fault ∧ fault ≠ .malformed := by
  unfold decode TriesYaml
  cases format with
  | none =>
    cases Json.read text with
    | ok v => simp [fieldsOf_ne_value]
    | error _ => simp [decodeYaml_eq_value_iff]
  | some format =>
    cases format with
    | json =>
      cases Json.read text <;> simp [fieldsOf_ne_value]
    | yaml => simp [decodeYaml_eq_value_iff]

theorem isDescription_ofDecoding {fault : Fault} (h : ∀ value, fault ≠ .value value) :
    (Failure.ofDecoding text fault).IsDescription := by
  cases fault with
  | value value => exact absurd rfl (h value)
  | _ => exact ⟨_, rfl⟩

end Decoding

/-! ## Files -/

namespace Files

variable {files : Files} {path : FilePath} {fault : Fault}

theorem follow_eq_error {place : Location} {names : List String}
    (h : files.follow place names = .error fault) :
    fault = .notFound ∨ fault = .notADirectory ∨ fault = .nameTooLong := by
  induction names generalizing place with
  | nil => cases h
  | cons name rest ih =>
    rw [follow] at h
    split at h
    · cases h
      exact .inl rfl
    · cases h
      exact .inr (.inl rfl)
    · split at h
      · cases h
        exact .inr (.inr rfl)
      · exact ih h

/-- Looking for a file fails only where a name is too long; a path that leads nowhere for another
reason just leads to no file. -/
theorem isFile_eq_error_iff :
    files.isFile path = .error fault ↔
      files.locate path = .error .nameTooLong ∧ fault = .nameTooLong := by
  have hfind : ∀ other, other ≠ .notFound →
      (files.find path = .error other ↔ files.locate path = .error other) := by
    intro other hother
    unfold find
    rw [Except.bind_eq_error]
    refine ⟨?_, .inl⟩
    rintro (h | ⟨place, -, h⟩)
    · exact h
    · split at h <;> cases h
      exact absurd rfl hother
  unfold isFile check
  constructor
  · intro h
    split at h
    · cases h
    · cases h
    · cases h
    · cases h
    · next other hnotFound hnotADirectory hzero hother =>
      cases h
      have hlocate := (hfind fault hnotFound).1 hother
      have hlong : fault = .nameTooLong := by
        unfold locate at hlocate
        split at hlocate
        · cases hlocate
          exact absurd rfl hzero
        · split at hlocate
          · cases hlocate
            rfl
          · obtain h | h | h := follow_eq_error hlocate
            · exact absurd h hnotFound
            · exact absurd h hnotADirectory
            · exact h
      exact ⟨hlong ▸ hlocate, hlong⟩
  · rintro ⟨h, rfl⟩
    rw [(hfind .nameTooLong nofun).2 h]

theorem isFile_of_read {bytes : List UInt8} (h : files.read path = .ok bytes) :
    files.isFile path = .ok true := by
  unfold isFile check
  rw [find_eq_ok_iff.2 (read_eq_ok_iff.1 h)]
  rfl

end Files

theorem World.isFile_of_lookFault_eq_none {world : World} {path : FilePath}
    (h : world.lookFault path = none) : world.isFile path = world.files.isFile path := by
  rw [isFile, h]

theorem World.isFile_eq_error_iff {world : World} {path : FilePath} {fault : Files.Fault} :
    world.isFile path = .error fault ↔
      (∃ text, world.lookFault path = some text ∧ fault = .failed text) ∨
      world.lookFault path = none ∧ world.files.locate path = .error .nameTooLong ∧
        fault = .nameTooLong := by
  unfold isFile
  cases world.lookFault path with
  | some text => simp [eq_comm]
  | none => simp [Files.isFile_eq_error_iff]

theorem World.lookFault_of_isFile {world : World} {path : FilePath}
    (h : world.isFile path = .ok true) : world.lookFault path = none := by
  unfold isFile at h
  split at h
  · cases h
  · next hseen => exact hseen

theorem World.readText_eq_encoding_iff {world : World} {path : FilePath} :
    world.readText path = .error .encoding ↔
      world.readFault path = none ∧ ∃ bytes, world.files.read path = .ok bytes ∧
        String.fromUTF8? ⟨bytes.toArray⟩ = none := by
  unfold readText
  cases world.readFault path with
  | some text => simp
  | none =>
    cases world.files.read path with
    | error fault => simp
    | ok bytes =>
      cases h : String.fromUTF8? ⟨bytes.toArray⟩ <;> simp [h]

/-! ## Sources -/

namespace Source

variable {world : World} {locator : String} {failure : Failure}

/-- What loading fails with besides complaints about the description. -/
inductive Escapes (world : World) (locator : String) : Failure → Prop
  /-- Something goes wrong with standard input or a URL that is no answer of theirs. -/
  | mishap {text : String} (hsource : ∀ name, ofLocator locator ≠ .file name)
    (h : world.mishap = some text) : Escapes world locator (.system (.failed text))
  /-- It cannot be looked whether a file is there. -/
  | unseen {name text : String} (hsource : ofLocator locator = .file name)
    (h : world.lookFault (.ofText name) = some text) :
    Escapes world locator (.system (.failed text))
  /-- The path of a file is too long to look whether the file is there. -/
  | tooLong {name : String} (hsource : ofLocator locator = .file name)
    (hseen : world.lookFault (.ofText name) = none)
    (h : world.files.locate (.ofText name) = .error .nameTooLong) :
    Escapes world locator (.system .nameTooLong)
  /-- A file is there and can be read, but it is not UTF-8. -/
  | encoding {name : String} {bytes : List UInt8} (hsource : ofLocator locator = .file name)
    (hseen : world.lookFault (.ofText name) = none)
    (hread : world.files.read (.ofText name) = .ok bytes)
    (hallowed : world.readFault (.ofText name) = none)
    (h : String.fromUTF8? ⟨bytes.toArray⟩ = none) : Escapes world locator .encoding
  /-- A text is read as YAML, and the reader fails in another way than that it is none. -/
  | value {text : List Char} {format : Option Format} {fault : Yaml.Fault}
    (hread : (ofLocator locator).read world = .ok (text, format))
    (hyaml : Decoding.TriesYaml format text) (h : world.readYaml text = .error fault)
    (hfault : fault ≠ .malformed) : Escapes world locator (.value fault)

theorem isDescription_readAnswer {url : String} (h : readAnswer world url = .error failure) :
    failure.IsDescription := by
  unfold readAnswer at h
  split at h
  · cases h
    exact ⟨_, rfl⟩
  · split at h <;> cases h
    exact ⟨_, rfl⟩

theorem isDescription_readInput (h : readInput world = .error failure) :
    failure.IsDescription := by
  unfold readInput at h
  split at h
  · cases h
    exact ⟨_, rfl⟩
  · split at h <;> cases h
    exact ⟨_, rfl⟩

theorem eq_error_of_unlessMishap {α : Type} {result : Except Failure α}
    (h : unlessMishap world result = .error failure) :
    (∃ text, world.mishap = some text ∧ failure = .system (.failed text)) ∨
      result = .error failure := by
  unfold unlessMishap at h
  split at h
  · next text hmishap =>
    cases h
    exact .inl ⟨text, hmishap, rfl⟩
  · exact .inr h

theorem isDescription_or_of_readFile {name : String} (h : readFile world name = .error failure) :
    failure.IsDescription ∨
      (∃ fault, world.isFile (.ofText name) = .error fault ∧ failure = .system fault) ∨
      world.isFile (.ofText name) = .ok true ∧
        world.readText (.ofText name) = .error .encoding ∧ failure = .encoding := by
  unfold readFile at h
  extract_lets path at h
  split at h
  · next fault hfault =>
    cases h
    exact .inr (.inl ⟨fault, hfault, rfl⟩)
  · cases h
    exact .inl ⟨_, rfl⟩
  · next hfile =>
    split at h
    · cases h
      exact .inl ⟨_, rfl⟩
    · next hencoding =>
      cases h
      exact .inr (.inr ⟨hfile, hencoding, rfl⟩)
    · split at h <;> cases h
      exact .inl ⟨_, rfl⟩

theorem readFile_of_isFile_eq_error {name : String} {fault : Files.Fault}
    (h : world.isFile (.ofText name) = .error fault) :
    readFile world name = .error (.system fault) := by
  rw [readFile, h]

theorem readFile_of_encoding {name : String} {bytes : List UInt8}
    (hseen : world.lookFault (.ofText name) = none)
    (hread : world.files.read (.ofText name) = .ok bytes)
    (hallowed : world.readFault (.ofText name) = none)
    (h : String.fromUTF8? ⟨bytes.toArray⟩ = none) : readFile world name = .error .encoding := by
  rw [readFile, World.isFile_of_lookFault_eq_none hseen, Files.isFile_of_read hread,
    World.readText_eq_encoding_iff.2 ⟨hallowed, bytes, hread, h⟩]

namespace Escapes

theorem not_isDescription (h : Escapes world locator failure) : ¬ failure.IsDescription := by
  rintro ⟨text, rfl⟩
  cases h

theorem of_read (h : (ofLocator locator).read world = .error failure) :
    failure.IsDescription ∨ Escapes world locator failure := by
  cases hsource : ofLocator locator with
  | input =>
    rw [hsource] at h
    obtain ⟨text, hmishap, rfl⟩ | hread := eq_error_of_unlessMishap h
    · exact .inr (.mishap (by simp [hsource]) hmishap)
    · exact .inl (isDescription_readInput hread)
  | url url =>
    rw [hsource] at h
    obtain ⟨text, hmishap, rfl⟩ | hread := eq_error_of_unlessMishap h
    · exact .inr (.mishap (by simp [hsource]) hmishap)
    · exact .inl (isDescription_readAnswer hread)
  | file name =>
    rw [hsource] at h
    obtain hdescription | ⟨fault, hlook, rfl⟩ | ⟨hfile, hencoding, rfl⟩ :=
      isDescription_or_of_readFile h
    · exact .inl hdescription
    · obtain ⟨text, hfault, rfl⟩ | ⟨hseen, hlocate, rfl⟩ := World.isFile_eq_error_iff.1 hlook
      · exact .inr (.unseen hsource hfault)
      · exact .inr (.tooLong hsource hseen hlocate)
    · obtain ⟨hallowed, bytes, hread, hbytes⟩ := World.readText_eq_encoding_iff.1 hencoding
      exact .inr (.encoding hsource (World.lookFault_of_isFile hfile) hread hallowed hbytes)

theorem of_load (h : (load world locator).outcome = .error failure) :
    failure.IsDescription ∨ Escapes world locator failure := by
  unfold load at h
  obtain h | ⟨⟨text, format⟩, hread, h⟩ := Trace.bind_eq_error.1 h
  · exact of_read h
  obtain h | ⟨_, -, h⟩ := Trace.bind_eq_error.1 h
  · cases h
  obtain ⟨fault, hdecode, rfl⟩ := Trace.ofExcept_mapError_eq_error.1 h
  cases fault with
  | value fault =>
    obtain ⟨hyaml, hvalue, hfault⟩ := Decoding.decode_eq_value_iff.1 hdecode
    exact .inr (.value hread hyaml hvalue hfault)
  | _ => exact .inl (Decoding.isDescription_ofDecoding nofun)

theorem load (h : Escapes world locator failure) :
    (load world locator).outcome = .error failure := by
  unfold Source.load
  cases h with
  | mishap hsource h =>
    refine Trace.bind_eq_error.2 (.inl ?_)
    cases hlocator : ofLocator locator with
    | file name => exact absurd hlocator (hsource name)
    | _ => simp [read, unlessMishap, h]
  | unseen hsource h =>
    refine Trace.bind_eq_error.2 (.inl ?_)
    rw [hsource]
    exact readFile_of_isFile_eq_error (World.isFile_eq_error_iff.2 (.inl ⟨_, h, rfl⟩))
  | tooLong hsource hseen h =>
    refine Trace.bind_eq_error.2 (.inl ?_)
    rw [hsource]
    exact readFile_of_isFile_eq_error (World.isFile_eq_error_iff.2 (.inr ⟨hseen, h, rfl⟩))
  | encoding hsource hseen hread hallowed h =>
    refine Trace.bind_eq_error.2 (.inl ?_)
    rw [hsource]
    exact readFile_of_encoding hseen hread hallowed h
  | value hread hyaml h hfault =>
    refine Trace.bind_eq_error.2 (.inr ⟨_, hread, ?_⟩)
    refine Trace.bind_eq_error.2 (.inr ⟨(), rfl, ?_⟩)
    exact Trace.ofExcept_mapError_eq_error.2
      ⟨_, Decoding.decode_eq_value_iff.2 ⟨hyaml, h, hfault⟩, rfl⟩

end Escapes

/-- **What escapes from loading.** It gives fields or a complaint about the description, unless
standard input or a URL goes wrong in a way that nobody foresaw, it cannot be looked whether a file
is there, the name of a file is too long, a file is not UTF-8, or the reader of YAML, whichever it
is, fails with anything else than that a text is no YAML. -/
theorem load_escapes_iff :
    (load world locator).outcome = .error failure ∧ ¬ failure.IsDescription ↔
      Escapes world locator failure := by
  constructor
  · rintro ⟨h, hnot⟩
    exact (Escapes.of_load h).resolve_left hnot
  · exact fun h => ⟨h.load, h.not_isDescription⟩

/-- A world with a file that is not UTF-8, and with a day on standard input that does not exist. -/
def unreadable : World where
  files := ⟨[(["pets.yaml"], .file [255])]⟩
  environment := []
  directory := "/work"
  input := .ok "version: 2024-13-45\n"
  answer := .error "no network"

/-- Neither of them is complained about. -/
theorem load_unreadable :
    (∃ failure, (load unreadable "pets.yaml").outcome = .error failure ∧
        ¬ failure.IsDescription) ∧
      ∃ failure, (load unreadable "-").outcome = .error failure ∧ ¬ failure.IsDescription := by
  have hfile : failure? (load unreadable "pets.yaml").outcome = some .encoding := by
    decide +kernel
  have hinput : failure? (load unreadable "-").outcome = some (.value .noSuchValue) := by
    decide +kernel
  exact ⟨⟨_, eq_error_of_failure? hfile, nofun⟩, ⟨_, eq_error_of_failure? hinput, nofun⟩⟩

end Source

end ApiContract
