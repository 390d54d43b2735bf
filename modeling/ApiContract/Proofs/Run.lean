import ApiContract.Proofs.Output
import ApiContract.Run

/-!
# How runs fail

A run goes through stages: it finds its settings, loads a description, generates the modules and
writes them. A failure of any stage has the exit code of its category (`Failure.IsCoded`), which is
never zero. What is said on the way changes nothing about the outcome as long as it can be shown,
and everything can be shown without colours.

Main facts: `prepare_eq_ok_iff` and `prepare_eq_error_iff` (the stages before the writing),
`run_of_error`, `run_dry` and `run_writes` (a whole run), and a lemma on exit codes for each stage.
-/

namespace ApiContract

namespace Failure

/-- A failure with the exit code of its category. -/
def IsCoded : Failure → Prop
  | complaint c => c.exitCode = c.category.exitCode
  | _ => True

theorem IsCoded.exitCode_ne_zero {failure : Failure} (h : failure.IsCoded) :
    failure.exitCode ≠ 0 := by
  have hcategory : ∀ category : Category, category.exitCode ≠ 0 := by
    intro category
    cases category <;> decide
  cases failure with
  | complaint c => exact fun hzero => hcategory c.category (h.symm.trans hzero)
  | _ => exact hcategory .general

theorem isCoded_ofDescription (fault : Description.Fault) : (ofDescription fault).IsCoded := by
  cases fault <;> first | rfl | trivial

theorem isCoded_ofGeneration (fault : Generation.Fault) : (ofGeneration fault).IsCoded := by
  cases fault with
  | circular names => rfl
  | unresolved names => rfl
  | description fault => exact isCoded_ofDescription fault

theorem isCoded_ofDecoding (text : List Char) (fault : Decoding.Fault) :
    (ofDecoding text fault).IsCoded := by
  unfold ofDecoding
  split
  · rfl
  · trivial
  · trivial

end Failure

/-! ## Settings -/

namespace Settings

variable {world : World} {failure : Failure}

theorem isCoded_project {directory : Option FilePath}
    (h : project world directory = .error failure) : failure.IsCoded := by
  unfold project at h
  extract_lets path shown refuse at h
  split at h
  · cases h
    trivial
  · cases h
  · split at h
    · cases h
      trivial
    · cases h
      rfl
    · split at h <;> cases h <;> rfl

theorem isCoded_ofEnvironment {env : Environment} (h : ofEnvironment env = .error failure) :
    failure.IsCoded := by
  unfold ofEnvironment readVariable at h
  obtain h | ⟨_, -, h⟩ := Except.bind_eq_error.1 h
  · split at h
    · cases h
    · extract_lets word at h
      split at h
      · cases h
      · split at h <;> cases h
        rfl
  · cases h

theorem isCoded_resolve {given : Layer} {directory : Option FilePath}
    (h : resolve world given directory = .error failure) : failure.IsCoded := by
  unfold resolve at h
  obtain h | ⟨fields, -, h⟩ := Except.bind_eq_error.1 h
  · exact isCoded_project h
  obtain h | ⟨surrounding, -, h⟩ := Except.bind_eq_error.1 h
  · exact isCoded_ofEnvironment h
  · unfold check at h
    split at h <;> cases h
    rfl

end Settings

/-! ## Loading -/

namespace Source

variable {world : World} {failure : Failure}

theorem isCoded_readAnswer {url : String} (h : readAnswer world url = .error failure) :
    failure.IsCoded := by
  unfold readAnswer at h
  split at h
  · cases h
    rfl
  · split at h <;> cases h
    rfl

theorem isCoded_readInput (h : readInput world = .error failure) : failure.IsCoded := by
  unfold readInput at h
  split at h
  · cases h
    rfl
  · split at h <;> cases h
    rfl

theorem isCoded_readFile {name : String} (h : readFile world name = .error failure) :
    failure.IsCoded := by
  unfold readFile at h
  extract_lets path at h
  split at h
  · cases h
    trivial
  · cases h
    rfl
  · split at h
    · cases h
      rfl
    · cases h
      trivial
    · split at h <;> cases h
      rfl

theorem isCoded_unlessMishap {result : Except Failure (List Char × Option Format)}
    (h : unlessMishap world result = .error failure)
    (hresult : result = .error failure → failure.IsCoded) : failure.IsCoded := by
  unfold unlessMishap at h
  split at h
  · cases h
    trivial
  · exact hresult h

theorem isCoded_read {source : Source} (h : source.read world = .error failure) :
    failure.IsCoded := by
  cases source with
  | input => exact isCoded_unlessMishap h isCoded_readInput
  | url text => exact isCoded_unlessMishap h isCoded_readAnswer
  | file text => exact isCoded_readFile h

theorem isCoded_load {locator : String} (h : (load world locator).outcome = .error failure) :
    failure.IsCoded := by
  unfold load at h
  obtain h | ⟨⟨text, format⟩, -, h⟩ := Trace.bind_eq_error.1 h
  · exact isCoded_read h
  obtain h | ⟨_, -, h⟩ := Trace.bind_eq_error.1 h
  · cases h
  · obtain ⟨fault, -, rfl⟩ := Trace.ofExcept_mapError_eq_error.1 h
    exact Failure.isCoded_ofDecoding text fault

end Source

namespace Run

theorem isCoded_describe {world : World} {locator : String} {failure : Failure}
    (h : (describe world locator).outcome = .error failure) : failure.IsCoded := by
  unfold describe at h
  obtain h | ⟨fields, -, h⟩ := Trace.bind_eq_error.1 h
  · exact Source.isCoded_load h
  obtain h | ⟨version, -, h⟩ := Trace.bind_eq_error.1 h
  · obtain ⟨fault, -, rfl⟩ := Trace.ofExcept_mapError_eq_error.1 h
    rfl
  · obtain ⟨fault, -, rfl⟩ := Trace.mapError_eq_error.1 h
    exact Failure.isCoded_ofDescription fault

end Run

/-! ## Writing -/

theorem Output.isCoded_refuse (directory : FilePath) (fault : Files.Fault) :
    (refuse directory fault).IsCoded := by
  unfold refuse
  split
  · trivial
  · rfl

theorem Output.isCoded_write {drafting : FilePath → Drafting} {directory : FilePath}
    {sources : Sources} {files : Files} {failure : Failure}
    (h : (write drafting directory sources files).2.outcome = .error failure) :
    failure.IsCoded := by
  unfold write at h
  split at h
  · cases h
    exact isCoded_refuse directory _
  · obtain ⟨fault, -, rfl⟩ := Trace.mapError_eq_error.1 h
    exact isCoded_refuse directory fault

/-! ## A whole run -/

namespace Run

variable {world : World} {locator : String} {settings : Settings} {dry : Bool}

theorem outcome_reportFiles (directory : FilePath) (files : List (String × List Char)) :
    (reportFiles directory files).outcome = .ok () := by
  induction files with
  | nil => rfl
  | cons file rest ih =>
    rw [reportFiles, Trace.outcome_bind, Trace.outcome_report]
    exact ih

theorem prepare_eq_ok_iff {sources : Sources} :
    (prepare world locator settings dry).outcome = .ok sources ↔
      ∃ d, (describe world locator).outcome = .ok d ∧
        (Generation.generate d settings.baseUrl settings.strictRefs).outcome = .ok sources := by
  unfold prepare
  cases dry <;> simp [-Trace.outcome_bind, -Trace.outcome_mapError, Trace.bind_eq_ok,
    Trace.map_eq_ok, Trace.mapError_eq_ok, outcome_reportFiles]

theorem prepare_eq_error_iff {failure : Failure} :
    (prepare world locator settings dry).outcome = .error failure ↔
      (describe world locator).outcome = .error failure ∨
        ∃ d, (describe world locator).outcome = .ok d ∧ ∃ fault,
          (Generation.generate d settings.baseUrl settings.strictRefs).outcome = .error fault ∧
            .ofGeneration fault = failure := by
  unfold prepare
  cases dry <;> simp [-Trace.outcome_bind, -Trace.outcome_mapError, Trace.bind_eq_error,
    Trace.map_eq_error, Trace.mapError_eq_error, outcome_reportFiles]

section
variable {r : Reporter} {log : Bool}

theorem outcome_shown {α : Type} (hplain : r.plain) (trace : Trace Failure α) :
    (shown r log trace).2 = trace.outcome := by
  unfold shown
  simp [Reporter.complete_of_plain hplain]

/-- Where nothing is generated, nothing is written. -/
theorem run_of_error (hplain : r.plain) {failure : Failure}
    (h : (prepare world locator settings dry).outcome = .error failure) :
    (run r log world locator settings dry).outcome = .error failure ∧
      (run r log world locator settings dry).files = world.files := by
  unfold run
  simp only [outcome_shown hplain, h]
  exact ⟨rfl, rfl⟩

theorem run_dry (hplain : r.plain) {sources : Sources}
    (h : (prepare world locator settings true).outcome = .ok sources) :
    (run r log world locator settings true).outcome = .ok sources ∧
      (run r log world locator settings true).files = world.files := by
  unfold run
  simp only [outcome_shown hplain, h]
  exact ⟨rfl, rfl⟩

theorem run_writes (hplain : r.plain) {sources : Sources}
    (h : (prepare world locator settings false).outcome = .ok sources) {after : Files}
    {trace : Trace Failure Unit}
    (hwrite : Output.write world.drafting (.ofText settings.output) sources world.files =
      (after, trace)) :
    (run r log world locator settings false).outcome = trace.outcome.map (fun _ => sources) ∧
      (run r log world locator settings false).files = after := by
  unfold run
  simp only [outcome_shown hplain, h, finish, publish, hwrite]
  refine ⟨?_, rfl⟩
  simp only [Trace.outcome_bind, Trace.outcome_say, Trace.outcome_pure]
  cases trace.outcome <;> rfl

end

end Run

end ApiContract
