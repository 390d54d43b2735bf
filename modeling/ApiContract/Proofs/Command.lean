import ApiContract.Command
import ApiContract.Proofs.Console
import ApiContract.Proofs.Run

/-!
# What a command leaves

A request that is not dry goes through four stages, and one of them may fail (`Fails`) or none
(`Succeeds`). The exit code tells which failure it was, and no file is touched unless the last stage
is reached.

Main fact: `run_generate`.
-/

namespace ApiContract.Command

/-- The settings of a request are there, and the modules are generated from what it names. -/
structure Compiles (world : World) (request : Request) (s : Settings) (sources : Sources) :
    Prop where
  settings : settings world request = .ok s
  generated : ∃ d, (Run.describe world request.input).outcome = .ok d ∧
    (Generation.generate d s.baseUrl s.strictRefs).outcome = .ok sources

/-- The modules of a request are generated and, unless it is a dry one, written. -/
def Succeeds (world : World) (request : Request) : Prop :=
  ∃ s sources, Compiles world request s sources ∧
    (request.dryRun = false →
      (Output.write world.drafting (.ofText s.output) sources world.files).2.outcome = .ok ())

/-- Why a request fails: one stage fails after those before it succeeded. -/
inductive Fails (world : World) (request : Request) : Failure → Prop
  | configuration {failure : Failure} (h : settings world request = .error failure) :
    Fails world request failure
  | loading {s : Settings} {failure : Failure} (hsettings : settings world request = .ok s)
    (h : (Run.describe world request.input).outcome = .error failure) :
    Fails world request failure
  | compilation {s : Settings} {d : Description} {fault : Generation.Fault}
    (hsettings : settings world request = .ok s)
    (hdescribe : (Run.describe world request.input).outcome = .ok d)
    (h : (Generation.generate d s.baseUrl s.strictRefs).outcome = .error fault) :
    Fails world request (.ofGeneration fault)
  | writing {s : Settings} {sources : Sources} {failure : Failure}
    (hcompiles : Compiles world request s sources) (hdry : request.dryRun = false)
    (h : (Output.write world.drafting (.ofText s.output) sources world.files).2.outcome =
      .error failure) :
    Fails world request failure

variable {world : World} {request : Request} {failure : Failure}

theorem isCoded_settings (h : settings world request = .error failure) : failure.IsCoded := by
  unfold settings at h
  split at h
  · cases h
    rfl
  · exact Settings.isCoded_resolve h

theorem Fails.isCoded (h : Fails world request failure) : failure.IsCoded := by
  cases h with
  | configuration h => exact isCoded_settings h
  | loading _ h => exact Run.isCoded_describe h
  | compilation _ _ h => exact Failure.isCoded_ofGeneration _
  | writing _ _ h => exact Output.isCoded_write h

theorem Fails.not_succeeds (h : Fails world request failure) : ¬ Succeeds world request := by
  rintro ⟨s, sources, ⟨hs, d, hd, hsources⟩, hwrite⟩
  cases h with
  | configuration h =>
    rw [hs] at h
    cases h
  | loading _ h =>
    rw [hd] at h
    cases h
  | compilation hs' hd' h =>
    cases hs.symm.trans hs'
    cases hd.symm.trans hd'
    rw [hsources] at h
    cases h
  | writing hcompiles hdry h =>
    obtain ⟨hs', d', hd', hsources'⟩ := hcompiles
    cases hs.symm.trans hs'
    cases hd.symm.trans hd'
    cases hsources.symm.trans hsources'
    rw [hwrite hdry] at h
    cases h

theorem plain_reporter (world : World) (h : request.noColour = true) :
    (reporter world request).plain = true := by
  simp [reporter, Reporter.ofEnvironment, h]

/-! ## Outcomes -/

/-- What a request that is shown without colours leaves: its outcome is the one of its stages, and
a failure before the writing, or a dry run, leaves the files alone. -/
theorem carryOut_cases (hplain : request.noColour = true) :
    ((∃ sources, (carryOut world request).outcome = .ok sources) ∧ Succeeds world request ∧
        (request.dryRun = true → (carryOut world request).files = world.files)) ∨
      ∃ failure, (carryOut world request).outcome = .error failure ∧
        Fails world request failure ∧
        (failure.exitCode ≠ Category.output.exitCode ∨ request.dryRun = true →
          (carryOut world request).files = world.files) := by
  have hreporter := plain_reporter world hplain
  unfold carryOut
  cases hsettings : settings world request with
  | error failure => exact .inr ⟨failure, rfl, .configuration hsettings, fun _ => rfl⟩
  | ok s =>
    dsimp only
    cases hprepare : (Run.prepare world request.input s request.dryRun).outcome with
    | error failure =>
      obtain ⟨hrun, hfiles⟩ := Run.run_of_error hreporter hprepare
      refine .inr ⟨failure, hrun, ?_, fun _ => hfiles⟩
      obtain h | ⟨d, hd, fault, hfault, rfl⟩ := Run.prepare_eq_error_iff.1 hprepare
      · exact .loading hsettings h
      · exact .compilation hsettings hd hfault
    | ok sources =>
      have hcompiles : Compiles world request s sources :=
        ⟨hsettings, Run.prepare_eq_ok_iff.1 hprepare⟩
      cases hdry : request.dryRun with
      | true =>
        rw [hdry] at hprepare
        obtain ⟨hrun, hfiles⟩ := Run.run_dry hreporter hprepare
        exact .inl ⟨⟨sources, hrun⟩, ⟨s, sources, hcompiles, by simp [hdry]⟩, fun _ => hfiles⟩
      | false =>
        rw [hdry] at hprepare
        rcases hwrite : Output.write world.drafting (.ofText s.output) sources world.files with
          ⟨after, trace⟩
        obtain ⟨hrun, hfiles⟩ := Run.run_writes hreporter hprepare hwrite
        cases houtcome : trace.outcome with
        | ok _ =>
          rw [houtcome] at hrun
          exact .inl ⟨⟨sources, hrun⟩, ⟨s, sources, hcompiles, fun _ => by rw [hwrite, houtcome]⟩,
            nofun⟩
        | error failure =>
          rw [houtcome] at hrun
          refine .inr ⟨failure, hrun, .writing hcompiles hdry (by rw [hwrite, houtcome]), ?_⟩
          rintro (hcode | hnever)
          · exact hfiles.trans (Output.eq_of_write_error hwrite houtcome hcode)
          · cases hnever

/-! ## Exit codes -/

theorem exitCode_lastWords (world : World) (request : Request) (words : Message) (exitCode : Int) :
    (lastWords world request words exitCode).2 =
      if ((reporter world request).written? request.verbose words).isSome then exitCode else 1 := by
  unfold lastWords
  cases (reporter world request).written? request.verbose words <;> rfl

/-- What is said about the end of a run, apart from a failure that nobody foresaw. -/
def words (request : Request) : Except Failure Sources → List Message
  | .ok _ => if request.dryRun then [] else [hint]
  | .error (.complaint c) => [.report .error c.text]
  | .error _ => []

/-- If the last words cannot be shown, the exit code is that of a failure that nobody foresaw. -/
theorem exitCode_ending (world : World) (request : Request) (outcome : Except Failure Sources) :
    (ending world request outcome).2 =
      if (reporter world request).CanShow request.verbose (words request outcome) then
        match outcome with
        | .ok _ => 0
        | .error failure => failure.exitCode
      else 1 := by
  have hone : ∀ (m : Message) (exitCode : Int), (lastWords world request m exitCode).2 =
      if (reporter world request).CanShow request.verbose [m] then exitCode else 1 := by
    intro m exitCode
    have hshow : (reporter world request).CanShow request.verbose [m] ↔
        ((reporter world request).written? request.verbose m).isSome := List.forall_mem_singleton
    simp only [exitCode_lastWords, hshow]
  cases outcome with
  | ok _ =>
    rw [ending, words]
    split
    · exact (if_pos (List.forall_mem_nil _)).symm
    · exact hone hint 0
  | error failure =>
    cases failure with
    | complaint c => exact hone _ c.exitCode
    | _ => exact (if_pos (List.forall_mem_nil _)).symm

theorem exitCode_ending_of_plain (world : World) (h : request.noColour = true)
    (outcome : Except Failure Sources) :
    (ending world request outcome).2 =
      match outcome with
      | .ok _ => 0
      | .error failure => failure.exitCode :=
  (exitCode_ending world request outcome).trans
    (if_pos (Reporter.canShow_of_plain (plain_reporter world h)))

/-- **A command that fails before it writes touches nothing, and its exit code tells why.** It is
zero exactly when every stage succeeds; else it is the code of the complaint that one of them makes,
or 1 for a failure that nobody foresaw. Only a failure with code 11 may leave anything behind. -/
theorem run_generate {args : List String} (hparse : parse args = .generate request)
    (hplain : request.noColour = true) :
    ((run world args).exitCode ≠ 0 ∧ (run world args).exitCode ≠ 11 ∨ request.dryRun = true →
        (run world args).files = world.files) ∧
      ((run world args).exitCode = 0 ↔ Succeeds world request) ∧
      (¬ Succeeds world request → ∃ failure, Fails world request failure ∧
        (run world args).exitCode =
          match failure with
          | .complaint c => c.exitCode
          | _ => 1) := by
  unfold run
  rw [hparse]
  dsimp only
  rw [exitCode_ending_of_plain world hplain]
  obtain ⟨⟨sources, hok⟩, hsucceeds, hfiles⟩ | ⟨failure, herror, hfails, hfiles⟩ :=
    carryOut_cases hplain
  · rw [hok]
    refine ⟨?_, iff_of_true rfl hsucceeds, fun h => absurd hsucceeds h⟩
    rintro (⟨hcode, -⟩ | hdry)
    · exact absurd rfl hcode
    · exact hfiles hdry
  · rw [herror]
    refine ⟨fun h => hfiles (h.imp_left And.right),
      iff_of_false hfails.isCoded.exitCode_ne_zero hfails.not_succeeds,
      fun _ => ⟨failure, hfails, ?_⟩⟩
    cases failure <;> rfl

/-- A world with modules from an earlier run, and a description on standard input whose only schema
refers to itself. -/
def selfReferring : World where
  files := ⟨[(["gen"], .directory), (["gen", "schemas.api.ts"], .file [47, 47])]⟩
  environment := []
  directory := "/work"
  input := .ok ("\x7b\"openapi\": \"3.0.3\", \"components\": \x7b\"schemas\": " ++
    "\x7b\"A\": \x7b\"$ref\": \"#/components/schemas/A\"\x7d\x7d\x7d\x7d")
  answer := .error "no network"

/-- The request to generate from standard input into the directory of those modules. -/
def regenerate : Request where
  noColour := true
  quiet := false
  verbose := false
  input := "-"
  given := ⟨some "gen", none, none⟩
  dryRun := false

theorem run_generate_selfReferring :
    let args := ["--no-color", "generate", "--input", "-", "--output", "gen"]
    parse args = .generate regenerate ∧ regenerate.noColour = true ∧
      (run selfReferring args).exitCode = 8 ∧
      (run selfReferring args).files = selfReferring.files := by
  intro args
  have hparse : parse args = .generate regenerate := by decide +kernel
  have hcode : (run selfReferring args).exitCode = 8 := by decide +kernel
  refine ⟨hparse, rfl, hcode, (run_generate hparse rfl).1 (.inl ?_)⟩
  rw [hcode]
  decide

end ApiContract.Command
