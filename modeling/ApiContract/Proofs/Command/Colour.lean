import ApiContract.Proofs.Command
import ApiContract.Proofs.Console

/-!
# Colours

Whether a run is shown with colours or without, it says the same and does the same, as long as all
that it says can be shown. With colours it ends at the first message that the console refuses, and a
request whose run ends so has the exit code of a failure that nobody foresaw. This holds of any
console. What a run says holds texts of its user, the locator and the names of schemas among them,
and these are not kept from being taken for tags; so a console that interprets tags refuses some.

Main facts: `Run.run_compare` (two reporters), `colour_of_canShow`, `exitCode_of_not_canShow` and
`colour_iff`.
-/

namespace ApiContract

/-! ## Runs -/

namespace Run

variable {r other : Reporter} {log log' : Bool} {world : World} {locator : String}
  {settings : Settings} {dry : Bool}

/-- The writing of a run, up to the report about it. -/
def writing (world : World) (settings : Settings) (sources : Sources) : Trace Failure Sources := do
  (Output.write world.drafting (.ofText settings.output) sources world.files).2
  .say (Output.doneReport (.ofText settings.output))
  return sources

/-- What a run says to its end. -/
def said (world : World) (locator : String) (settings : Settings) (dry : Bool) : List Message :=
  let first := prepare world locator settings dry
  first.messages ++
    match first.outcome with
    | .error _ => []
    | .ok sources => if dry then [] else (writing world settings sources).messages

theorem outcome_shown_of_canShow {α : Type} {trace : Trace Failure α}
    (h : r.CanShow log trace.messages) : (shown r log trace).2 = trace.outcome := by
  show (if (r.write log trace.messages).2 then _ else _) = _
  rw [if_pos (Reporter.write_complete_iff.2 h)]

theorem outcome_shown_of_not_canShow {α : Type} {trace : Trace Failure α}
    (h : ¬ r.CanShow log trace.messages) : (shown r log trace).2 = .error .markup := by
  show (if (r.write log trace.messages).2 then _ else _) = _
  rw [if_neg fun hcomplete => h (Reporter.write_complete_iff.1 hcomplete)]

theorem finish_error (r : Reporter) (log : Bool) (world : World) (settings : Settings) (dry : Bool)
    (written : String) (failure : Failure) :
    finish r log world settings dry written (.error failure) =
      ⟨written, .error failure, world.files⟩ := rfl

theorem finish_dry (r : Reporter) (log : Bool) (world : World) (settings : Settings)
    (written : String) (sources : Sources) :
    finish r log world settings true written (.ok sources) = ⟨written, .ok sources, world.files⟩ :=
  rfl

/-- The end of a run that writes: its outcome and files. -/
theorem finish_ok (r : Reporter) (log : Bool) (world : World) (settings : Settings)
    (written : String) (sources : Sources) :
    (finish r log world settings false written (.ok sources)).outcome =
        (shown r log (writing world settings sources)).2 ∧
      (finish r log world settings false written (.ok sources)).files =
        (Output.write world.drafting (.ofText settings.output) sources world.files).1 := by
  unfold finish publish writing
  dsimp only
  rw [if_neg Bool.false_ne_true]
  rcases Output.write world.drafting (.ofText settings.output) sources world.files with
    ⟨files, trace⟩
  exact ⟨rfl, rfl⟩

/-- A run against the same run under a reporter that shows everything: the two do the same, or a
message of the first cannot be shown, and then it fails before it writes or behind it. -/
theorem run_compare (hother : other.plain) :
    let first := run r log world locator settings dry
    let second := run other log' world locator settings dry
    r.CanShow log (said world locator settings dry) ∧ first.outcome = second.outcome ∧
        first.files = second.files ∨
      ¬ r.CanShow log (said world locator settings dry) ∧ first.outcome = .error .markup ∧
        (first.files = second.files ∨ first.files = world.files) := by
  unfold run said
  dsimp only
  rw [outcome_shown hother]
  by_cases hprepare : r.CanShow log (prepare world locator settings dry).messages
  · rw [outcome_shown_of_canShow hprepare, Reporter.canShow_append]
    cases (prepare world locator settings dry).outcome with
    | error failure =>
      rw [finish_error, finish_error]
      exact .inl ⟨⟨hprepare, List.forall_mem_nil _⟩, rfl, rfl⟩
    | ok sources =>
      cases dry with
      | true =>
        rw [finish_dry, finish_dry]
        exact .inl ⟨⟨hprepare, List.forall_mem_nil _⟩, rfl, rfl⟩
      | false =>
        obtain ⟨hfirst, hfiles⟩ := finish_ok r log world settings
          (shown r log (prepare world locator settings false)).1 sources
        obtain ⟨hsecond, hfiles'⟩ := finish_ok other log' world settings
          (shown other log' (prepare world locator settings false)).1 sources
        rw [hfirst, hfiles, hsecond, hfiles', outcome_shown hother]
        by_cases hwriting : r.CanShow log (writing world settings sources).messages
        · exact .inl ⟨⟨hprepare, hwriting⟩, outcome_shown_of_canShow hwriting, rfl⟩
        · exact .inr ⟨fun h => hwriting h.2, outcome_shown_of_not_canShow hwriting, .inl rfl⟩
  · rw [outcome_shown_of_not_canShow hprepare, finish_error]
    exact .inr ⟨fun h => hprepare (Reporter.canShow_append.1 h).1, rfl, .inr rfl⟩

end Run

/-! ## Commands -/

namespace Command

variable {world : World} {request : Request} {args : List String}

/-- The same request without colours. -/
def Request.uncoloured (request : Request) : Request := { request with noColour := true }

/-- What a request says before its end. -/
def spoken (world : World) (request : Request) : List Message :=
  match settings world request with
  | .error _ => []
  | .ok s => Run.said world request.input s request.dryRun

/-- All that a request says. -/
def messages (world : World) (request : Request) : List Message :=
  spoken world request ++ words request (carryOut world request.uncoloured).outcome

/-- All that a request says can be shown. -/
def CanShow (world : World) (request : Request) : Prop :=
  (reporter world request).CanShow request.verbose (messages world request)

instance : Decidable (CanShow world request) :=
  inferInstanceAs (Decidable (Reporter.CanShow _ _ _))

/-! ### Command lines -/

theorem read_noColour (args : List String) :
    Arguments.read generalOptions false ("--no-color" :: args) =
      (Arguments.read generalOptions false args).map fun p =>
        { p with options := (.noColour, none) :: p.options } := by
  have hread : Arguments.readOption generalOptions "--no-color" =
      .ok ([(.noColour, none)], none) := by rfl
  have hoption : Arguments.isOption "--no-color" = true := by decide +kernel
  rw [Arguments.read, if_neg (by decide), if_pos hoption, hread]
  rfl

theorem readGenerate_noColour {general : Arguments.Parsed GeneralOption}
    (h : readGenerate general args = .generate request) :
    readGenerate { general with options := (.noColour, none) :: general.options } args =
      .generate request.uncoloured := by
  unfold readGenerate at h ⊢
  cases hread : Arguments.read generateOptions true args with
  | error fault =>
    rw [hread] at h
    cases fault <;> cases h
  | ok p =>
    rw [hread] at h
    dsimp only at h ⊢
    split at h
    · cases h
    · next hhelp =>
      split at h
      · cases h
      · cases h
      · cases h
        rw [if_neg hhelp]
        rfl

/-- Put before a command line, the option only makes its request one without colours. -/
theorem parse_noColour (h : parse args = .generate request) :
    parse ("--no-color" :: args) = .generate request.uncoloured := by
  unfold parse at h ⊢
  rw [if_neg (List.cons_ne_nil _ _), read_noColour]
  split at h
  · cases h
  · cases hread : Arguments.read generalOptions false args with
    | error fault =>
      rw [hread] at h
      cases fault <;> cases h
    | ok p =>
      rw [hread] at h
      dsimp only [Except.map] at h ⊢
      rw [List.map_cons, List.find?_cons_of_neg (by decide)]
      split at h
      · cases h
      · cases h
      · cases h
      · exact readGenerate_noColour h
      · split at h <;> cases h

/-! ### Runs -/

/-- A request against the same request without colours. -/
theorem carryOut_compare (world : World) (request : Request) :
    let first := carryOut world request
    let second := carryOut world request.uncoloured
    let r := reporter world request
    r.CanShow request.verbose (spoken world request) ∧ first.outcome = second.outcome ∧
        first.files = second.files ∨
      ¬ r.CanShow request.verbose (spoken world request) ∧ first.outcome = .error .markup ∧
        (first.files = second.files ∨ first.files = world.files) := by
  have hplain : (reporter world request.uncoloured).plain = true := plain_reporter world rfl
  have hsettings : settings world request.uncoloured = settings world request := rfl
  unfold carryOut spoken
  rw [hsettings]
  cases settings world request with
  | error failure => exact .inl ⟨List.forall_mem_nil _, rfl, rfl⟩
  | ok s => exact Run.run_compare hplain

/-! ### Exit codes and files -/

theorem run_generate_exitCode (h : parse args = .generate request) :
    (run world args).exitCode = (ending world request (carryOut world request).outcome).2 := by
  unfold run
  rw [h]

theorem run_generate_files (h : parse args = .generate request) :
    (run world args).files = (carryOut world request).files := by
  unfold run
  rw [h]

section
variable (hparse : parse args = .generate request)
include hparse

/-- As long as everything can be shown, colours change nothing. -/
theorem colour_of_canShow (h : CanShow world request) :
    (run world args).exitCode = (run world ("--no-color" :: args)).exitCode ∧
      (run world args).files = (run world ("--no-color" :: args)).files := by
  obtain ⟨hspoken, hwords⟩ := Reporter.canShow_append.1 h
  obtain ⟨-, houtcome, hfiles⟩ | ⟨hnot, -⟩ := carryOut_compare world request
  · rw [run_generate_files hparse, run_generate_files (parse_noColour hparse),
      run_generate_exitCode hparse, run_generate_exitCode (parse_noColour hparse),
      @exitCode_ending_of_plain request.uncoloured world rfl, exitCode_ending, houtcome,
      if_pos hwords]
    exact ⟨rfl, hfiles⟩
  · exact absurd hspoken hnot

/-- Where something cannot be shown, the exit code is that of a failure that nobody foresaw. -/
theorem exitCode_of_not_canShow (h : ¬ CanShow world request) : (run world args).exitCode = 1 := by
  rw [run_generate_exitCode hparse]
  obtain ⟨hspoken, houtcome, -⟩ | ⟨-, houtcome, -⟩ := carryOut_compare world request
  · have hwords : ¬ (reporter world request).CanShow request.verbose
        (words request (carryOut world request.uncoloured).outcome) :=
      fun hwords => h (Reporter.canShow_append.2 ⟨hspoken, hwords⟩)
    rw [exitCode_ending, houtcome, if_neg hwords]
  · rw [houtcome]
    rfl

/-- A request that fails with code 1 leaves the same files in any case. -/
theorem files_of_exitCode_one (h : (run world ("--no-color" :: args)).exitCode = 1) :
    (run world args).files = (run world ("--no-color" :: args)).files := by
  have huncoloured := parse_noColour hparse
  have hunchanged : (carryOut world request.uncoloured).files = world.files := by
    rw [run_generate_exitCode huncoloured, exitCode_ending_of_plain world rfl] at h
    obtain ⟨⟨sources, hok⟩, -⟩ | ⟨failure, herror, -, hfiles⟩ :=
      @carryOut_cases world request.uncoloured rfl
    · rw [hok] at h
      cases h
    · rw [herror] at h
      have hcode : failure.exitCode = 1 := h
      exact hfiles (.inl (by rw [hcode]; decide))
  rw [run_generate_files hparse, run_generate_files huncoloured]
  obtain ⟨-, -, hfiles⟩ | ⟨-, -, hfiles | hfiles⟩ := carryOut_compare world request
  · exact hfiles
  · exact hfiles
  · rw [hfiles, hunchanged]

end

/-- A console that interprets tags shows all that a request says if nothing of it holds a bracket. -/
theorem canShow_of_no_bracket (hconsole : Reporter.InterpretsTags world.render)
    (h : ∀ m ∈ messages world request, '[' ∉ m.text.toList) : CanShow world request :=
  fun m hm => Reporter.isSome_written?_of_no_bracket hconsole (h m hm)

/-- It does not if a stray closing tag is to be shown with colours. -/
theorem not_canShow_of_stray (hconsole : Reporter.InterpretsTags world.render)
    (hcolours : (reporter world request).plain = false) {channel : Channel} {text : String}
    (hmem : .report channel text ∈ messages world request)
    (hshows : (reporter world request).shows channel) (h : Markup.HasStrayTag text.toList) :
    ¬ CanShow world request := by
  intro hall
  have hsome := hall _ hmem
  rw [Reporter.written?_eq_none_of_stray hconsole hcolours hshows h] at hsome
  cases hsome

/-- **Colours change what a command does exactly when a message cannot be shown and the command
does not fail with code 1 anyway.** What they change then is that the command fails with code 1,
whatever it has written. If the console interprets tags, messages without a bracket can be shown,
and one with a closing tag that closes nothing makes the command fail. -/
theorem colour_iff (hparse : parse args = .generate request) :
    ((run world args).exitCode = (run world ("--no-color" :: args)).exitCode ∧
          (run world args).files = (run world ("--no-color" :: args)).files ↔
        (run world ("--no-color" :: args)).exitCode = 1 ∨ CanShow world request) ∧
      (¬ CanShow world request → (run world args).exitCode = 1) ∧
      (Reporter.InterpretsTags world.render →
        ((∀ m ∈ messages world request, '[' ∉ m.text.toList) → CanShow world request) ∧
        ((reporter world request).plain = false → ∀ channel text,
          .report channel text ∈ messages world request → (reporter world request).shows channel →
          Markup.HasStrayTag text.toList → (run world args).exitCode = 1)) := by
  refine ⟨⟨?_, ?_⟩, exitCode_of_not_canShow hparse, fun hconsole =>
    ⟨canShow_of_no_bracket hconsole, fun hcolours channel text hmem hshows hstray => ?_⟩⟩
  · rintro ⟨hcode, -⟩
    refine Classical.or_iff_not_imp_right.2 fun hnot => ?_
    rw [← hcode]
    exact exitCode_of_not_canShow hparse hnot
  · rintro (hone | hshow)
    · by_cases hshow : CanShow world request
      · exact colour_of_canShow hparse hshow
      · exact ⟨(exitCode_of_not_canShow hparse hshow).trans hone.symm,
          files_of_exitCode_one hparse hone⟩
    · exact colour_of_canShow hparse hshow
  · exact exitCode_of_not_canShow hparse (not_canShow_of_stray hconsole hcolours hmem hshows hstray)

/-- A world with one description on standard input and in a directory whose name ends in a
bracket. -/
def bracketed : World where
  files := ⟨[(["pets["], .directory), (["pets[", "v1].json"],
    .file (Output.bytesOf "\x7b\"openapi\": \"3.1\"\x7d".toList))]⟩
  environment := []
  directory := "/work"
  input := .ok "\x7b\"openapi\": \"3.1\"\x7d"
  answer := .error "no network"

/-- The request of `regenerate`, with colours. -/
def recoloured : Request := { regenerate with noColour := false }

/-- From standard input the run is the same with colours; from the file it fails with them, since
its console takes a part of the name for a tag. -/
theorem colour_iff_bracketed :
    let args := ["generate", "--input", "-", "--output", "gen"]
    let args' := ["generate", "--input", "pets[/v1].json", "--output", "gen"]
    let request := { recoloured with input := "pets[/v1].json" }
    let first := "Reading spec from: pets[/v1].json"
    parse args = .generate recoloured ∧ CanShow bracketed recoloured ∧
      (run bracketed args).exitCode = (run bracketed ("--no-color" :: args)).exitCode ∧
      (run bracketed args).files = (run bracketed ("--no-color" :: args)).files ∧
      parse args' = .generate request ∧ Reporter.InterpretsTags bracketed.render ∧
      (reporter bracketed request).plain = false ∧
      .report .info first ∈ messages bracketed request ∧
      (reporter bracketed request).shows .info ∧ Markup.HasStrayTag first.toList ∧
      (run bracketed args').exitCode = 1 := by
  intro args args' request first
  have hparse : parse args = .generate recoloured := by decide +kernel
  have hshow : CanShow bracketed recoloured := by decide +kernel
  obtain ⟨hcode, hfiles⟩ := (colour_iff hparse).1.2 (.inr hshow)
  have hparse' : parse args' = .generate request := by decide +kernel
  have hcolours : (reporter bracketed request).plain = false := by decide +kernel
  have hmem : .report .info first ∈ messages bracketed request := by decide +kernel
  have hshows : (reporter bracketed request).shows .info := by decide +kernel
  have hstray : Markup.HasStrayTag first.toList :=
    ⟨"Reading spec from: pets".toList, "v1".toList, ".json".toList, by decide +kernel,
      by decide +kernel, by decide +kernel, by decide +kernel, by decide +kernel, by decide +kernel⟩
  exact ⟨hparse, hshow, hcode, hfiles, hparse', Reporter.interpretsTags_render, hcolours, hmem,
    hshows, hstray, ((colour_iff hparse').2.2 Reporter.interpretsTags_render).2 hcolours _ _ hmem
      hshows hstray⟩

/-- The name of the file holds what looks like a closing tag. With colours nothing is generated,
without them everything is. -/
theorem bracketed_coloured :
    let args := ["generate", "--input", "pets[/v1].json", "--output", "gen"]
    ((run bracketed args).exitCode = 1 ∧ (run bracketed args).files.get? ["gen"] = none) ∧
      (run bracketed ("--no-color" :: args)).exitCode = 0 ∧
      (run bracketed ("--no-color" :: args)).files.get? ["gen"] = some .directory := by
  decide +kernel

end Command

end ApiContract
