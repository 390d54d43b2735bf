import ApiContract.Output
import ApiContract.Proofs.Field
import ApiContract.Settings
import Mathlib.Data.List.TakeWhile

/-!
# Where settings come from

Every setting has four sources: the command line, a variable, the file of the project, its default.
It is taken from the first of them that gives it (`Settled`), whatever the other settings are; what
the later ones give is not even looked at. Only the file of a project can give a value of the wrong
type, since the command line and the variables hold texts and words.

A run has settings unless the file of the project holds no object, the variable for strict
references holds another word, or a setting is left to a value of the wrong type (`Unfit`).

Main facts: `readVariable_eq_ok_iff`, `optional_merged_eq_ok_iff` (one setting), `check_merged_iff`
(all of them), `resolve_eq_ok_iff` and `resolve_precedence`.
-/

namespace ApiContract

/-- A complaint about settings. -/
def Failure.IsConfiguration (failure : Failure) : Prop :=
  ∃ c : Complaint, failure = .complaint c ∧ c.category = .configuration

theorem Text.trim_eq_nil_iff {text : List Char} : trim text = [] ↔ allBlank text := by
  rw [trim, dropEndWhile, List.reverse_eq_nil_iff, List.dropWhile_eq_nil_iff, allBlank,
    List.all_eq_true]
  constructor
  · intro h c hc
    rw [← List.takeWhile_append_dropWhile (p := isBlank) (l := text), List.mem_append] at hc
    rcases hc with hc | hc
    · exact List.all_eq_true.1 List.all_takeWhile c hc
    · exact h c (List.mem_reverse.2 hc)
  · intro h
    rw [List.dropWhile_eq_nil_iff.2 h]
    simp

namespace Settings

open ApiContract.Field

/-! ## Sources -/

/-- The path of the file of a project. -/
def projectPath (directory : Option FilePath) : FilePath :=
  (directory.getD ⟨.here, []⟩).child projectFile

/-- What the file at a path holds, if there is one: it can be looked at, and read. -/
inductive Holds (world : World) (path : FilePath) : Option (List Char) → Prop
  | nothing (h : world.isFile path = .ok false) : Holds world path none
  | text {text : List Char} (hfile : world.isFile path = .ok true)
    (hread : world.readText path = .ok text) : Holds world path (some text)

/-- The record of a project: an empty one without a file, else the object that the file is. -/
inductive Declares : Option (List Char) → Fields → Prop
  | nothing : Declares none []
  | object {text : List Char} {fields : Fields} (h : Json.read text = .ok (.object fields)) :
    Declares (some text) fields

/-- What a variable says about a truth value: nothing if it is not set or blank, else the value of
its word, in any case of its letters and with blanks around it. -/
inductive Says : Option String → Option Bool → Prop
  | unset : Says none none
  | blank {raw : String} (h : Text.allBlank raw.toList) : Says (some raw) none
  | word {raw word : String} {b : Bool} (hword : Text.lower (Text.trim raw.toList) = word.toList)
    (h : (word, b) ∈ variableWords) : Says (some raw) (some b)

/-- The value of a setting comes from the first of its sources that gives one. The value in the file
of a project is what its field `takes` it for. -/
inductive Settled (given surrounding : Option α) (declared : Option Value)
    (takes : Value → α → Prop) (default : α) : α → Prop
  | given {a : α} (h : given = some a) : Settled given surrounding declared takes default a
  | surrounding {a : α} (hgiven : given = none) (h : surrounding = some a) :
    Settled given surrounding declared takes default a
  | declared {value : Value} {a : α} (hgiven : given = none) (hsurrounding : surrounding = none)
    (h : declared = some value) (htakes : takes value a) :
    Settled given surrounding declared takes default a
  | default (hgiven : given = none) (hsurrounding : surrounding = none) (h : declared = none) :
    Settled given surrounding declared takes default default

/-- A setting is left to the file of a project, which has a value of the wrong type for it. -/
def Misfits (given surrounding : Option α) (declared : Option Value) (takes : Value → α → Prop) :
    Prop :=
  given = none ∧ surrounding = none ∧ ∃ value, declared = some value ∧ ∀ a, ¬ takes value a

/-- The settings of a run, each from its own sources. The variable for strict references has been
read as `flag`. -/
structure Resolved (given : Layer) (env : Environment) (fields : Fields) (flag : Option Bool)
    (s : Settings) : Prop where
  output : Settled given.output (env.filled? "ZODGEN_OUTPUT") (fields.field? "output") IsText
    "./__generated__" s.output
  baseUrl : Settled (given.baseUrl.map some) ((env.filled? "ZODGEN_BASE_URL").map some)
    (fields.field? "base_url") IsTextOrNull none s.baseUrl
  strictRefs : Settled given.strictRefs flag (fields.field? "strict_refs") IsTruth false
    s.strictRefs

/-- Some setting of a run is left to a value of the wrong type. What other sources override does not
count, and neither does what is wrong with another setting. -/
inductive Unfit (given : Layer) (env : Environment) (fields : Fields) (flag : Option Bool) : Prop
  | output (h : Misfits given.output (env.filled? "ZODGEN_OUTPUT") (fields.field? "output") IsText)
  | baseUrl (h : Misfits (given.baseUrl.map some) ((env.filled? "ZODGEN_BASE_URL").map some)
      (fields.field? "base_url") IsTextOrNull)
  | strictRefs (h : Misfits given.strictRefs flag (fields.field? "strict_refs") IsTruth)

variable {world : World} {directory : Option FilePath} {content : Option (List Char)}
  {fields : Fields} {given : Layer} {env : Environment} {flag : Option Bool} {s : Settings}
  {failure : Failure}

/-! ## The file of a project -/

theorem project_of_nothing (h : world.isFile (projectPath directory) = .ok false) :
    project world directory = .ok [] := by
  rw [projectPath] at h
  simp only [project, h]

/-- A file that can be read declares the object that it is, or it is complained about. -/
theorem project_of_text {text : List Char}
    (hfile : world.isFile (projectPath directory) = .ok true)
    (hread : world.readText (projectPath directory) = .ok text) :
    (∃ fields, Json.read text = .ok (.object fields) ∧ project world directory = .ok fields) ∨
      (∀ fields, Json.read text ≠ .ok (.object fields)) ∧
        ∃ failure, project world directory = .error failure ∧ failure.IsConfiguration := by
  rw [projectPath] at hfile hread
  simp only [project, hfile, hread]
  split
  · next hfault => exact .inr ⟨by simp [hfault], _, rfl, _, rfl, rfl⟩
  · next fields hobject => exact .inl ⟨fields, hobject, rfl⟩
  · next value hother hvalue =>
    refine .inr ⟨fun fields hobject => ?_, _, rfl, _, rfl, rfl⟩
    exact hother fields (Except.ok.inj (hvalue.symm.trans hobject))

theorem project_eq_ok_iff (hholds : Holds world (projectPath directory) content) :
    project world directory = .ok fields ↔ Declares content fields := by
  cases hholds with
  | nothing hnone =>
    rw [project_of_nothing hnone]
    constructor
    · rintro ⟨⟩
      exact .nothing
    · rintro ⟨⟩
      rfl
  | text hfile hread =>
    obtain ⟨found, hobject, hok⟩ | ⟨hnone, failure, herror, -⟩ := project_of_text hfile hread
    · rw [hok]
      constructor
      · rintro ⟨⟩
        exact .object hobject
      · intro h
        obtain _ | h := h
        cases hobject.symm.trans h
        rfl
    · rw [herror]
      refine iff_of_false nofun fun h => ?_
      obtain _ | h := h
      exact hnone fields h

theorem isConfiguration_project (hholds : Holds world (projectPath directory) content)
    (h : project world directory = .error failure) : failure.IsConfiguration := by
  cases hholds with
  | nothing hnone =>
    rw [project_of_nothing hnone] at h
    cases h
  | text hfile hread =>
    obtain ⟨fields, -, hok⟩ | ⟨-, other, herror, hconfiguration⟩ := project_of_text hfile hread
    · rw [hok] at h
      cases h
    · rw [herror] at h
      cases h
      exact hconfiguration

theorem not_declares_iff :
    (¬ ∃ fields, Declares content fields) ↔
      ∃ text, content = some text ∧ ∀ fields, Json.read text ≠ .ok (.object fields) := by
  constructor
  · intro h
    cases content with
    | none => exact absurd ⟨[], .nothing⟩ h
    | some text => exact ⟨text, rfl, fun fields hobject => h ⟨fields, .object hobject⟩⟩
  · rintro ⟨text, rfl, hnone⟩ ⟨fields, hdeclares⟩
    obtain _ | hobject := hdeclares
    exact hnone fields hobject

theorem Declares.unique {other : Fields} (h : Declares content fields)
    (hother : Declares content other) : fields = other := by
  cases h with
  | nothing =>
    cases hother
    rfl
  | object h =>
    obtain _ | hother := hother
    cases h.symm.trans hother
    rfl

/-! ## The variable for strict references -/

theorem nodup_variableWords : (variableWords.map Prod.fst).Nodup := by decide

theorem ne_nil_of_mem_variableWords : ∀ entry ∈ variableWords, entry.1.toList ≠ [] := by decide

theorem readVariable_eq_ok_iff {name : String} {value : Option String} :
    readVariable name value = .ok flag ↔ Says value flag := by
  constructor
  · intro h
    unfold readVariable at h
    split at h
    · cases h
      exact .unset
    · extract_lets word at h
      split at h
      · next hblank =>
        cases h
        exact .blank (Text.trim_eq_nil_iff.1 hblank)
      · split at h
        · next b hlookup =>
          cases h
          exact .word String.toList_ofList.symm
            ((lookup_eq_some_iff_mem nodup_variableWords).1 hlookup)
        · cases h
  · intro h
    cases h with
    | unset => rfl
    | blank h => exact if_pos (Text.trim_eq_nil_iff.2 h)
    | @word raw word b hword h =>
      have hfilled : Text.trim raw.toList ≠ [] := by
        -- no word of the table is empty
        intro hempty
        rw [hempty] at hword
        exact ne_nil_of_mem_variableWords _ h hword.symm
      have hlookup : variableWords.lookup (String.ofList (Text.lower (Text.trim raw.toList))) =
          some b := by
        rw [hword, String.ofList_toList]
        exact (lookup_eq_some_iff_mem nodup_variableWords).2 h
      simp only [readVariable, if_neg hfilled, hlookup]

theorem Says.unique {value : Option String} {other : Option Bool} (h : Says value flag)
    (hother : Says value other) : flag = other :=
  have hread : ∀ said, readVariable strictVariable value = .ok said ↔ Says value said :=
    fun _ => readVariable_eq_ok_iff
  Except.ok.inj (((hread flag).2 h).symm.trans ((hread other).2 hother))

theorem isConfiguration_readVariable {name : String} {value : Option String}
    (h : readVariable name value = .error failure) : failure.IsConfiguration := by
  unfold readVariable at h
  split at h
  · cases h
  · extract_lets word at h
    split at h
    · cases h
    · split at h <;> cases h
      exact ⟨_, rfl, rfl⟩

/-! ## One setting -/

theorem exists_settled_iff {given surrounding : Option α} {declared : Option Value}
    {takes : Value → α → Prop} {default : α} :
    (∃ a, Settled given surrounding declared takes default a) ↔
      ¬ Misfits given surrounding declared takes := by
  constructor
  · rintro ⟨a, h⟩ ⟨hgiven, hsurrounding, value, hdeclared, hnone⟩
    cases h with
    | given h => simp [h] at hgiven
    | surrounding _ h => simp [h] at hsurrounding
    | declared _ _ h htakes =>
      cases hdeclared.symm.trans h
      exact hnone a htakes
    | default _ _ h => simp [h] at hdeclared
  · intro h
    cases hgiven : given with
    | some a => exact ⟨a, .given rfl⟩
    | none =>
      cases hsurrounding : surrounding with
      | some a => exact ⟨a, .surrounding rfl rfl⟩
      | none =>
        cases hdeclared : declared with
        | none => exact ⟨default, .default rfl rfl rfl⟩
        | some value =>
          by_contra hnone
          exact h ⟨hgiven, hsurrounding, value, hdeclared, fun a ha =>
            hnone ⟨a, .declared rfl rfl rfl ha⟩⟩

/-- A field that was merged from its sources is read as its first source says: what the command line
or a variable `put` there is taken for what it `holds`. -/
theorem optional_merged_eq_ok_iff {name : String} {read : Value → Checked α}
    {takes : Value → α → Prop} (hread : ∀ value a, read value = .ok a ↔ takes value a)
    {put : β → Value} (holds : β → α) (hput : ∀ b, read (put b) = .ok (holds b))
    {line surrounding : Option β} {declared : Option Value} {default a : α}
    (hfield : fields.field? name =
      (line.map put).or ((surrounding.map put).or declared)) :
    optional fields name default read = .ok a ↔
      Settled (line.map holds) (surrounding.map holds) declared takes default a := by
  rw [optional_eq_ok_iff, hfield]
  constructor
  · rintro (⟨value, hvalue, ha⟩ | ⟨hnone, rfl⟩)
    · cases line with
      | some b =>
        cases hvalue
        exact .given (congrArg some (Checked.ok_inj.1 ((hput b).symm.trans ha)))
      | none =>
        cases surrounding with
        | some b =>
          cases hvalue
          exact .surrounding rfl (congrArg some (Checked.ok_inj.1 ((hput b).symm.trans ha)))
        | none => exact .declared rfl rfl hvalue ((hread value a).1 ha)
    · obtain ⟨hline, hsurrounding, hdeclared⟩ := by simpa using hnone
      exact .default (by rw [hline]; rfl) (by rw [hsurrounding]; rfl) hdeclared
  · intro h
    cases h with
    | given h =>
      obtain ⟨b, rfl, rfl⟩ := Option.map_eq_some_iff.1 h
      exact .inl ⟨put b, rfl, hput b⟩
    | surrounding hline h =>
      obtain ⟨b, rfl, rfl⟩ := Option.map_eq_some_iff.1 h
      rw [Option.map_eq_none_iff.1 hline]
      exact .inl ⟨put b, rfl, hput b⟩
    | declared hline hsurrounding h htakes =>
      rw [Option.map_eq_none_iff.1 hline, Option.map_eq_none_iff.1 hsurrounding]
      exact .inl ⟨_, h, (hread _ a).2 htakes⟩
    | default hline hsurrounding h =>
      rw [Option.map_eq_none_iff.1 hline, Option.map_eq_none_iff.1 hsurrounding]
      exact .inr ⟨h, rfl⟩

/-! ## All settings -/

theorem ofRecord_eq_ok_iff :
    ofRecord fields = .ok s ↔
      optional fields "output" "./__generated__" text = .ok s.output ∧
      optional fields "base_url" none (orNull text) = .ok s.baseUrl ∧
      optional fields "strict_refs" false truth = .ok s.strictRefs := by
  unfold ofRecord
  constructor
  · intro h
    obtain ⟨_, strictRefs, hrest, hstrict, rfl⟩ := Checked.seq_eq_ok_iff.1 h
    obtain ⟨_, baseUrl, hfirst, hurl, rfl⟩ := Checked.seq_eq_ok_iff.1 hrest
    obtain ⟨output, houtput, rfl⟩ := Checked.map_eq_ok_iff.1 hfirst
    exact ⟨houtput, hurl, hstrict⟩
  · rintro ⟨houtput, hurl, hstrict⟩
    rw [houtput, hurl, hstrict]
    rfl

theorem check_eq_ok_iff : check fields = .ok s ↔ ofRecord fields = .ok s := by
  unfold check
  split
  · next h =>
    rw [h]
    exact Checked.ok_eq_ok_iff.symm
  · next h =>
    rw [h]
    exact iff_of_false nofun nofun

theorem isConfiguration_check (h : check fields = .error failure) : failure.IsConfiguration := by
  unfold check at h
  split at h <;> cases h
  exact ⟨_, rfl, rfl⟩

/-- The record of a project under the layer of the variables and that of the command line. -/
theorem check_merged_iff :
    check (given.applyTo (Layer.applyTo ⟨env.filled? "ZODGEN_OUTPUT", env.filled? "ZODGEN_BASE_URL",
      flag⟩ fields)) = .ok s ↔ Resolved given env fields flag s := by
  rw [check_eq_ok_iff, ofRecord_eq_ok_iff,
    optional_merged_eq_ok_iff (fun _ _ => text_eq_ok_iff) id (fun _ => rfl)
      (by rw [Layer.field?_applyTo_output, Layer.field?_applyTo_output]),
    optional_merged_eq_ok_iff (fun _ _ => orNull_text_eq_ok_iff) some (fun _ => rfl)
      (by rw [Layer.field?_applyTo_baseUrl, Layer.field?_applyTo_baseUrl]),
    optional_merged_eq_ok_iff (fun _ _ => truth_eq_ok_iff) id (fun _ => rfl)
      (by rw [Layer.field?_applyTo_strictRefs, Layer.field?_applyTo_strictRefs])]
  simp only [Option.map_id]
  exact ⟨fun ⟨houtput, hurl, hstrict⟩ => ⟨houtput, hurl, hstrict⟩,
    fun h => ⟨h.output, h.baseUrl, h.strictRefs⟩⟩

theorem exists_resolved_iff :
    (∃ s, Resolved given env fields flag s) ↔ ¬ Unfit given env fields flag := by
  constructor
  · rintro ⟨s, houtput, hurl, hstrict⟩ hunfit
    cases hunfit with
    | output h => exact exists_settled_iff.1 ⟨_, houtput⟩ h
    | baseUrl h => exact exists_settled_iff.1 ⟨_, hurl⟩ h
    | strictRefs h => exact exists_settled_iff.1 ⟨_, hstrict⟩ h
  · intro h
    obtain ⟨output, houtput⟩ := exists_settled_iff.2 fun hmisfit => h (.output hmisfit)
    obtain ⟨baseUrl, hurl⟩ := exists_settled_iff.2 fun hmisfit => h (.baseUrl hmisfit)
    obtain ⟨strictRefs, hstrict⟩ := exists_settled_iff.2 fun hmisfit => h (.strictRefs hmisfit)
    exact ⟨⟨output, baseUrl, strictRefs⟩, houtput, hurl, hstrict⟩

/-! ## Resolving -/

theorem resolve_eq_ok_iff (hholds : Holds world (projectPath directory) content) :
    resolve world given directory = .ok s ↔ ∃ fields flag, Declares content fields ∧
      Says (world.environment.get? strictVariable) flag ∧
      Resolved given world.environment fields flag s := by
  unfold resolve ofEnvironment
  constructor
  · intro h
    obtain ⟨fields, hfields, h⟩ := Except.bind_eq_ok.1 h
    obtain ⟨surrounding, hlayer, h⟩ := Except.bind_eq_ok.1 h
    obtain ⟨flag, hflag, hsurrounding⟩ := Except.bind_eq_ok.1 hlayer
    cases hsurrounding
    exact ⟨fields, flag, (project_eq_ok_iff hholds).1 hfields, readVariable_eq_ok_iff.1 hflag,
      check_merged_iff.1 h⟩
  · rintro ⟨fields, flag, hdeclares, hvariable, hresolved⟩
    refine Except.bind_eq_ok.2 ⟨fields, (project_eq_ok_iff hholds).2 hdeclares, ?_⟩
    refine Except.bind_eq_ok.2 ⟨_, ?_, check_merged_iff.2 hresolved⟩
    exact Except.bind_eq_ok.2 ⟨flag, readVariable_eq_ok_iff.2 hvariable, rfl⟩

theorem isConfiguration_resolve (hholds : Holds world (projectPath directory) content)
    (h : resolve world given directory = .error failure) : failure.IsConfiguration := by
  unfold resolve ofEnvironment at h
  obtain h | ⟨fields, -, h⟩ := Except.bind_eq_error.1 h
  · exact isConfiguration_project hholds h
  obtain h | ⟨surrounding, -, h⟩ := Except.bind_eq_error.1 h
  · obtain h | ⟨flag, -, h⟩ := Except.bind_eq_error.1 h
    · exact isConfiguration_readVariable h
    · cases h
  · exact isConfiguration_check h

theorem exists_complaint_iff (hholds : Holds world (projectPath directory) content) :
    (∃ failure, resolve world given directory = .error failure ∧ failure.IsConfiguration) ↔
      ∀ s, resolve world given directory ≠ .ok s := by
  cases hresolve : resolve world given directory with
  | ok s => exact iff_of_false nofun fun h => h s rfl
  | error failure =>
    exact iff_of_true ⟨failure, rfl, isConfiguration_resolve hholds hresolve⟩ nofun

/-- **Where the settings of a run come from**: where the file of the project is absent or can be
read, a run has settings exactly if they are those that its sources give, each setting from the
first that gives it. Else there is a complaint about settings: the file is there and holds no
object, the variable for strict references holds a word that is none for a truth value, or a setting
is left to a value of the wrong type. -/
theorem resolve_precedence (hholds : Holds world (projectPath directory) content) :
    (∀ s, resolve world given directory = .ok s ↔ ∃ fields flag, Declares content fields ∧
      Says (world.environment.get? strictVariable) flag ∧
      Resolved given world.environment fields flag s) ∧
    ((∃ failure, resolve world given directory = .error failure ∧ failure.IsConfiguration) ↔
      (∃ text, content = some text ∧ ∀ fields, Json.read text ≠ .ok (.object fields)) ∨
      (∀ flag, ¬ Says (world.environment.get? strictVariable) flag) ∨
      ∃ fields flag, Declares content fields ∧
        Says (world.environment.get? strictVariable) flag ∧
        Unfit given world.environment fields flag) := by
  refine ⟨fun s => resolve_eq_ok_iff hholds, ?_⟩
  rw [exists_complaint_iff hholds]
  constructor
  · intro hnone
    by_cases hobject : ∃ fields, Declares content fields
    · by_cases hword : ∃ flag, Says (world.environment.get? strictVariable) flag
      · obtain ⟨fields, hdeclares⟩ := hobject
        obtain ⟨flag, hvariable⟩ := hword
        refine .inr (.inr ⟨fields, flag, hdeclares, hvariable, ?_⟩)
        -- if every setting had a source that fits, the run would have settings
        by_contra hfit
        obtain ⟨s, hs⟩ := exists_resolved_iff.2 hfit
        exact hnone s ((resolve_eq_ok_iff hholds).2 ⟨fields, flag, hdeclares, hvariable, hs⟩)
      · exact .inr (.inl fun flag h => hword ⟨flag, h⟩)
    · exact .inl (not_declares_iff.1 hobject)
  · intro h s hs
    obtain ⟨fields, flag, hdeclares, hvariable, hresolved⟩ := (resolve_eq_ok_iff hholds).1 hs
    obtain hobject | hword | ⟨fields', flag', hdeclares', hvariable', hunfit⟩ := h
    · exact not_declares_iff.2 hobject ⟨fields, hdeclares⟩
    · exact hword flag hvariable
    · rw [hdeclares'.unique hdeclares, hvariable'.unique hvariable] at hunfit
      exact exists_resolved_iff.1 ⟨s, hresolved⟩ hunfit

/-- The settings in the file of a project: a number for the directory, and a word for a truth
value. -/
def workshopText : List Char :=
  "\x7b\"output\": 7, \"strict_refs\": \"ON\"\x7d".toList

/-- A project with these settings in a file, of which the variables override the first only. -/
def workshop : World where
  files := ⟨[(["zodgen.json"], .file (Output.bytesOf workshopText))]⟩
  environment := [("ZODGEN_OUTPUT", "gen"), ("ZODGEN_BASE_URL", ""), (strictVariable, " \t")]
  directory := "/work"
  input := .error "no input"
  answer := .error "no network"

theorem resolve_precedence_workshop :
    let asked : Layer := { baseUrl := some "" }
    let bare := { workshop with environment := [] }
    Holds workshop (projectPath none) (some workshopText) ∧
      resolve workshop asked none = .ok ⟨"gen", some "", true⟩ ∧
      (∃ fields, Declares (some workshopText) fields ∧
        Resolved asked workshop.environment fields none ⟨"gen", some "", true⟩) ∧
      Holds bare (projectPath none) (some workshopText) ∧
      (resolve bare asked none).toOption = none ∧
      ∃ fields, Declares (some workshopText) fields ∧ Unfit asked [] fields none := by
  intro asked bare
  have hholds : Holds workshop (projectPath none) (some workshopText) :=
    .text (by decide +kernel) (by decide +kernel)
  have hok : resolve workshop asked none = .ok ⟨"gen", some "", true⟩ := by decide +kernel
  obtain ⟨fields, flag, hdeclares, hvariable, hresolved⟩ := ((resolve_precedence hholds).1 _).1 hok
  have hblank : Says (workshop.environment.get? strictVariable) none := .blank (by decide)
  rw [hvariable.unique hblank] at hresolved
  have hbare : Holds bare (projectPath none) (some workshopText) :=
    .text (by decide +kernel) (by decide +kernel)
  have hfails : (resolve bare asked none).toOption = none := by decide +kernel
  have hcomplaint := (exists_complaint_iff hbare).2 fun s hs => by
    rw [hs] at hfails
    cases hfails
  refine ⟨hholds, hok, ⟨fields, hdeclares, hresolved⟩, hbare, hfails, ?_⟩
  obtain hobject | hword | ⟨others, said, hothers, hsaid, hunfit⟩ :=
    (resolve_precedence hbare).2.1 hcomplaint
  · exact absurd ⟨fields, hdeclares⟩ (not_declares_iff.2 hobject)
  · exact absurd .unset (hword none)
  · rw [hsaid.unique .unset] at hunfit
    exact ⟨others, hothers, hunfit⟩

end Settings

end ApiContract
