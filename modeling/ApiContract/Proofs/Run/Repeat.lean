import ApiContract.Proofs.Files.Repeat
import ApiContract.Proofs.Run

/-!
# Running again

A run that wrote its modules can be repeated: it finds the same description, since the writing left
every file but the modules as it was, it makes the same modules of it, and to write these changes
nothing, since each file holds its module already. The drafts of the second run may be drawn as they
like, as long as a free mark is among those drawn.

Main facts: `settled_of_write` and `write_of_settled` (writing a second time), `find_of_write` (what
is still found) and `run_again`.
-/

namespace ApiContract

namespace Files.Same

variable {before after final : Files}

theorem trans (h : Same before after) (h' : Same after final) : Same before final :=
  fun p => (h' p).trans (h p)

theorem read {path : FilePath} {bytes : List UInt8} (h : Same before after)
    (hread : before.read path = .ok bytes) : after.read path = .ok bytes := by
  obtain ⟨hreaches, hfile⟩ := read_eq_ok_iff.1 hread
  exact read_eq_ok_iff.2 ⟨hreaches.mono fun p hp => (h p).trans hp, (h _).trans hfile⟩

theorem serves {path : FilePath} {drafting : Drafting} (h : Same before after)
    (hserves : drafting.Serves before path) : drafting.Serves after path := by
  obtain ⟨mark, hmark, hfree⟩ := hserves.free
  exact ⟨hserves.willing, mark, hmark, (h _).trans hfree⟩

end Files.Same

/-! ## Writing -/

namespace Output

open Files

/-- None of the files has a name that begins with a point, as those of drafts do. -/
def Visible (modules : List (String × List Char)) : Prop :=
  ∀ m ∈ modules, m.1.toList.head? ≠ some '.'

/-- The drafts of files can be made. -/
def Served (drafting : FilePath → Drafting) (directory : FilePath)
    (modules : List (String × List Char)) (files : Files) : Prop :=
  ∀ m ∈ modules, (drafting (directory.child m.1)).Serves files (directory.child m.1)

/-- Files are in a directory with their whole texts, and their drafts fit beside them. -/
structure Settled (directory : FilePath) (modules : List (String × List Char))
    (files : Files) : Prop where
  present : files.Present directory
  written : ∀ m ∈ modules, files.read (directory.child m.1) = .ok (bytesOf m.2)
  fits : ∀ m ∈ modules, ∀ mark, ((directory.child m.1).draft mark).Fits

section
variable {drafting : FilePath → Drafting} {directory : FilePath}
  {modules : List (String × List Char)} {files after : Files} {trace : Trace Files.Fault Unit}

namespace Settled

theorem same (h : Settled directory modules files) (hsame : Same files after) :
    Settled directory modules after where
  present := h.present.mono fun p hp => (hsame p).trans hp
  written m hm := hsame.read (h.written m hm)
  fits := h.fits

theorem rest {m : String × List Char} (h : Settled directory (m :: modules) files) :
    Settled directory modules files where
  present := h.present
  written := (List.forall_mem_cons.1 h.written).2
  fits := (List.forall_mem_cons.1 h.fits).2

end Settled

theorem visible_files (sources : Sources) : Visible sources.files := by
  have hnames : ∀ name ∈ [Module.schemasFile, Module.clientFile, Module.endpointsFile],
      name.toList.head? ≠ some '.' := by decide
  intro m hm
  exact hnames m.1 (by simpa [Sources.files] using List.mem_map_of_mem (f := Prod.fst) hm)

theorem ne_above_of_head? {name : String} (h : name.toList.head? ≠ some '.') :
    name ≠ Location.above := by
  rintro rfl
  exact h (by decide)

/-- No draft is where one of the files will be. -/
theorem place_draft_not_mem (hvisible : Visible modules) (name : String) (mark : Mark) :
    ((directory.child name).draft mark).place ∉ places directory modules := by
  intro hmem
  obtain ⟨m, hm, hplace⟩ := List.mem_map.1 hmem
  rw [FilePath.draft, FilePath.parent_child, FilePath.name_child, FilePath.place_child,
    FilePath.place_child, Location.step_of_ne (ne_above_of_head? (hvisible m hm)),
    Location.step_of_ne] at hplace
  · have hname := List.append_cancel_left hplace
    refine hvisible m hm ?_
    rw [List.head_eq_of_cons_eq hname]
    simp
  · intro habove
    have hlength := congrArg String.length habove
    simp only [String.length_append, mark.drawn.1] at hlength
    change 1 + name.length + 1 + 8 + 4 = 2 at hlength
    omega

/-- Where the directory is there, only the files themselves are changed. -/
theorem Leaves.unchanged (h : Leaves directory modules files after)
    (hpresent : files.Present directory) {p : Location} (hp : p ∉ places directory modules) :
    after.get? p = files.get? p := by
  obtain hsame | ⟨hmissing, -⟩ := h.others p hp
  · exact hsame
  · obtain ⟨hway, hnone⟩ := List.mem_filter.1 hmissing
    rw [hpresent.way p hway] at hnone
    cases hnone

theorem leaves_of_writeFiles (hpresent : files.Present directory)
    (hdistinct : (places directory modules).Nodup)
    (h : writeFiles drafting directory modules files = (after, trace))
    (hok : trace.outcome = .ok ()) : Leaves directory modules files after := by
  obtain ⟨-, hleaves, -⟩ | ⟨⟨fault, herror⟩, -⟩ :=
    writeFiles_leaves hpresent (leaves_nothing (.refl _ _)) hdistinct h
  · exact hleaves
  · rw [hok] at herror
    cases herror

theorem keeps_writeFiles (hpresent : files.Present directory)
    (h : writeFiles drafting directory modules files = (after, trace)) {p : Location}
    (hp : files.get? p = some .directory) : after.get? p = some .directory := by
  induction modules generalizing files after trace with
  | nil =>
    cases h
    exact hp
  | cons m rest ih =>
    rw [writeFiles] at h
    split at h
    · next mid fault hreplace =>
      cases h
      exact (same_of_replace (by rwa [FilePath.parent_child]) hreplace p).trans hp
    · next mid hreplace =>
      have hputs := puts_of_replace (by rwa [FilePath.parent_child]) hreplace
      rcases hrest : writeFiles drafting directory rest mid with ⟨final, more⟩
      rw [hrest] at h
      cases h
      exact ih (hpresent.mono fun _ => hputs.keeps) hrest (hputs.keeps hp)

/-- Files that were written were served, still are, and their drafts fit. -/
theorem served_of_writeFiles (hpresent : files.Present directory) (hvisible : Visible modules)
    (hdistinct : (places directory modules).Nodup)
    (h : writeFiles drafting directory modules files = (after, trace))
    (hok : trace.outcome = .ok ()) :
    Served drafting directory modules after ∧
      ∀ m ∈ modules, ∀ mark, ((directory.child m.1).draft mark).Fits := by
  induction modules generalizing files after trace with
  | nil => exact ⟨List.forall_mem_nil _, List.forall_mem_nil _⟩
  | cons m rest ih =>
    have hleaves := leaves_of_writeFiles hpresent hdistinct h hok
    rw [writeFiles] at h
    split at h
    · cases h
      cases hok
    · next mid hreplace =>
      have hparent : files.Present (directory.child m.1).parent := by rwa [FilePath.parent_child]
      have hputs := puts_of_replace hparent hreplace
      obtain ⟨⟨hwilling, mark, hmark, hfree⟩, hfits⟩ := served_of_replace hparent hreplace
      rcases hrest : writeFiles drafting directory rest mid with ⟨final, more⟩
      rw [hrest] at h
      cases h
      rw [Trace.outcome_bind, Trace.outcome_say] at hok
      obtain ⟨hserved, hothers⟩ := ih (hpresent.mono fun _ => hputs.keeps)
        (List.forall_mem_cons.1 hvisible).2 (List.nodup_cons.1 hdistinct).2 hrest hok
      refine ⟨List.forall_mem_cons.2 ⟨⟨hwilling, mark, hmark, ?_⟩, hserved⟩,
        List.forall_mem_cons.2 ⟨hfits, hothers⟩⟩
      rw [hleaves.unchanged hpresent (place_draft_not_mem hvisible _ _), hfree]

/-- Files that are settled are written again without any change. -/
theorem writeFiles_of_settled (hsettled : Settled directory modules files)
    (hvisible : Visible modules) (hserved : Served drafting directory modules files) :
    ∃ after trace, writeFiles drafting directory modules files = (after, trace) ∧
      trace.outcome = .ok () ∧ Same files after := by
  induction modules generalizing files with
  | nil => exact ⟨files, pure (), rfl, rfl, fun _ => rfl⟩
  | cons m rest ih =>
    obtain ⟨hname, hvisible⟩ := List.forall_mem_cons.1 hvisible
    obtain ⟨hserves, hserved⟩ := List.forall_mem_cons.1 hserved
    have hold := hsettled.written m List.mem_cons_self
    obtain ⟨mid, hreplace⟩ := replace_of_serves hsettled.present (ne_above_of_head? hname) hold
      (hsettled.fits m List.mem_cons_self) hserves (bytesOf m.2)
    have hparent : files.Present (directory.child m.1).parent := by
      rw [FilePath.parent_child]
      exact hsettled.present
    have hsame : Same files mid :=
      (puts_of_replace hparent hreplace).same (read_eq_ok_iff.1 hold).2
    obtain ⟨after, trace, hrest, hok, hafter⟩ := ih (hsettled.rest.same hsame) hvisible
      fun m' hm' => hsame.serves (hserved m' hm')
    refine ⟨after, (do .say (writtenNote (directory.child m.1) m.2); trace), ?_, ?_,
      hsame.trans hafter⟩
    · rw [writeFiles]
      simp only [hreplace, hrest]
    · rw [Trace.outcome_bind, Trace.outcome_say]
      exact hok

end

section
variable {drafting : FilePath → Drafting} {directory : FilePath} {sources : Sources}
  {files after : Files} {trace : Trace Failure Unit}

/-- A writing that succeeds makes the directory and then writes the files. -/
theorem exists_writeFiles_of_write (h : write drafting directory sources files = (after, trace))
    (hok : trace.outcome = .ok ()) : ∃ made more,
      files.makeDirectories directory = (made, .ok ()) ∧
      writeFiles drafting directory sources.files made = (after, more) ∧
      more.outcome = .ok () := by
  unfold write at h
  split at h
  · cases h
    cases hok
  · next made hmake =>
    rcases hwrite : writeFiles drafting directory sources.files made with ⟨final, more⟩
    rw [hwrite] at h
    cases h
    exact ⟨made, more, hmake, hwrite, Trace.mapError_eq_ok.1 hok⟩

theorem settled_of_write (h : write drafting directory sources files = (after, trace))
    (hok : trace.outcome = .ok ()) :
    Settled directory sources.files after ∧ Served drafting directory sources.files after := by
  obtain ⟨-, hleaves, hpresent⟩ | ⟨⟨failure, herror⟩, -⟩ := write_cases h
  · obtain ⟨made, more, hmake, hwrite, hmore⟩ := exists_writeFiles_of_write h hok
    obtain ⟨hserved, hfits⟩ := served_of_writeFiles (present_of_makeDirectories hmake)
      (visible_files sources) (nodup_places directory sources) hwrite hmore
    exact ⟨⟨hpresent, hleaves.written, hfits⟩, hserved⟩
  · rw [hok] at herror
    cases herror

theorem write_of_settled (hsettled : Settled directory sources.files files)
    (hserved : Served drafting directory sources.files files) :
    ∃ after trace, write drafting directory sources files = (after, trace) ∧
      trace.outcome = .ok () ∧ Same files after := by
  obtain ⟨after, trace, hwrite, hok, hsame⟩ :=
    writeFiles_of_settled hsettled (visible_files sources) hserved
  refine ⟨after, trace.mapError (refuse directory), ?_, Trace.mapError_eq_ok.2 hok, hsame⟩
  unfold write
  simp only [makeDirectories_of_present hsettled.present, hwrite]

/-- Writing hides no file but those that it writes. -/
theorem find_of_write (h : write drafting directory sources files = (after, trace))
    (hok : trace.outcome = .ok ()) {path : FilePath} {bytes : List UInt8}
    (hfound : files.find path = .ok (.file bytes))
    (hapart : path.place ∉ places directory sources.files) :
    after.find path = .ok (.file bytes) := by
  obtain ⟨hreaches, hfile⟩ := find_eq_ok_iff.1 hfound
  obtain ⟨made, more, hmake, hwrite, hmore⟩ := exists_writeFiles_of_write h hok
  have hgrows := grows_makeDirectories hmake
  have hpresent := present_of_makeDirectories hmake
  have hleaves := leaves_of_writeFiles hpresent (nodup_places directory sources) hwrite hmore
  refine find_eq_ok_iff.2 ⟨hreaches.mono fun p hp => ?_, ?_⟩
  · exact keeps_writeFiles hpresent hwrite (hgrows.keeps hp)
  · rw [hleaves.unchanged hpresent hapart, hgrows.keeps hfile]

end

end Output

/-! ## Reading -/

namespace Source

variable {world : World} {name : String}

theorem exists_file_of_readFile {result : List Char × Option Format}
    (h : readFile world name = .ok result) :
    ∃ bytes, world.files.find (.ofText name) = .ok (.file bytes) := by
  unfold readFile at h
  extract_lets path at h
  split at h
  · cases h
  · cases h
  · next hfile =>
    unfold World.isFile at hfile
    split at hfile
    · cases hfile
    unfold Files.isFile Files.check at hfile
    split at hfile
    · next entry hentry =>
      cases entry with
      | directory => cases hfile
      | file bytes => exact ⟨bytes, hentry⟩
    · cases hfile
    · cases hfile
    · cases hfile
    · cases hfile

/-- Of all files, only the one that is named counts. -/
theorem readFile_congr {files : Files} {drafting : FilePath → Drafting}
    (h : files.find (.ofText name) = world.files.find (.ofText name)) :
    readFile { world with files, drafting } name = readFile world name := by
  simp only [readFile, World.isFile, World.readText, Files.isFile, Files.check, Files.read, h]

theorem load_congr {world' : World} {locator : String}
    (h : (ofLocator locator).read world' = (ofLocator locator).read world)
    (hyaml : world'.readYaml = world.readYaml) : load world' locator = load world locator := by
  rw [load, load, h, hyaml]

end Source

namespace Run

section
variable {r : Reporter} {log : Bool} {world : World} {locator : String} {settings : Settings}
  {sources : Sources}

/-- A run that succeeds and is not dry has written what it prepared. -/
theorem written_of_run (hplain : r.plain)
    (h : (run r log world locator settings false).outcome = .ok sources) :
    (prepare world locator settings false).outcome = .ok sources ∧ ∃ trace,
      Output.write world.drafting (.ofText settings.output) sources world.files =
        ((run r log world locator settings false).files, trace) ∧ trace.outcome = .ok () := by
  cases hprepare : (prepare world locator settings false).outcome with
  | error failure =>
    rw [(run_of_error hplain hprepare).1] at h
    cases h
  | ok prepared =>
    rcases hwrite : Output.write world.drafting (.ofText settings.output) prepared world.files with
      ⟨after, trace⟩
    obtain ⟨hrun, hfiles⟩ := run_writes hplain hprepare hwrite
    rw [hrun] at h
    cases htrace : trace.outcome with
    | error failure =>
      rw [htrace] at h
      cases h
    | ok _ =>
      rw [htrace] at h
      cases h
      exact ⟨rfl, trace, by rw [hwrite, hfiles], htrace⟩

/-- The modules depend on the files through the source of the description only. -/
theorem prepare_congr {world' : World}
    (h : (Source.ofLocator locator).read world' = (Source.ofLocator locator).read world)
    (hyaml : world'.readYaml = world.readYaml) :
    prepare world' locator settings false = prepare world locator settings false := by
  simp only [prepare, describe, Source.load_congr h hyaml]

/-- What a run found, it still finds when it has written its modules. -/
theorem read_again (hplain : r.plain)
    (h : (run r log world locator settings false).outcome = .ok sources)
    (hapart : ∀ text, Source.ofLocator locator = .file text →
      (FilePath.ofText text).place ∉ Output.places (.ofText settings.output) sources.files)
    (drafting : FilePath → Drafting) :
    (Source.ofLocator locator).read
        { world with files := (run r log world locator settings false).files, drafting } =
      (Source.ofLocator locator).read world := by
  obtain ⟨hprepare, trace, hwrite, hok⟩ := written_of_run hplain h
  cases hsource : Source.ofLocator locator with
  | input => rfl
  | url text => rfl
  | file text =>
    obtain ⟨d, hd, -⟩ := prepare_eq_ok_iff.1 hprepare
    obtain ⟨fields, hload, -⟩ := Trace.bind_eq_ok.1 hd
    obtain ⟨result, hread, -⟩ := Trace.bind_eq_ok.1 hload
    rw [hsource] at hread
    obtain ⟨bytes, hfound⟩ := Source.exists_file_of_readFile hread
    exact Source.readFile_congr
      ((Output.find_of_write hwrite hok hfound (hapart text hsource)).trans hfound.symm)

end

/-- **A run can be repeated**: when a run that is not dry succeeded, and its locator leads to none
of the modules that it wrote, the same run on the files that it left succeeds too, gives the same
modules, and leaves every file as it found it. Its drafts may be drawn as those of the first run or
otherwise, as long as a free mark is among those drawn and the system refuses nothing. -/
theorem run_again {r : Reporter} {log : Bool} {world : World} {locator : String}
    {settings : Settings} {sources : Sources} {drafting : FilePath → Drafting} (hplain : r.plain)
    (hok : (run r log world locator settings false).outcome = .ok sources)
    (hapart : ∀ text, Source.ofLocator locator = .file text →
      (FilePath.ofText text).place ∉ Output.places (.ofText settings.output) sources.files)
    (hdrafting : drafting = world.drafting ∨ Output.Served drafting (.ofText settings.output)
      sources.files (run r log world locator settings false).files) :
    let first := run r log world locator settings false
    let again := run r log { world with files := first.files, drafting } locator settings false
    again.outcome = .ok sources ∧ Files.Same first.files again.files := by
  intro first again
  obtain ⟨hprepare, trace, hwrite, htrace⟩ := written_of_run hplain hok
  obtain ⟨hsettled, hserved⟩ := Output.settled_of_write hwrite htrace
  have hserves : Output.Served drafting (.ofText settings.output) sources.files first.files := by
    obtain rfl | hserves := hdrafting
    · exact hserved
    · exact hserves
  obtain ⟨after, trace', hrewrite, hok', hsame⟩ := Output.write_of_settled hsettled hserves
  have hprepared : (prepare { world with files := first.files, drafting } locator settings
      false).outcome = .ok sources := by
    rw [prepare_congr (read_again hplain hok hapart drafting) rfl, hprepare]
  obtain ⟨houtcome, hfiles⟩ := run_writes hplain hprepared hrewrite
  constructor
  · rw [houtcome, hok']
    rfl
  · rw [hfiles]
    exact hsame

/-- A world with a description in the directory of the modules, where an old module is left, and a
draft under the first mark that is drawn. -/
def stockroom : World where
  files := ⟨[(["gen"], .directory), (["gen", "schemas.api.ts"], .file [47, 47]),
    (["gen", ".schemas.api.ts.a1b2c3d4.tmp"], .file []),
    (["gen", "pets.json"], .file (Output.bytesOf ("\x7b\"openapi\": \"3.1\", \"paths\": " ++
      "\x7b\"/pets\": \x7b\"get\": \x7b\x7d\x7d\x7d\x7d").toList))]⟩
  environment := []
  directory := "/work"
  input := .error "no input"
  answer := .error "no network"
  drafting _ := { marks := [⟨"a1b2c3d4", by decide⟩, ⟨"_zzzzzz_", by decide⟩] }

theorem run_again_stockroom :
    let settings : Settings := { output := "gen/../gen" }
    let first := run .silent false stockroom "gen/pets.json" settings false
    let again := run .silent false { stockroom with files := first.files } "gen/pets.json" settings
      false
    Reporter.silent.plain = true ∧
      ∃ sources, first.outcome = .ok sources ∧ sources.operations.length = 1 ∧
        (∀ text, Source.ofLocator "gen/pets.json" = .file text →
          (FilePath.ofText text).place ∉ Output.places (.ofText "gen/../gen") sources.files) ∧
        again.outcome = .ok sources ∧ Files.Same first.files again.files := by
  intro settings first again
  have hcount : first.outcome.toOption.map (·.operations.length) = some 1 := by decide +kernel
  obtain ⟨sources, hok, hlength⟩ := exists_of_toOption_map hcount
  have hapart : ∀ text, Source.ofLocator "gen/pets.json" = .file text →
      (FilePath.ofText text).place ∉ Output.places (.ofText "gen/../gen") sources.files := by
    have hsource : Source.ofLocator "gen/pets.json" = .file "gen/pets.json" := by decide +kernel
    have hplaces : (FilePath.ofText "gen/pets.json").place ∉
        [Module.schemasFile, Module.clientFile, Module.endpointsFile].map fun name =>
          ((FilePath.ofText "gen/../gen").child name).place := by decide +kernel
    intro text htext
    cases hsource.symm.trans htext
    exact hplaces
  exact ⟨rfl, sources, hok, hlength, hapart, run_again rfl hok hapart (.inl rfl)⟩

end Run

end ApiContract
