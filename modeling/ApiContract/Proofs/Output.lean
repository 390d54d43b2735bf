import ApiContract.Output
import ApiContract.Proofs.Files.Draft

/-!
# What writing leaves

Whatever the files are and wherever the writing ends, some of the modules, in their order, are in
the directory with their whole texts, and all else is as before, but for directories of its path
that were missing (`Leaves`). This holds of no modules when the directory is made, whether it is
made or not (`leaves_nothing`), and each file that is replaced adds one (`Leaves.concat`); a file
that cannot be replaced changes nothing (`Leaves.same`).

Main facts: `write_leaves`, and `eq_of_write_error` (what is not refused as a directory that cannot
be written to is refused before anything is made).
-/

namespace ApiContract.Output

open Files

/-- The places of modules in a directory. -/
def places (directory : FilePath) (modules : List (String × List Char)) : List Location :=
  modules.map fun m => (directory.child m.1).place

/-- What is left of some files when the modules have been written into a directory. -/
structure Leaves (directory : FilePath) (modules : List (String × List Char))
    (before after : Files) : Prop where
  /-- Each of the modules is there with its whole text. -/
  written : ∀ m ∈ modules, after.read (directory.child m.1) = .ok (bytesOf m.2)
  /-- Anywhere else is what was there before, or one of the directories that were missing. -/
  others : ∀ p ∉ places directory modules, after.get? p = before.get? p ∨
    p ∈ before.missing directory ∧ after.get? p = some .directory

section
variable {directory : FilePath} {done rest : List (String × List Char)}
  {m : String × List Char} {before files after : Files}

theorem leaves_nothing (h : Grows directory.way before after) :
    Leaves directory [] before after where
  written := List.forall_mem_nil _
  others p _ := (h p).imp_right fun ⟨hp, hnone, hmade⟩ =>
    ⟨List.mem_filter.2 ⟨hp, by simp [hnone]⟩, hmade⟩

namespace Leaves

theorem same (h : Leaves directory done before files) (hsame : Same files after) :
    Leaves directory done before after where
  written m hm := by
    obtain ⟨hreaches, hfile⟩ := read_eq_ok_iff.1 (h.written m hm)
    exact read_eq_ok_iff.2 ⟨hreaches.mono fun p hp => (hsame p).trans hp, (hsame _).trans hfile⟩
  others p hp := hsame p ▸ h.others p hp

theorem concat (h : Leaves directory done before files)
    (hputs : Puts (directory.child m.1) (bytesOf m.2) files after)
    (hnew : (directory.child m.1).place ∉ places directory done) :
    Leaves directory (done ++ [m]) before after where
  written m' hm' := by
    obtain hm' | hm' := List.mem_append.1 hm'
    · obtain ⟨hreaches, hfile⟩ := read_eq_ok_iff.1 (h.written m' hm')
      have hne : (directory.child m'.1).place ≠ (directory.child m.1).place := fun heq =>
        hnew (heq ▸ List.mem_map_of_mem hm')
      exact read_eq_ok_iff.2
        ⟨hreaches.mono fun _ => hputs.keeps, (hputs.others _ hne).trans hfile⟩
    · rw [List.mem_singleton.1 hm']
      exact hputs.read
  others p hp := by
    rw [places, List.map_append, List.mem_append, not_or] at hp
    rw [hputs.others p fun heq => hp.2 (List.mem_singleton.2 heq)]
    exact h.others p hp.1

end Leaves

/-- Writing adds all the files to those that are there, or stops before one of them. -/
theorem writeFiles_leaves {drafting : FilePath → Drafting} {trace : Trace Files.Fault Unit}
    (hpresent : files.Present directory) (hleaves : Leaves directory done before files)
    (hdistinct : (places directory (done ++ rest)).Nodup)
    (h : writeFiles drafting directory rest files = (after, trace)) :
    (trace.outcome = .ok () ∧ Leaves directory (done ++ rest) before after ∧
        after.Present directory) ∨
      (∃ fault, trace.outcome = .error fault) ∧
        ∃ k < rest.length, Leaves directory (done ++ rest.take k) before after := by
  induction rest generalizing done files after trace with
  | nil =>
    cases h
    rw [List.append_nil]
    exact .inl ⟨rfl, hleaves, hpresent⟩
  | cons m rest ih =>
    rw [writeFiles] at h
    have hparent : files.Present (directory.child m.1).parent := by
      rwa [FilePath.parent_child]
    split at h
    · next mid fault hreplace =>
      cases h
      refine .inr ⟨⟨fault, rfl⟩, 0, Nat.succ_pos _, ?_⟩
      rw [List.take_zero, List.append_nil]
      exact hleaves.same (same_of_replace hparent hreplace)
    · next mid hreplace =>
      have hputs := puts_of_replace hparent hreplace
      have hnew : (directory.child m.1).place ∉ places directory done := by
        rw [places, List.map_append, List.map_cons] at hdistinct
        exact fun hmem => (List.nodup_append.1 hdistinct).2.2 _ hmem _ List.mem_cons_self rfl
      rw [List.append_cons] at hdistinct
      rcases hrest : writeFiles drafting directory rest mid with ⟨final, more⟩
      rw [hrest] at h
      cases h
      obtain ⟨hok, hall, hthere⟩ | ⟨⟨fault, herror⟩, k, hk, hsome⟩ :=
        ih (hpresent.mono fun _ => hputs.keeps) (hleaves.concat hputs hnew) hdistinct hrest
      · refine .inl ⟨?_, ?_, hthere⟩
        · rw [Trace.outcome_bind, Trace.outcome_say]
          exact hok
        · rwa [List.append_cons]
      · refine .inr ⟨⟨fault, ?_⟩, k + 1, Nat.succ_lt_succ hk, ?_⟩
        · rw [Trace.outcome_bind, Trace.outcome_say]
          exact herror
        · rwa [List.take_succ_cons, List.append_cons]

end

theorem nodup_places (directory : FilePath) (sources : Sources) :
    (places directory sources.files).Nodup := by
  have hplaces : places directory sources.files =
      [Module.schemasFile, Module.clientFile, Module.endpointsFile].map
        fun name => directory.place ++ [name] := by
    simp only [places, Sources.files, List.map_cons, List.map_nil, FilePath.place_child]
    rw [Location.step_of_ne (by decide), Location.step_of_ne (by decide),
      Location.step_of_ne (by decide)]
  simp [hplaces, Module.schemasFile, Module.clientFile, Module.endpointsFile]

/-- Making the directory and writing the modules, one after the other. -/
theorem write_cases {drafting : FilePath → Drafting} {directory : FilePath} {sources : Sources}
    {files after : Files} {trace : Trace Failure Unit}
    (h : write drafting directory sources files = (after, trace)) :
    (trace.outcome = .ok () ∧ Leaves directory sources.files files after ∧
        after.Present directory) ∨
      (∃ failure, trace.outcome = .error failure) ∧
        ∃ k < 3, Leaves directory (sources.files.take k) files after := by
  unfold write at h
  split at h
  · next made fault hmake =>
    cases h
    exact .inr ⟨⟨_, rfl⟩, 0, Nat.succ_pos _, leaves_nothing (grows_makeDirectories hmake)⟩
  · next made hmake =>
    rcases hwrite : writeFiles drafting directory sources.files made with ⟨final, more⟩
    rw [hwrite] at h
    cases h
    have hnothing := leaves_nothing (grows_makeDirectories hmake)
    rw [Trace.outcome_mapError]
    obtain ⟨hok, hall⟩ | ⟨⟨fault, herror⟩, hsome⟩ :=
      writeFiles_leaves (present_of_makeDirectories hmake) hnothing
        (nodup_places directory sources) hwrite
    · exact .inl ⟨by rw [hok]; rfl, hall⟩
    · exact .inr ⟨⟨_, by rw [herror]; rfl⟩, hsome⟩

/-! ## Failures that are no complaints about the directory -/

theorem writeFiles_ne_zeroCharacter {drafting : FilePath → Drafting} {directory : FilePath}
    {modules : List (String × List Char)} {files : Files} (hpresent : files.Present directory)
    (hnames : ∀ m ∈ modules, '\x00' ∉ m.1.toList) :
    (writeFiles drafting directory modules files).2.outcome ≠ .error .zeroCharacter := by
  induction modules generalizing files with
  | nil => nofun
  | cons m rest ih =>
    obtain ⟨hname, hnames⟩ := List.forall_mem_cons.1 hnames
    rw [writeFiles]
    split
    · next mid fault hreplace =>
      rintro ⟨⟩
      exact replace_ne_zeroCharacter hpresent hname hreplace
    · next mid hreplace =>
      have hputs := puts_of_replace (by rwa [FilePath.parent_child]) hreplace
      show (Trace.say _ >>= fun _ => (writeFiles drafting directory rest mid).2).outcome ≠ _
      rw [Trace.outcome_bind, Trace.outcome_say]
      exact ih (hpresent.mono fun _ => hputs.keeps) hnames

/-- A directory that is refused for its name is not written to. -/
theorem eq_of_write_error {drafting : FilePath → Drafting} {directory : FilePath}
    {sources : Sources} {files after : Files} {trace : Trace Failure Unit} {failure : Failure}
    (h : write drafting directory sources files = (after, trace))
    (herror : trace.outcome = .error failure)
    (hcode : failure.exitCode ≠ Category.output.exitCode) : after = files := by
  have hzero : ∀ fault, refuse directory fault = failure → fault = .zeroCharacter := by
    rintro fault rfl
    refine Classical.byContradiction fun hfault => hcode ?_
    rw [refuse, if_neg hfault]
    rfl
  unfold write at h
  split at h
  · next made fault hmake =>
    cases h
    cases hzero fault (Except.error.inj herror)
    exact eq_of_makeDirectories_zeroCharacter hmake
  · next made hmake =>
    have hnever : (writeFiles drafting directory sources.files made).2.outcome ≠
        .error .zeroCharacter := by
      refine writeFiles_ne_zeroCharacter (present_of_makeDirectories hmake) ?_
      simp [Sources.files, Module.schemasFile, Module.clientFile, Module.endpointsFile]
    rcases hwrite : writeFiles drafting directory sources.files made with ⟨final, more⟩
    rw [hwrite] at h hnever
    cases h
    obtain ⟨fault, hfault, hrefuse⟩ := Trace.mapError_eq_error.1 herror
    cases hzero fault hrefuse
    exact absurd hfault hnever

/-! ## What is written -/

end ApiContract.Output
