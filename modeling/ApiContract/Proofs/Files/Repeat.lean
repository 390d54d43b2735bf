import ApiContract.Proofs.Files.Draft

/-!
# Replacing files again

Whether a file can be replaced depends on its path, on what is there, and on what befalls the draft:
no stage may be refused, and one of the marks that are drawn has to be free (`Drafting.Serves`). The
length of a path does not depend on the mark of a draft, so where one draft fits, every other does
too. Hence what was replaced once can be replaced again, by whatever marks, and to put the same
bytes into a file changes nothing.

Main facts: `served_of_replace` (what a success tells), `replace_of_serves` (what makes a success)
and `Puts.same` (the same bytes again).
-/

namespace ApiContract

/-- Nothing befalls the draft of a file: the system refuses no stage, and one of the marks is
free. -/
structure Drafting.Serves (drafting : Drafting) (files : Files) (path : FilePath) : Prop where
  willing : ∀ stage, drafting.refusal stage = none
  free : ∃ mark ∈ drafting.marks, files.get? (path.draft mark).place = none

/-! ## The length of drafts -/

theorem utf8ByteSize_ofList_eq_length {text : List Char} (h : ∀ c ∈ text, c.utf8Size = 1) :
    (String.ofList text).utf8ByteSize = text.length := by
  induction text with
  | nil => rfl
  | cons c rest ih =>
    obtain ⟨hc, hrest⟩ := List.forall_mem_cons.1 h
    rw [String.ofList_cons, String.utf8ByteSize_append, String.utf8ByteSize_singleton, hc,
      ih hrest, List.length_cons, Nat.add_comm]

theorem Mark.utf8Size_of_isCharacter {c : Char} (h : isCharacter c) : c.utf8Size = 1 := by
  rw [Char.utf8Size_eq_one_iff, UInt32.le_iff_toNat_le]
  change (decide (c.val ≥ 'a'.val) && decide (c.val ≤ 'z'.val) ||
    decide (c.val ≥ '0'.val) && decide (c.val ≤ '9'.val) || c == '_') = true at h
  simp only [Bool.or_eq_true, Bool.and_eq_true, decide_eq_true_eq, beq_iff_eq,
    UInt32.le_iff_toNat_le] at h
  obtain (⟨-, h⟩ | ⟨-, h⟩) | rfl := h
  · exact Nat.le_trans h (by decide)
  · exact Nat.le_trans h (by decide)
  · decide

theorem Mark.utf8ByteSize_text (mark : Mark) : mark.text.utf8ByteSize = 8 := by
  have hsize := utf8ByteSize_ofList_eq_length fun c hc =>
    utf8Size_of_isCharacter (List.all_eq_true.1 mark.drawn.2 c hc)
  rwa [String.ofList_toList, String.length_toList, mark.drawn.1] at hsize

namespace FilePath

theorem utf8ByteSize_text_child (path : FilePath) {name other : String}
    (h : name.utf8ByteSize = other.utf8ByteSize) :
    (path.child name).text.utf8ByteSize = (path.child other).text.utf8ByteSize := by
  have hjoined : ("/".intercalate (path.names ++ [name])).utf8ByteSize =
      ("/".intercalate (path.names ++ [other])).utf8ByteSize := by
    cases hnames : path.names with
    | nil => simpa using h
    | cons first rest =>
      rw [String.intercalate_append_of_ne_nil (List.cons_ne_nil _ _) (List.cons_ne_nil _ _),
        String.intercalate_append_of_ne_nil (List.cons_ne_nil _ _) (List.cons_ne_nil _ _)]
      simp [h]
  have htext : ∀ last,
      (path.child last).text = path.origin.text ++ "/".intercalate (path.names ++ [last]) :=
    fun last => if_neg fun h => List.append_ne_nil_of_right_ne_nil _ (List.cons_ne_nil _ _) h.2
  rw [htext, htext, String.utf8ByteSize_append, hjoined, ← String.utf8ByteSize_append]

/-- Drafts differ in their marks only, and all marks are of one length. -/
theorem fits_draft {path : FilePath} {mark other : Mark} (h : (path.draft mark).Fits) :
    (path.draft other).Fits := by
  have hsize : ∀ mark : Mark, ("." ++ path.name ++ "." ++ mark.text ++ ".tmp").utf8ByteSize =
      ("." ++ path.name ++ ".").utf8ByteSize + 8 + ".tmp".utf8ByteSize := by
    intro mark
    rw [String.utf8ByteSize_append, String.utf8ByteSize_append, mark.utf8ByteSize_text]
  have hsame := (hsize mark).trans (hsize other).symm
  obtain ⟨hplain, hshort, hnames⟩ := h
  refine ⟨?_, (utf8ByteSize_text_child _ hsame) ▸ hshort, ?_⟩
  · intro name hname
    obtain hname | hname := List.mem_append.1 hname
    · exact hplain name (List.mem_append_left _ hname)
    · have hown : '\x00' ∉ path.name.toList := by
        have := hplain _ (List.mem_append_right _ List.mem_cons_self)
        simp only [String.toList_append, List.mem_append, not_or] at this
        exact this.1.1.1.2
      rw [List.mem_singleton.1 hname]
      simp [hown, Files.Mark.not_mem_zeroCharacter other]
  · intro name hname
    obtain hname | hname := List.mem_append.1 hname
    · exact hnames name (List.mem_append_left _ hname)
    · rw [List.mem_singleton.1 hname, ← hsame]
      exact hnames _ (List.mem_append_right _ List.mem_cons_self)

end FilePath

namespace Files

section
variable {files after : Files} {path : FilePath} {bytes : List UInt8}

/-- To put into a file what it holds changes nothing. -/
theorem Puts.same (h : Puts path bytes files after)
    (hold : files.get? path.place = some (.file bytes)) : Same files after := by
  intro p
  by_cases hp : p = path.place
  · rw [hp, h.written, hold]
  · exact h.others p hp

/-! ## What a success tells -/

theorem willing_of_attempt {α : Type} {drafting : Drafting} {stage : Stage}
    {result : Except Fault α} {a : α} (h : drafting.attempt stage result = .ok a) :
    drafting.refusal stage = none := by
  unfold Drafting.attempt at h
  split at h
  · cases h
  · assumption

theorem exists_mark_of_makeDraft {marks : List Mark} {draft : FilePath}
    (h : files.makeDraft path marks = .ok (draft, after)) :
    ∃ mark ∈ marks, draft = path.draft mark := by
  induction marks with
  | nil => cases h
  | cons mark marks ih =>
    rw [makeDraft] at h
    split at h
    · cases h
      exact ⟨mark, List.mem_cons_self, rfl⟩
    · obtain ⟨other, hother, hdraft⟩ := ih h
      exact ⟨other, List.mem_cons_of_mem mark hother, hdraft⟩
    · cases h

/-- A file that is replaced was served, and all its drafts fit. -/
theorem served_of_replace {drafting : Drafting} (hparent : files.Present path.parent)
    (h : files.replace path bytes drafting = (after, .ok ())) :
    drafting.Serves files path ∧ ∀ mark, (path.draft mark).Fits := by
  unfold replace at h
  simp only [makeDirectories_of_present hparent] at h
  split at h
  · cases h
  · next draft made hmade =>
    have hmake := attempt_eq_ok hmade
    obtain ⟨hnone, hputs⟩ := makeDraft_eq_ok hmake
    obtain ⟨mark, hmark, rfl⟩ := exists_mark_of_makeDraft hmake
    unfold finishDraft at h
    split at h
    · cases h
    · next hfill =>
      split at h
      · cases h
      · next hmove =>
        refine ⟨⟨fun stage => ?_, mark, hmark, hnone⟩,
          fun _ => FilePath.fits_draft hputs.reaches.fits⟩
        cases stage with
        | making => exact willing_of_attempt hmade
        | filling => exact willing_of_attempt hfill
        | moving => exact willing_of_attempt hmove

/-! ## What makes a success -/

theorem attempt_of_willing {α : Type} {drafting : Drafting} {stage : Stage}
    (h : drafting.refusal stage = none) (result : Except Fault α) :
    drafting.attempt stage result = result := by
  rw [Drafting.attempt, h]

theorem create_of_reaches (h : files.Reaches path) :
    files.create path = if files.get? path.place = none then .ok (files.set path.place (.file []))
      else .error .alreadyThere := by
  unfold create
  rw [locate_of_reaches h]
  simp only [bind, Except.bind]
  cases files.get? path.place <;> rfl

/-- Names that are taken are passed over, up to a free one. -/
theorem makeDraft_of_free {marks : List Mark} (hreaches : ∀ mark, files.Reaches (path.draft mark))
    (hfree : ∃ mark ∈ marks, files.get? (path.draft mark).place = none) :
    ∃ draft after, files.makeDraft path marks = .ok (draft, after) := by
  induction marks with
  | nil =>
    obtain ⟨mark, hmark, -⟩ := hfree
    cases hmark
  | cons mark marks ih =>
    rw [makeDraft, create_of_reaches (hreaches mark)]
    by_cases hnone : files.get? (path.draft mark).place = none
    · rw [if_pos hnone]
      exact ⟨_, _, rfl⟩
    · rw [if_neg hnone]
      obtain ⟨other, hother, hfree⟩ := hfree
      obtain rfl | hother := List.mem_cons.1 hother
      · exact absurd hfree hnone
      · exact ih ⟨other, hother, hfree⟩

theorem put_of_read {old : List UInt8} (h : files.read path = .ok old) (bytes : List UInt8) :
    ∃ after, files.put path bytes = .ok after := by
  obtain ⟨hreaches, hfile⟩ := read_eq_ok_iff.1 h
  unfold put
  rw [locate_of_reaches hreaches]
  simp only [bind, Except.bind, hfile]
  exact ⟨_, rfl⟩

theorem move_of_read {source target : FilePath} {old : List UInt8}
    (hsource : files.read source = .ok bytes) (htarget : files.read target = .ok old)
    (hnames : target.names ≠ []) (hname : target.name ≠ Location.above) :
    ∃ after, files.move source target = .ok after := by
  obtain ⟨hreaches, -⟩ := read_eq_ok_iff.1 hsource
  obtain ⟨hthere, hfile⟩ := read_eq_ok_iff.1 htarget
  unfold move
  rw [locate_of_reaches hreaches, hsource, locate_of_reaches hthere]
  simp only [bind, Except.bind, hnames, hname, or_self, if_false, hfile]
  exact ⟨_, rfl⟩

/-- A file that is there is replaced where its drafts fit and it is served. -/
theorem replace_of_serves {directory : FilePath} {name : String} {drafting : Drafting}
    {old : List UInt8} (hpresent : files.Present directory) (hname : name ≠ Location.above)
    (hold : files.read (directory.child name) = .ok old)
    (hfits : ∀ mark, ((directory.child name).draft mark).Fits)
    (hserves : drafting.Serves files (directory.child name)) (bytes : List UInt8) :
    ∃ after, files.replace (directory.child name) bytes drafting = (after, .ok ()) := by
  have hdrafts : ∀ mark, files.Reaches ((directory.child name).draft mark) := by
    refine fun mark => ⟨hfits mark, fun p hp => hpresent.way p ?_⟩
    rwa [FilePath.draft, FilePath.parent_child, FilePath.passed_child] at hp
  obtain ⟨draft, made, hmake⟩ := makeDraft_of_free hdrafts hserves.free
  obtain ⟨hnone, hmade⟩ := makeDraft_eq_ok hmake
  obtain ⟨filled, hfill⟩ := put_of_read hmade.read bytes
  have hfilled := hmade.again (put_eq_ok hfill)
  -- The draft is beside the file, which is there as before.
  have htarget : filled.read (directory.child name) = .ok old := by
    obtain ⟨hreaches, hfile⟩ := read_eq_ok_iff.1 hold
    refine read_eq_ok_iff.2 ⟨hreaches.mono fun _ => hfilled.keeps, ?_⟩
    rw [hfilled.others _ fun heq => ?_, hfile]
    rw [heq, hnone] at hfile
    cases hfile
  obtain ⟨moved, hmove⟩ := move_of_read hfilled.read htarget
    (List.append_ne_nil_of_right_ne_nil _ (List.cons_ne_nil _ _))
    (by rwa [FilePath.name_child])
  refine ⟨moved, ?_⟩
  unfold replace
  rw [FilePath.parent_child, makeDirectories_of_present hpresent]
  simp only [attempt_of_willing (hserves.willing _), hmake, finishDraft, hfill, hmove]

end

end Files

end ApiContract
