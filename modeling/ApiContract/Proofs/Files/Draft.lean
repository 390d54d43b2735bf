import ApiContract.Files.Draft
import ApiContract.Proofs.Files.Making

/-!
# Replacing files leaves no drafts

A file is put at a path in steps: an empty draft beside it, the draft with all bytes, and the file
with the draft gone. Each step puts one file somewhere and leaves all else as it was (`Puts`). When
a step fails, the draft is removed, and everything is as before the first one.

Main facts: `puts_of_replace` and `same_of_replace` (what a success and a failure leave).
-/

namespace ApiContract

namespace Files

/-- There is a file with these bytes at a path, where no directory was; all else is as before. -/
structure Puts (path : FilePath) (bytes : List UInt8) (before after : Files) : Prop where
  reaches : before.Reaches path
  free : before.get? path.place ≠ some .directory
  written : after.get? path.place = some (.file bytes)
  others : ∀ p ≠ path.place, after.get? p = before.get? p

/-- The same is everywhere. -/
def Same (before after : Files) : Prop :=
  ∀ p, after.get? p = before.get? p

section
variable {files before mid after : Files} {path : FilePath} {bytes old : List UInt8}

namespace Puts

theorem keeps (h : Puts path bytes before after) {p : Location}
    (hp : before.get? p = some .directory) : after.get? p = some .directory := by
  rw [h.others p fun heq => h.free (heq ▸ hp), hp]

theorem read (h : Puts path bytes before after) : after.read path = .ok bytes :=
  read_eq_ok_iff.2 ⟨h.reaches.mono fun _ => h.keeps, h.written⟩

theorem set (hreaches : files.Reaches path) (hfree : files.get? path.place ≠ some .directory) :
    Puts path bytes files (files.set path.place (.file bytes)) where
  reaches := hreaches
  free := hfree
  written := get?_set_of_free hfree _
  others _ hp := get?_set_of_ne files hp _

theorem again (h : Puts path old before mid) (h' : Puts path bytes mid after) :
    Puts path bytes before after where
  reaches := h.reaches
  free := h.free
  written := h'.written
  others p hp := (h'.others p hp).trans (h.others p hp)

/-- What is put where nothing was can be taken away again. -/
theorem same_discard (h : Puts path bytes before after) (hnone : before.get? path.place = none) :
    Same before (after.discard path) := by
  have hfile : after.get? path.place ≠ some .directory := by simp [h.written]
  have hremove : after.remove path = .ok (after.erase path.place) := by
    unfold remove
    rw [locate_of_reaches (h.reaches.mono fun _ => h.keeps)]
    simp only [bind, Except.bind, h.written]
    rfl
  intro p
  rw [discard, hremove]
  by_cases hp : p = path.place
  · subst hp
    rw [hnone]
    exact get?_erase_of_free hfile
  · exact (get?_erase_of_ne after hp).trans (h.others p hp)

/-- A file that was put where nothing was can be moved to another path. -/
theorem move {target : FilePath} (h : Puts path bytes before mid)
    (hnone : before.get? path.place = none) (hmove : mid.move path target = .ok after) :
    Puts target bytes before after := by
  have hdraft := h.reaches.mono fun _ => h.keeps
  obtain ⟨-, hmove⟩ := locate_bind_eq_ok_iff.1 hmove
  obtain ⟨content, hcontent, hmove⟩ := Except.bind_eq_ok.1 hmove
  obtain ⟨hreaches, hmove⟩ := locate_bind_eq_ok_iff.1 hmove
  cases h.read.symm.trans hcontent
  -- Where the draft is, there is no directory, so it was not on the way.
  have hbefore : ∀ p, mid.get? p = some .directory → before.get? p = some .directory := by
    intro p hp
    rw [← h.others p fun heq => ?_, hp]
    rw [heq, h.written] at hp
    cases hp
  split at hmove
  · cases hmove
  · split at hmove
    · cases hmove
    · next hfree =>
      cases hmove
      have herase : (mid.erase path.place).get? target.place ≠ some .directory := by
        by_cases heq : target.place = path.place
        · rw [heq, get?_erase_of_free (by simp [h.written])]
          nofun
        · rw [get?_erase_of_ne mid heq]
          exact hfree
      refine ⟨hreaches.mono hbefore, fun hdir => hfree (h.keeps hdir),
        get?_set_of_free herase _, fun p hp => ?_⟩
      rw [get?_set_of_ne _ hp]
      by_cases heq : p = path.place
      · subst heq
        rw [hnone]
        exact get?_erase_of_free (by simp [h.written])
      · exact (get?_erase_of_ne mid heq).trans (h.others p heq)

end Puts

/-! ## The steps -/

theorem attempt_eq_ok {α : Type} {drafting : Drafting} {stage : Stage} {result : Except Fault α}
    {a : α} (h : drafting.attempt stage result = .ok a) : result = .ok a := by
  unfold Drafting.attempt at h
  split at h
  · cases h
  · exact h

theorem create_eq_ok (h : files.create path = .ok after) :
    files.get? path.place = none ∧ Puts path [] files after := by
  obtain ⟨hreaches, h⟩ := locate_bind_eq_ok_iff.1 h
  split at h
  · cases h
  · next hnone =>
    cases h
    exact ⟨hnone, .set hreaches (by simp [hnone])⟩

theorem put_eq_ok (h : files.put path bytes = .ok after) : Puts path bytes files after := by
  obtain ⟨hreaches, h⟩ := locate_bind_eq_ok_iff.1 h
  split at h
  · cases h
  · next hfree =>
    cases h
    exact .set hreaches hfree

theorem makeDraft_eq_ok {marks : List Mark} {draft : FilePath}
    (h : files.makeDraft path marks = .ok (draft, after)) :
    files.get? draft.place = none ∧ Puts draft [] files after := by
  induction marks with
  | nil => cases h
  | cons mark marks ih =>
    rw [makeDraft] at h
    split at h
    · next hcreate =>
      cases h
      exact create_eq_ok hcreate
    · exact ih h
    · cases h

/-- From an empty draft on, either the file is put or the draft is removed. -/
theorem finishDraft_cases {drafting : Drafting} {draft : FilePath} {outcome : Except Fault Unit}
    (hdraft : Puts draft [] before files) (hnone : before.get? draft.place = none)
    (h : files.finishDraft drafting draft path bytes = (after, outcome)) :
    (outcome = .ok () ∧ Puts path bytes before after) ∨
      (∃ fault, outcome = .error fault) ∧ Same before after := by
  unfold finishDraft at h
  split at h
  · cases h
    exact .inr ⟨⟨_, rfl⟩, hdraft.same_discard hnone⟩
  · next filled hfill =>
    have hfilled := hdraft.again (put_eq_ok (attempt_eq_ok hfill))
    split at h
    · cases h
      exact .inr ⟨⟨_, rfl⟩, hfilled.same_discard hnone⟩
    · next moved hmove =>
      cases h
      exact .inl ⟨rfl, hfilled.move hnone (attempt_eq_ok hmove)⟩

/-! ## All steps -/

theorem replace_cases {drafting : Drafting} {outcome : Except Fault Unit}
    (hparent : files.Present path.parent)
    (h : files.replace path bytes drafting = (after, outcome)) :
    (outcome = .ok () ∧ Puts path bytes files after) ∨
      (∃ fault, outcome = .error fault) ∧ Same files after := by
  unfold replace at h
  simp only [makeDirectories_of_present hparent] at h
  split at h
  · cases h
    exact .inr ⟨⟨_, rfl⟩, fun _ => rfl⟩
  · next draft made hmade =>
    obtain ⟨hnone, hdraft⟩ := makeDraft_eq_ok (attempt_eq_ok hmade)
    exact finishDraft_cases hdraft hnone h

theorem puts_of_replace {drafting : Drafting} (hparent : files.Present path.parent)
    (h : files.replace path bytes drafting = (after, .ok ())) : Puts path bytes files after := by
  obtain ⟨-, hputs⟩ | ⟨⟨_, herror⟩, -⟩ := replace_cases hparent h
  · exact hputs
  · cases herror

theorem same_of_replace {drafting : Drafting} {fault : Fault}
    (hparent : files.Present path.parent)
    (h : files.replace path bytes drafting = (after, .error fault)) : Same files after := by
  obtain ⟨hok, -⟩ | ⟨-, hsame⟩ := replace_cases hparent h
  · cases hok
  · exact hsame

/-! ## Names with a zero character -/

theorem plain_child {directory : FilePath} {name : String} (h : directory.Plain)
    (hname : '\x00' ∉ name.toList) : (directory.child name).Plain := by
  intro other hother
  obtain hother | hother := List.mem_append.1 hother
  · exact h other hother
  · exact List.mem_singleton.1 hother ▸ hname

theorem Mark.not_mem_zeroCharacter (mark : Mark) : '\x00' ∉ mark.text.toList := fun h =>
  absurd (List.all_eq_true.1 mark.drawn.2 _ h) (by decide)

theorem plain_draft {directory : FilePath} {name : String} (h : (directory.child name).Plain)
    (mark : Mark) : ((directory.child name).draft mark).Plain := by
  have hname := h name (List.mem_append_right _ List.mem_cons_self)
  rw [FilePath.draft, FilePath.parent_child, FilePath.name_child]
  refine plain_child (fun other hother => h other (List.mem_append_left _ hother)) ?_
  simp [hname, Mark.not_mem_zeroCharacter]

theorem makeDraft_ne_zeroCharacter {marks : List Mark} (h : ∀ mark, (path.draft mark).Plain) :
    files.makeDraft path marks ≠ .error .zeroCharacter := by
  induction marks with
  | nil => nofun
  | cons mark marks ih =>
    rw [makeDraft]
    split
    · nofun
    · exact ih
    · next hcreate =>
      rintro ⟨⟩
      exact locate_bind_ne_zeroCharacter (h mark) (fun place => by split <;> nofun) hcreate

theorem put_ne_zeroCharacter (h : path.Plain) :
    files.put path bytes ≠ .error .zeroCharacter :=
  locate_bind_ne_zeroCharacter h fun place => by split <;> nofun

theorem read_ne_zeroCharacter (h : path.Plain) : files.read path ≠ .error .zeroCharacter := by
  have hfind : files.find path ≠ .error .zeroCharacter :=
    locate_bind_ne_zeroCharacter h fun place => by split <;> nofun
  intro hread
  unfold read at hread
  obtain hread | ⟨entry, -, hread⟩ := Except.bind_eq_error.1 hread
  · exact hfind hread
  · split at hread <;> cases hread

theorem move_ne_zeroCharacter {source target : FilePath} (h : source.Plain)
    (htarget : target.Plain) : files.move source target ≠ .error .zeroCharacter := by
  refine locate_bind_ne_zeroCharacter h fun origin hmove => ?_
  obtain hread | ⟨content, -, hmove⟩ := Except.bind_eq_error.1 hmove
  · exact read_ne_zeroCharacter h hread
  refine locate_bind_ne_zeroCharacter htarget (fun place => ?_) hmove
  split
  · nofun
  · split <;> nofun

theorem attempt_ne_zeroCharacter {α : Type} {drafting : Drafting} {stage : Stage}
    {result : Except Fault α} (h : result ≠ .error .zeroCharacter) :
    drafting.attempt stage result ≠ .error .zeroCharacter := by
  unfold Drafting.attempt
  split
  · nofun
  · exact h

theorem replace_ne_zeroCharacter {directory : FilePath} {name : String} {drafting : Drafting}
    (hpresent : files.Present directory) (hname : '\x00' ∉ name.toList) :
    files.replace (directory.child name) bytes drafting ≠ (after, .error .zeroCharacter) := by
  have hpath := plain_child hpresent.fits.plain hname
  have hparent : files.Present (directory.child name).parent := by rwa [FilePath.parent_child]
  unfold replace
  simp only [makeDirectories_of_present hparent]
  split
  · next hmade =>
    rintro ⟨⟩
    exact attempt_ne_zeroCharacter (makeDraft_ne_zeroCharacter (plain_draft hpath)) hmade
  · next draft made hmade =>
    have hdraft : draft.Plain := (makeDraft_eq_ok (attempt_eq_ok hmade)).2.reaches.fits.plain
    unfold finishDraft
    split
    · next hfill =>
      rintro ⟨⟩
      exact attempt_ne_zeroCharacter (put_ne_zeroCharacter hdraft) hfill
    · split
      · next hmove =>
        rintro ⟨⟩
        exact attempt_ne_zeroCharacter (move_ne_zeroCharacter hdraft hpath) hmove
      · nofun

end

end Files

end ApiContract
