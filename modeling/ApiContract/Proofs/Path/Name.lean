import ApiContract.Method
import ApiContract.Path
import ApiContract.Proofs.Identifier.Legal

/-!
# Names from paths

The name of a function that the description does not name is its method and the words of its path.
Each word begins with a capital or a digit, so such a name is a reserved word only if the path adds
nothing to the method; and the only reserved word among the methods is `delete`.

Main facts: `isName_operationName`, `operationName_of_nameless`, `isLegal_operationName_iff`.
-/

namespace ApiContract

namespace Identifier

theorem alphanumericWords_eq_nil_iff {text : List Char} :
    alphanumericWords text = [] ↔ ∀ c ∈ text, c.isAlphanum = false := by
  rw [alphanumericWords, List.filter_eq_nil_iff]
  constructor
  · intro h
    induction text with
    | nil => exact fun _ hc => absurd hc List.not_mem_nil
    | cons c cs ih =>
      cases hcs : Text.pieces (fun c => !c.isAlphanum) cs with
      | nil => exact absurd hcs (Text.pieces_ne_nil _ cs)
      | cons word words =>
        cases hc : c.isAlphanum with
        | true => simp [Text.pieces, hc, hcs] at h
        | false =>
          rw [Text.pieces, hc, Bool.not_false, if_pos rfl] at h
          exact List.forall_mem_cons.2 ⟨hc, ih (List.forall_mem_cons.1 h).2⟩
  · intro h word hword
    -- what stands in a piece is a letter or digit, and stands in the text
    have hempty : word = [] := by
      rw [List.eq_nil_iff_forall_not_mem]
      intro c hc
      have hpiece := Text.not_mem_of_mem_pieces hword c hc
      rw [h c (Text.mem_of_mem_pieces hword c hc)] at hpiece
      cases hpiece
    simp [hempty]

theorem isLower_toUpper {c : Char} (h : c.isAlphanum) : c.toUpper.isLower = false :=
  of_forall_ascii (P := fun c => c.toUpper.isLower = false) (by decide) h

theorem isAlphanum_of_mem_camelWords {text : List Char} : ∀ c ∈ camelWords text, c.isAlphanum := by
  intro c hc
  obtain ⟨word, hword, hc⟩ := List.mem_flatMap.1 hc
  exact isAlphanum_of_mem_upperFirst (isAlphanum_of_mem_words hword) c hc

/-- Joined words are empty, or not made of small letters alone. -/
theorem exists_mem_camelWords {text : List Char} (h : ∃ c ∈ text, c.isAlphanum) :
    ∃ c ∈ camelWords text, c.isLower = false := by
  cases hwords : alphanumericWords text with
  | nil =>
    obtain ⟨c, hc, halphanum⟩ := h
    rw [alphanumericWords_eq_nil_iff.1 hwords c hc] at halphanum
    cases halphanum
  | cons word words =>
    have hword : word ∈ alphanumericWords text := hwords ▸ List.mem_cons_self
    cases word with
    | nil => exact absurd rfl (ne_nil_of_mem_alphanumericWords hword)
    | cons c cs =>
      have hc : c.isAlphanum := isAlphanum_of_mem_words hword c List.mem_cons_self
      refine ⟨c.toUpper, List.mem_flatMap.2 ⟨_, hword, ?_⟩, isLower_toUpper hc⟩
      rw [Text.upperFirst, Text.upperChar, if_pos (toNat_lt_of_isAlphanum hc)]
      exact List.mem_cons_self

theorem camelWords_eq_nil {text : List Char} (h : ∀ c ∈ text, c.isAlphanum = false) :
    camelWords text = [] := by
  rw [camelWords, alphanumericWords_eq_nil_iff.2 h, List.flatMap_nil]

end Identifier

namespace Path

open Identifier

/-- Nothing of the path goes into a name: no segment is in braces, and none has a letter or
digit. -/
def Nameless (path : List Char) : Prop :=
  ∀ segment ∈ segments path, isSlot segment = false ∧ ∀ c ∈ segment, c.isAlphanum = false

theorem isAlphanum_of_mem_segmentName {segment : List Char} :
    ∀ c ∈ segmentName segment, c.isAlphanum := by
  unfold segmentName
  split
  · exact List.forall_mem_cons.2 ⟨rfl, List.forall_mem_cons.2 ⟨rfl, isAlphanum_of_mem_camelWords⟩⟩
  · exact isAlphanum_of_mem_camelWords

/-- What the segments of a path add to a name is nothing, or not made of small letters alone. -/
theorem segmentNames_cases (path : List Char) :
    (Nameless path ∧ (segments path).flatMap segmentName = []) ∨
    (¬ Nameless path ∧ ∃ c ∈ (segments path).flatMap segmentName, c.isLower = false) := by
  by_cases h : Nameless path
  · refine .inl ⟨h, List.flatMap_eq_nil_iff.2 fun segment hsegment => ?_⟩
    obtain ⟨hslot, hplain⟩ := h segment hsegment
    rw [segmentName, hslot, if_neg Bool.false_ne_true, camelWords_eq_nil hplain]
  · refine .inr ⟨h, ?_⟩
    obtain ⟨segment, hsegment, hnamed⟩ : ∃ segment ∈ segments path,
        isSlot segment = true ∨ ∃ c ∈ segment, c.isAlphanum := by
      simpa [Nameless, Classical.or_iff_not_imp_left] using h
    obtain ⟨c, hc, hlower⟩ : ∃ c ∈ segmentName segment, c.isLower = false := by
      unfold segmentName
      split
      · exact ⟨'B', List.mem_cons_self, rfl⟩
      · next hslot => exact exists_mem_camelWords (hnamed.resolve_left hslot)
    exact ⟨c, List.mem_flatMap.2 ⟨segment, hsegment, hc⟩, hlower⟩

theorem operationName_eq (method : Method) (path : List Char) :
    operationName method.name.toList path =
      method.name.toList ++ (segments path).flatMap segmentName := by
  have hlower : Text.lower method.name.toList = method.name.toList := by
    cases method <;> decide
  rw [operationName, hlower]

theorem isName_operationName (method : Method) (path : List Char) :
    isName (operationName method.name.toList path) := by
  have hmethod : isName method.name.toList := by
    cases method <;> decide
  rw [operationName_eq]
  refine isName_append hmethod fun c hc => ?_
  obtain ⟨segment, -, hc⟩ := List.mem_flatMap.1 hc
  exact isPart_of_isAlphanum (isAlphanum_of_mem_segmentName c hc)

theorem operationName_of_nameless {path : List Char} (h : Nameless path) (method : Method) :
    operationName method.name.toList path = method.name.toList := by
  rcases segmentNames_cases path with ⟨-, hnil⟩ | ⟨hnot, -⟩
  · rw [operationName_eq, hnil, List.append_nil]
  · exact absurd h hnot

/-- A name from a method and a path is legal but for `delete` with nothing after it. -/
theorem isLegal_operationName_iff {method : Method} {path : List Char} :
    IsLegal (operationName method.name.toList path) ↔ ¬ (method = .delete ∧ Nameless path) := by
  constructor
  · rintro ⟨-, hfree⟩ ⟨rfl, hnameless⟩
    rw [operationName_of_nameless hnameless] at hfree
    exact hfree (by decide)
  · intro h
    refine ⟨isName_operationName method path, ?_⟩
    rcases segmentNames_cases path with ⟨hnameless, -⟩ | ⟨-, c, hc, hlower⟩
    · rw [operationName_of_nameless hnameless]
      cases method with
      | delete => exact absurd ⟨rfl, hnameless⟩ h
      | get | post | put | patch => decide
    · rw [operationName_eq]
      exact not_mem_reserved (List.mem_append_right _ hc) hlower

end Path

end ApiContract
