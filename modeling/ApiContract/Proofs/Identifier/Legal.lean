import ApiContract.Proofs.Identifier

/-!
# Names that a declaration may have

A name is legal if it is one in full and no reserved word. The words of a text make a name, and an
underscore takes a name out of the reserved words, so the name for a text is legal; the exception is
a name with a line feed at its end, which is kept as it stands. No reserved word holds a digit, a
capital or an underscore, so a number keeps a name legal.

Main facts: `isName_joined`, `isLegal_ofText_iff`, `isLegal_append_toString`.
-/

namespace ApiContract.Identifier

/-- A name that may be declared. -/
def IsLegal (text : List Char) : Prop :=
  isName text ∧ String.ofList text ∉ reserved

/-- A name with a line feed at its end. -/
def EndsLine (text : List Char) : Prop :=
  ∃ name, isName name ∧ text = name ++ ['\n']

theorem isName_iff {text : List Char} :
    isName text ↔ ∃ first rest, text = first :: rest ∧ isStart first ∧ ∀ c ∈ rest, isPart c := by
  cases text with
  | nil =>
    constructor
    · intro h
      cases h
    · rintro ⟨first, rest, h, -⟩
      cases h
  | cons first rest =>
    rw [isName_cons, Bool.and_eq_true, List.all_eq_true]
    constructor
    · rintro ⟨hfirst, hrest⟩
      exact ⟨first, rest, rfl, hfirst, hrest⟩
    · rintro ⟨_, _, h, hfirst, hrest⟩
      cases h
      exact ⟨hfirst, hrest⟩

theorem isName_append {name mark : List Char} (h : isName name) (hmark : ∀ c ∈ mark, isPart c) :
    isName (name ++ mark) := by
  obtain ⟨first, rest, rfl, hfirst, hrest⟩ := isName_iff.1 h
  exact isName_iff.2 ⟨first, rest ++ mark, rfl, hfirst, List.forall_mem_append.2 ⟨hrest, hmark⟩⟩

theorem not_isName_of_mem {text : List Char} {c : Char} (hc : c ∈ text) (h : isPart c = false) :
    ¬ isName text := by
  intro hname
  rw [isPart_of_mem_isName hname c hc] at h
  cases h

theorem EndsLine.mem {text : List Char} (h : EndsLine text) : '\n' ∈ text := by
  obtain ⟨name, -, rfl⟩ := h
  exact List.mem_append_right name List.mem_cons_self

theorem isAccepted_iff {text : List Char} : isAccepted text ↔ isName text ∨ EndsLine text := by
  rw [isAccepted, Bool.or_eq_true, Bool.and_eq_true, beq_iff_eq]
  refine or_congr_right ⟨?_, ?_⟩
  · rintro ⟨hlast, h⟩
    obtain ⟨name, rfl⟩ := List.getLast?_eq_some_iff.1 hlast
    rw [List.dropLast_concat] at h
    exact ⟨name, h, rfl⟩
  · rintro ⟨name, h, rfl⟩
    exact ⟨List.getLast?_concat .., by rwa [List.dropLast_concat]⟩

/-! ## Reserved words -/

theorem isLower_of_mem_reserved : ∀ word ∈ reserved, ∀ c ∈ word.toList, c.isLower := by
  have hall : reserved.all fun word => word.toList.all Char.isLower := by decide +kernel
  simpa only [List.all_eq_true] using hall

/-- A text that holds anything but small letters is no reserved word. -/
theorem not_mem_reserved {text : List Char} {c : Char} (hc : c ∈ text) (h : c.isLower = false) :
    String.ofList text ∉ reserved := by
  intro hmem
  have := isLower_of_mem_reserved _ hmem c (by rwa [String.toList_ofList])
  rw [h] at this
  cases this

theorem avoiding_not_mem {words : List String} {mark name : List Char}
    (hmark : String.ofList name ∈ words → String.ofList (name ++ mark) ∉ words) :
    String.ofList (avoiding words mark name) ∉ words := by
  unfold avoiding
  split
  · next h => exact hmark h
  · next h => exact h

/-- A mark that holds anything but small letters makes no reserved word. -/
theorem avoiding_not_mem_reserved {words : List String} {mark name : List Char} {c : Char}
    (hc : c ∈ mark) (hmark : c.isLower = false) (hname : String.ofList name ∉ reserved) :
    String.ofList (avoiding words mark name) ∉ reserved := by
  unfold avoiding
  split
  · exact not_mem_reserved (List.mem_append_right name hc) hmark
  · exact hname

theorem isLegal_avoiding {name : List Char} (h : isName name) :
    IsLegal (avoiding reserved ['_'] name) := by
  unfold avoiding
  split
  · exact ⟨isName_append h (List.forall_mem_singleton.2 rfl),
      not_mem_reserved (List.mem_append_right name List.mem_cons_self) rfl⟩
  · next hfree => exact ⟨h, hfree⟩

theorem isAlphanum_of_isDigit {c : Char} (h : c.isDigit) : c.isAlphanum := by
  rw [Char.isAlphanum, h, Bool.or_true]

theorem isLower_of_isDigit {c : Char} (h : c.isDigit) : c.isLower = false :=
  of_forall_ascii (P := fun c => c.isDigit → c.isLower = false) (by decide)
    (isAlphanum_of_isDigit h) h

theorem isDigit_of_mem_toDigits {n : Nat} {c : Char} (h : c ∈ Nat.toDigits 10 n) : c.isDigit :=
  Nat.isDigit_of_mem_toDigits (by decide) (by decide) h

/-- No reserved word ends in a number. -/
theorem append_toString_not_mem_reserved (name : String) (n : Nat) :
    name ++ toString n ∉ reserved := by
  obtain ⟨c, hc⟩ := List.exists_mem_of_ne_nil _ (Nat.toDigits_ne_nil (n := n) (b := 10))
  have hmem : c ∈ (name ++ toString n).toList := by
    rw [String.toList_append, Nat.toString_eq_repr, Nat.toList_repr]
    exact List.mem_append_right _ hc
  have := not_mem_reserved hmem (isLower_of_isDigit (isDigit_of_mem_toDigits hc))
  rwa [String.ofList_toList] at this

/-- A number at its end makes a name legal, even a reserved word. -/
theorem isLegal_append_toString {name : String} (h : isName name.toList) (n : Nat) :
    IsLegal (name ++ toString n).toList := by
  refine ⟨?_, ?_⟩
  · rw [String.toList_append, Nat.toString_eq_repr, Nat.toList_repr]
    exact isName_append h fun c hc =>
      isPart_of_isAlphanum (isAlphanum_of_isDigit (isDigit_of_mem_toDigits hc))
  · rw [String.ofList_toList]
    exact append_toString_not_mem_reserved name n

/-! ## The name for a text -/

theorem ne_nil_of_mem_alphanumericWords {text word : List Char}
    (h : word ∈ alphanumericWords text) : word ≠ [] := by
  simpa using (List.mem_filter.1 h).2

theorem isStart_of_isAlphanum {c : Char} (h : c.isAlphanum) (hdigit : c.isDigit = false) :
    isStart c := by
  rw [Char.isAlphanum, hdigit, Bool.or_false] at h
  rw [isStart, h, Bool.true_or, Bool.true_or]

theorem isName_joined (text : List Char) : isName (joined text) := by
  have hpart : ∀ c ∈ joined text, isPart c := isPart_of_mem_joined
  unfold joined at hpart ⊢
  split at hpart
  · rfl
  · next first others hwords =>
    dsimp only at hpart ⊢
    split
    · next hdigit =>
      rw [if_pos hdigit] at hpart
      exact isName_iff.2 ⟨'_', _, rfl, rfl, (List.forall_mem_cons.1 hpart).2⟩
    · next hdigit =>
      rw [if_neg hdigit] at hpart
      have hword : first ∈ alphanumericWords text := hwords ▸ List.mem_cons_self
      cases first with
      | nil => exact absurd rfl (ne_nil_of_mem_alphanumericWords hword)
      | cons c cs =>
        have hc : c.isAlphanum := isAlphanum_of_mem_words hword c List.mem_cons_self
        exact isName_iff.2 ⟨c, _, rfl, isStart_of_isAlphanum hc (by simpa using hdigit),
          (List.forall_mem_cons.1 hpart).2⟩

theorem ofText_of_endsLine {text : List Char} (h : EndsLine text) : ofText text = text := by
  rw [ofText, if_pos (isAccepted_iff.2 (.inr h)), avoiding, if_neg (not_mem_reserved h.mem rfl)]

theorem ofText_not_mem_reserved (text : List Char) : String.ofList (ofText text) ∉ reserved :=
  avoiding_not_mem fun _ => not_mem_reserved (List.mem_append_right _ List.mem_cons_self) rfl

theorem typeAlias_not_mem_reserved (text : List Char) :
    String.ofList (typeAlias text) ∉ reserved :=
  avoiding_not_mem_reserved List.mem_cons_self rfl (ofText_not_mem_reserved text)

theorem typeAlias_not_mem_typeKeywords (text : List Char) :
    String.ofList (typeAlias text) ∉ typeKeywords := by
  have hunderscore : ∀ word ∈ typeKeywords, '_' ∉ word.toList := by decide
  apply avoiding_not_mem
  intro _ hmem
  apply hunderscore _ hmem
  rw [String.toList_ofList]
  exact List.mem_append_right _ List.mem_cons_self

theorem isLegal_ofText_iff (text : List Char) : IsLegal (ofText text) ↔ ¬ EndsLine text := by
  constructor
  · intro h hline
    rw [ofText_of_endsLine hline] at h
    exact not_isName_of_mem hline.mem rfl h.1
  · intro hline
    refine isLegal_avoiding ?_
    split
    · next h => exact (isAccepted_iff.1 h).resolve_right hline
    · exact isName_joined text

end ApiContract.Identifier
