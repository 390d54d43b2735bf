import ApiContract.Proofs.Identifier.Legal

/-!
# Placeholders with one argument

A placeholder is written as an argument of its own name: as it stands or with its words joined, then
marked if that is a reserved word, and marked again if a function declares such an argument itself.
Marks are never put on a marked name, so two placeholders share an argument in three cases only:
they are spelled alike, or one of the two marks turns one spelling into the other.

Main facts: `avoiding_eq_iff` (when two names fall together under one mark), `argument_eq_iff`,
`argument_not_mem_ownArguments`, `argument_eq_apiClient_iff` and `isLegal_argument_iff`.
-/

namespace ApiContract.Identifier

/-- The name for a text before it is marked: the text if it is accepted, else its words joined. -/
def spelling (text : List Char) : List Char :=
  if isAccepted text then text else joined text

/-- The mark of a reserved word or of an argument that functions declare turns `name` into
`other`. -/
def Marked (name other : List Char) : Prop :=
  (String.ofList name ∈ reserved ∧ other = name ++ ['_']) ∨
  (String.ofList name ∈ ownArguments ∧ other = name ++ "Param".toList)

instance (name other : List Char) : Decidable (Marked name other) :=
  inferInstanceAs (Decidable (_ ∨ _))

/-- Two texts have one argument: they are spelled alike but for a mark. -/
def FallTogether (a b : List Char) : Prop :=
  spelling a = spelling b ∨ Marked (spelling a) (spelling b) ∨ Marked (spelling b) (spelling a)

instance (a b : List Char) : Decidable (FallTogether a b) :=
  inferInstanceAs (Decidable (_ ∨ _))

theorem ofText_eq (text : List Char) : ofText text = avoiding reserved ['_'] (spelling text) := rfl

/-! ## One mark -/

/-- Where no marked word is a word itself, names fall together if they are equal or if one is the
other one marked. -/
theorem avoiding_eq_iff {words : List String} {mark a b : List Char}
    (hmark : ∀ name, String.ofList name ∈ words → String.ofList (name ++ mark) ∉ words) :
    avoiding words mark a = avoiding words mark b ↔ a = b ∨
      (String.ofList a ∈ words ∧ b = a ++ mark) ∨ (String.ofList b ∈ words ∧ a = b ++ mark) := by
  by_cases ha : String.ofList a ∈ words
  · have hab : b = a ++ mark → String.ofList b ∉ words := fun h => h ▸ hmark a ha
    by_cases hb : String.ofList b ∈ words
    · have hba : a ≠ b ++ mark := fun h => hmark b hb (h ▸ ha)
      have hab' : b ≠ a ++ mark := fun h => hab h hb
      simp [avoiding, ha, hb, hba, hab']
    · have hne : a ≠ b := fun h => hb (h ▸ ha)
      simp [avoiding, ha, hb, hne, eq_comm]
  · by_cases hb : String.ofList b ∈ words
    · have hne : a ≠ b := fun h => ha (h ▸ hb)
      simp [avoiding, ha, hb, hne]
    · simp [avoiding, ha, hb]

/-- A name that is no word and does not end as the mark does comes from itself only. -/
theorem avoiding_eq_iff_of_getLast? {words : List String} {mark name target : List Char} {c : Char}
    (hmark : mark.getLast? = some c) (hlast : target.getLast? ≠ some c)
    (hfree : String.ofList target ∉ words) :
    avoiding words mark name = target ↔ name = target := by
  unfold avoiding
  split
  · next h =>
    constructor
    · rintro rfl
      rw [List.getLast?_append, hmark] at hlast
      exact absurd rfl hlast
    · rintro rfl
      exact absurd h hfree
  · rfl

/-! ## Arguments -/

theorem ofText_eq_iff {text target : List Char} (hlast : target.getLast? ≠ some '_')
    (hfree : String.ofList target ∉ reserved) : ofText text = target ↔ spelling text = target :=
  avoiding_eq_iff_of_getLast? rfl hlast hfree

theorem ownArguments_free : ∀ word ∈ ownArguments,
    word ∉ reserved ∧ word.toList.getLast? ≠ some '_' ∧ word ++ "Param" ∉ ownArguments := by
  decide

theorem marked_not_mem_ownArguments (name : List Char) (h : String.ofList name ∈ ownArguments) :
    String.ofList (name ++ "Param".toList) ∉ ownArguments := by
  rw [String.ofList_append, String.ofList_toList]
  exact (ownArguments_free _ h).2.2

theorem ofText_eq_spelling {text : List Char} (h : String.ofList (spelling text) ∈ ownArguments) :
    ofText text = spelling text := by
  obtain ⟨hfree, hlast, -⟩ := ownArguments_free _ h
  rw [String.toList_ofList] at hlast
  exact (ofText_eq_iff hlast hfree).2 rfl

theorem mem_ownArguments_iff {text : List Char} :
    String.ofList (ofText text) ∈ ownArguments ↔ String.ofList (spelling text) ∈ ownArguments := by
  constructor
  · intro h
    obtain ⟨hfree, hlast, -⟩ := ownArguments_free _ h
    rw [String.toList_ofList] at hlast
    rwa [(ofText_eq_iff hlast hfree).1 rfl]
  · intro h
    rwa [ofText_eq_spelling h]

/-- The mark of an argument is put on the spelling. -/
theorem ofText_marked_iff {a b : List Char} :
    (String.ofList (ofText a) ∈ ownArguments ∧ ofText b = ofText a ++ "Param".toList) ↔
      (String.ofList (spelling a) ∈ ownArguments ∧
        spelling b = spelling a ++ "Param".toList) := by
  rw [mem_ownArguments_iff]
  refine and_congr_right fun h => ?_
  rw [ofText_eq_spelling h]
  refine ofText_eq_iff ?_ (not_mem_reserved (c := 'P') ?_ rfl)
  · have hlast : "Param".toList.getLast? = some 'm' := by decide
    rw [List.getLast?_append, hlast, Option.some_or]
    decide
  · exact List.mem_append_right _ List.mem_cons_self

theorem argument_eq_iff {a b : List Char} : argument a = argument b ↔ FallTogether a b := by
  have hreserved : ∀ name, String.ofList name ∈ reserved →
      String.ofList (name ++ ['_']) ∉ reserved := fun name _ =>
    not_mem_reserved (List.mem_append_right name List.mem_cons_self) rfl
  rw [argument, argument, avoiding_eq_iff marked_not_mem_ownArguments, ofText_marked_iff,
    ofText_marked_iff, ofText_eq, ofText_eq, avoiding_eq_iff hreserved, or_assoc, or_or_or_comm]
  rfl

theorem argument_not_mem_ownArguments (text : List Char) :
    String.ofList (argument text) ∉ ownArguments :=
  avoiding_not_mem (marked_not_mem_ownArguments _)

theorem argument_not_mem_reserved (text : List Char) :
    String.ofList (argument text) ∉ reserved :=
  avoiding_not_mem_reserved (c := 'P') List.mem_cons_self rfl (ofText_not_mem_reserved text)

theorem argument_eq_apiClient_iff {text : List Char} :
    argument text = "apiClient".toList ↔ spelling text = "apiClient".toList := by
  rw [argument, avoiding_eq_iff_of_getLast? (c := 'm') rfl (by decide) (by decide)]
  exact ofText_eq_iff (by decide) (by decide)

theorem avoiding_ne_nil {words : List String} {mark name : List Char} (h : name ≠ []) :
    avoiding words mark name ≠ [] := by
  unfold avoiding
  split
  · exact List.append_ne_nil_of_left_ne_nil h mark
  · exact h

theorem isName_ne_nil {text : List Char} (h : isName text) : text ≠ [] := by
  rintro rfl
  cases h

theorem spelling_ne_nil (text : List Char) : spelling text ≠ [] := by
  unfold spelling
  split
  · next h =>
    rcases isAccepted_iff.1 h with hname | ⟨name, -, rfl⟩
    · exact isName_ne_nil hname
    · exact List.append_ne_nil_of_right_ne_nil name (List.cons_ne_nil _ _)
  · exact isName_ne_nil (isName_joined text)

theorem argument_ne_nil (text : List Char) : argument text ≠ [] :=
  avoiding_ne_nil (avoiding_ne_nil (spelling_ne_nil text))

theorem argument_of_endsLine {text : List Char} (h : EndsLine text) : argument text = text := by
  have hfree : String.ofList text ∉ ownArguments := by
    have hplain : ∀ word ∈ ownArguments, '\n' ∉ word.toList := by decide
    intro hmem
    refine hplain _ hmem ?_
    rw [String.toList_ofList]
    exact h.mem
  rw [argument, ofText_of_endsLine h, avoiding, if_neg hfree]

theorem isLegal_argument_iff (text : List Char) : IsLegal (argument text) ↔ ¬ EndsLine text := by
  constructor
  · intro h hline
    rw [argument_of_endsLine hline] at h
    exact not_isName_of_mem hline.mem rfl h.1
  · intro hline
    have hname := (isLegal_ofText_iff text).2 hline
    unfold argument avoiding
    split
    · -- the mark holds a capital, as no reserved word does
      refine ⟨isName_append hname.1 (List.all_eq_true.1 (by decide)),
        not_mem_reserved (c := 'P') ?_ rfl⟩
      exact List.mem_append_right _ List.mem_cons_self
    · exact hname

theorem isGiven_of_mem_argument (text : List Char) : ∀ c ∈ argument text, isGiven c :=
  isGiven_of_mem_avoiding (List.all_eq_true.1 rfl) (isGiven_of_mem_ofText text)

end ApiContract.Identifier
