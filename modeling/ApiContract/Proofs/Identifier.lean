import ApiContract.Identifier

/-!
# The characters of given names

The names that are given to schemas and properties consist of characters of names, but for the line
feeds that an accepted text may end in.

Main facts: `isGiven_of_isAccepted`, `isGiven_of_mem_typeAlias`.
-/

namespace ApiContract.Identifier

/-- A character that may stand in a given name. -/
def isGiven (c : Char) : Bool :=
  isPart c || c == '\n'

theorem isGiven_of_isPart {c : Char} (h : isPart c) : isGiven c := by
  rw [isGiven, h, Bool.true_or]

theorem isPart_of_mem_isName {text : List Char} (h : isName text) : ∀ c ∈ text, isPart c := by
  cases text with
  | nil => simp
  | cons first rest =>
    rw [isName_cons, Bool.and_eq_true, List.all_eq_true] at h
    exact List.forall_mem_cons.2 ⟨isPart_of_isStart h.1, h.2⟩

theorem isGiven_of_isAccepted {text : List Char} (h : isAccepted text) :
    ∀ c ∈ text, isGiven c := by
  rw [isAccepted, Bool.or_eq_true, Bool.and_eq_true, beq_iff_eq] at h
  intro c hc
  rcases h with h | ⟨hlast, h⟩
  · exact isGiven_of_isPart (isPart_of_mem_isName h c hc)
  · obtain ⟨front, rfl⟩ := List.getLast?_eq_some_iff.1 hlast
    rw [List.dropLast_concat] at h
    rw [List.mem_append, List.mem_singleton] at hc
    rcases hc with hc | rfl
    · exact isGiven_of_isPart (isPart_of_mem_isName h c hc)
    · rfl

/-! ## Joined words -/

theorem toNat_lt_of_isAlphanum {c : Char} (h : c.isAlphanum) : c.toNat < 128 := by
  have hclass : ((c.isUpper || c.isLower) || c.isDigit) = true := h
  rw [Bool.or_eq_true, Bool.or_eq_true] at hclass
  rcases hclass with (hupper | hlower) | hdigit
  · have hle : c.toNat ≤ 'Z'.toNat := UInt32.le_iff_toNat_le.1 (of_decide_eq_true hupper).2
    exact Nat.lt_of_le_of_lt hle (by decide)
  · have hle : c.toNat ≤ 'z'.toNat :=
      UInt32.le_iff_toNat_le.1 (of_decide_eq_true (Bool.and_eq_true_iff.1 hlower).2)
    exact Nat.lt_of_le_of_lt hle (by decide)
  · have hle : c.toNat ≤ '9'.toNat :=
      UInt32.le_iff_toNat_le.1 (of_decide_eq_true (Bool.and_eq_true_iff.1 hdigit).2)
    exact Nat.lt_of_le_of_lt hle (by decide)

/-- What is checked for every ASCII character holds of letters and digits. -/
theorem of_forall_ascii {P : Char → Prop}
    (hall : ∀ n < 128, (Char.ofNat n).isAlphanum → P (Char.ofNat n)) {c : Char}
    (h : c.isAlphanum) : P c := by
  have := hall c.toNat (toNat_lt_of_isAlphanum h)
  rw [Char.ofNat_toNat] at this
  exact this h

theorem isAlphanum_toUpper {c : Char} (h : c.isAlphanum) : c.toUpper.isAlphanum :=
  of_forall_ascii (P := fun c => c.toUpper.isAlphanum) (by decide) h

theorem isAlphanum_of_mem_upperFirst {word : List Char} (h : ∀ c ∈ word, c.isAlphanum) :
    ∀ c ∈ Text.upperFirst word, c.isAlphanum := by
  cases word with
  | nil => exact h
  | cons first rest =>
    obtain ⟨hfirst, hrest⟩ := List.forall_mem_cons.1 h
    intro c hc
    rw [Text.upperFirst, Text.upperChar, if_pos (toNat_lt_of_isAlphanum hfirst),
      List.singleton_append, List.mem_cons] at hc
    rcases hc with rfl | hc
    · exact isAlphanum_toUpper hfirst
    · exact hrest c hc

theorem isAlphanum_of_mem_words {text word : List Char} (h : word ∈ alphanumericWords text) :
    ∀ c ∈ word, c.isAlphanum := by
  intro c hc
  have := Text.not_mem_of_mem_pieces (List.mem_filter.1 h).1 c hc
  simpa using this

theorem isPart_of_isAlphanum {c : Char} (h : c.isAlphanum) : isPart c := by
  rw [isPart, h, Bool.true_or, Bool.true_or]

theorem isPart_of_mem_joined {text : List Char} : ∀ c ∈ joined text, isPart c := by
  unfold joined
  split
  · exact List.forall_mem_singleton.2 rfl
  · next first others hwords =>
    have hname : ∀ c ∈ first ++ others.flatMap Text.upperFirst, isPart c := by
      intro c hc
      rw [List.mem_append, List.mem_flatMap] at hc
      rcases hc with hc | ⟨word, hword, hc⟩
      · exact isPart_of_isAlphanum (isAlphanum_of_mem_words (hwords ▸ List.mem_cons_self) c hc)
      · have hw : word ∈ alphanumericWords text := hwords ▸ List.mem_cons_of_mem _ hword
        exact isPart_of_isAlphanum
          (isAlphanum_of_mem_upperFirst (isAlphanum_of_mem_words hw) c hc)
    dsimp only
    split
    · exact List.forall_mem_cons.2 ⟨rfl, hname⟩
    · exact hname

/-! ## Names -/

theorem isGiven_of_mem_avoiding {words : List String} {mark name : List Char}
    (hmark : ∀ c ∈ mark, isGiven c) (hname : ∀ c ∈ name, isGiven c) :
    ∀ c ∈ avoiding words mark name, isGiven c := by
  unfold avoiding
  split
  · exact List.forall_mem_append.2 ⟨hname, hmark⟩
  · exact hname

theorem isGiven_of_mem_ofText (text : List Char) : ∀ c ∈ ofText text, isGiven c := by
  refine isGiven_of_mem_avoiding (List.forall_mem_singleton.2 rfl) ?_
  split
  · next h => exact isGiven_of_isAccepted h
  · exact fun c hc => isGiven_of_isPart (isPart_of_mem_joined c hc)

theorem isGiven_of_mem_typeAlias (text : List Char) : ∀ c ∈ typeAlias text, isGiven c :=
  isGiven_of_mem_avoiding (List.forall_mem_singleton.2 rfl) (isGiven_of_mem_ofText text)

theorem isGiven_of_mem_validatorName (text : List Char) : ∀ c ∈ validatorName text, isGiven c :=
  List.forall_mem_append.2 ⟨isGiven_of_mem_typeAlias text, List.all_eq_true.1 rfl⟩

end ApiContract.Identifier
