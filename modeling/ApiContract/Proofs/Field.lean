import ApiContract.Field.Checked

/-!
# What fields take

A field of a known type takes some values and refuses all others. A text is taken as it stands or
as the bytes of one; a truth value also as a word or as a number for one, the number with or without
a point.

Main facts: `text_eq_ok_iff`, `orNull_text_eq_ok_iff` and `truth_eq_ok_iff` (what is taken), and
`optional_eq_ok_iff`.
-/

namespace ApiContract.Field

/-- The values that are taken for a text. -/
inductive IsText : Value → String → Prop
  | text (s : String) : IsText (.text s) s
  | bytes {bs : List UInt8} {s : String} (h : ofUtf8? bs = some s) : IsText (.scalar (.bytes bs)) s

/-- The values that are taken for a text or for none. -/
inductive IsTextOrNull : Value → Option String → Prop
  | null : IsTextOrNull .null none
  | text {value : Value} {s : String} (h : IsText value s) : IsTextOrNull value (some s)

/-- A word for a truth value, in any case of its letters. -/
def SpellsTruth (word : String) (b : Bool) : Prop :=
  (word.map Char.toLower, b) ∈ truthWords

instance (word : String) (b : Bool) : Decidable (SpellsTruth word b) :=
  inferInstanceAs (Decidable (_ ∈ _))

/-- The values that are taken for a truth value. -/
inductive IsTruth : Value → Bool → Prop
  | bool (b : Bool) : IsTruth (.bool b) b
  | word {word : String} {b : Bool} (h : SpellsTruth word b) : IsTruth (.text word) b
  | bytes {bs : List UInt8} {word : String} {b : Bool} (hword : ofUtf8? bs = some word)
    (h : SpellsTruth word b) : IsTruth (.scalar (.bytes bs)) b
  | int (b : Bool) : IsTruth (.int b.toInt) b
  | float {x : Double} {b : Bool} (h : x.toInt? = some b.toInt) : IsTruth (.float x) b

/-! ## Readings -/

namespace Checked

theorem ok_inj {a b : α} : (.ok a : Checked α) = .ok b ↔ a = b :=
  ⟨Except.ok.inj, congrArg Except.ok⟩

/-- Whether the failures of a result are faults of fields makes no difference to its value. -/
theorem ok_eq_ok_iff {ε : Type} {a b : α} :
    (.ok a : Checked α) = .ok b ↔ (.ok a : Except ε α) = .ok b := by
  rw [ok_inj, Except.ok.injEq]

theorem within_eq_ok_iff {steps : List String} {x : Checked α} {a : α} :
    x.within steps = .ok a ↔ x = .ok a := by
  cases x with
  | ok b => rfl
  | error faults => exact iff_of_false nofun nofun

theorem ofReason_eq_ok_iff {x : Except Reason α} {a : α} : ofReason x = .ok a ↔ x = .ok a := by
  cases x with
  | ok b => exact ok_eq_ok_iff
  | error reason => exact iff_of_false nofun nofun

/-- A reading put together succeeds where both of its parts do. -/
theorem seq_eq_ok_iff {f : Checked (α → β)} {x : Checked α} {b : β} :
    f <*> x = .ok b ↔ ∃ g a, f = .ok g ∧ x = .ok a ∧ g a = b := by
  constructor
  · intro h
    change andAlso f (fun _ => x) = .ok b at h
    unfold andAlso at h
    split at h
    · next hx => exact ⟨_, _, rfl, hx, ok_inj.1 h⟩
    all_goals cases h
  · rintro ⟨g, a, rfl, rfl, rfl⟩
    rfl

theorem map_eq_ok_iff {f : α → β} {x : Checked α} {b : β} :
    f <$> x = .ok b ↔ ∃ a, x = .ok a ∧ f a = b := by
  constructor
  · intro h
    obtain ⟨g, a, hg, ha, rfl⟩ := seq_eq_ok_iff.1 h
    cases hg
    exact ⟨a, ha, rfl⟩
  · rintro ⟨a, rfl, rfl⟩
    rfl

end Checked

/-- A table with one entry for each word. -/
theorem lookup_eq_some_iff_mem {table : List (String × Bool)} (h : (table.map Prod.fst).Nodup)
    {word : String} {b : Bool} : table.lookup word = some b ↔ (word, b) ∈ table := by
  rw [List.lookup_eq_some_iff]
  constructor
  · rintro ⟨front, back, rfl, -⟩
    exact List.mem_append_right front List.mem_cons_self
  · intro hmem
    obtain ⟨front, back, rfl⟩ := List.append_of_mem hmem
    refine ⟨front, back, rfl, fun entry hentry => bne_iff_ne.2 ?_⟩
    rw [List.map_append, List.nodup_append] at h
    exact (h.2.2 entry.1 (List.mem_map_of_mem hentry) word List.mem_cons_self).symm

/-! ## What is taken -/

theorem text_eq_ok_iff {value : Value} {s : String} : text value = .ok s ↔ IsText value s := by
  rw [text, Checked.ofReason_eq_ok_iff]
  constructor
  · intro h
    unfold readText at h
    split at h
    · cases h
      exact .text _
    · split at h
      · next hutf8 =>
        cases h
        exact .bytes hutf8
      · cases h
    · cases h
  · rintro (_ | h)
    · rfl
    · simp [readText, h]

theorem orNull_text_eq_ok_iff {value : Value} {s : Option String} :
    orNull text value = .ok s ↔ IsTextOrNull value s := by
  unfold orNull
  constructor
  · intro h
    split at h
    · cases h
      exact .null
    · obtain ⟨t, ht, rfl⟩ := Checked.map_eq_ok_iff.1 h
      exact .text (text_eq_ok_iff.1 ht)
  · rintro (_ | h)
    · rfl
    · split
      · cases h
      · exact Checked.map_eq_ok_iff.2 ⟨_, text_eq_ok_iff.2 h, rfl⟩

theorem readTruthWord_eq_ok_iff {word : String} {b : Bool} :
    readTruthWord word = .ok b ↔ SpellsTruth word b := by
  rw [SpellsTruth, ← lookup_eq_some_iff_mem (by decide), readTruthWord]
  split <;> simp [*]

theorem readTruthNumber_eq_ok_iff {n : Int} {b : Bool} :
    readTruthNumber n = .ok b ↔ n = b.toInt := by
  unfold readTruthNumber
  cases b <;> grind [Bool.toInt]

theorem truth_eq_ok_iff {value : Value} {b : Bool} : truth value = .ok b ↔ IsTruth value b := by
  rw [truth, Checked.ofReason_eq_ok_iff]
  constructor
  · intro h
    unfold readTruth at h
    split at h
    · cases h
      exact .bool b
    · exact .word (readTruthWord_eq_ok_iff.1 h)
    · rw [readTruthNumber_eq_ok_iff.1 h]
      exact .int b
    · split at h
      · next n hn =>
        rw [readTruthNumber_eq_ok_iff.1 h] at hn
        exact .float hn
      · cases h
    · split at h
      · next word hword => exact .bytes hword (readTruthWord_eq_ok_iff.1 h)
      · cases h
    · cases h
  · intro h
    cases h with
    | bool => rfl
    | word h => exact readTruthWord_eq_ok_iff.2 h
    | bytes hword h =>
      rw [readTruth, hword]
      exact readTruthWord_eq_ok_iff.2 h
    | int => exact readTruthNumber_eq_ok_iff.2 rfl
    | float h =>
      rw [readTruth, h]
      exact readTruthNumber_eq_ok_iff.2 rfl

/-- A field that need not be there holds what its value is taken for, or its default. -/
theorem optional_eq_ok_iff {fields : Fields} {name : String} {default a : α}
    {read : Value → Checked α} :
    optional fields name default read = .ok a ↔
      (∃ value, fields.field? name = some value ∧ read value = .ok a) ∨
        fields.field? name = none ∧ default = a := by
  unfold optional
  cases fields.field? name with
  | none =>
    refine Checked.ok_inj.trans ?_
    simp
  | some value => simp [Checked.within_eq_ok_iff]

end ApiContract.Field
