import ApiContract.Json.Reader
import ApiContract.Trace

/-!
# What JSON texts hold

A JSON value has no dates, bytes or sets in it, and its names are texts. Whatever the reader reads
is such a value.

Main fact: `isJson_of_read`.
-/

namespace ApiContract

/-- A value that a JSON text can hold. -/
inductive Value.IsJson : Value → Prop
  | null : IsJson .null
  | bool (b : Bool) : IsJson (.bool b)
  | int (n : Int) : IsJson (.int n)
  | float (x : Double) : IsJson (.float x)
  | text (s : String) : IsJson (.text s)
  | list {items : List Value} (all : ∀ item ∈ items, IsJson item) : IsJson (.list items)
  | object {fields : Fields} (names : ∀ field ∈ fields, ∃ name, field.1 = .text name)
      (values : ∀ field ∈ fields, IsJson field.2) : IsJson (.object fields)

namespace Fields

/-- What holds of the keys and of the values that are put together holds of the fields. -/
theorem forall_insert {P : Scalar → Prop} {Q : Value → Prop} {fields : Fields} {key : Scalar}
    {value : Value} (hfields : ∀ field ∈ fields, P field.1 ∧ Q field.2) (hkey : P key)
    (hvalue : Q value) : ∀ field ∈ fields.insert key value, P field.1 ∧ Q field.2 := by
  induction fields with
  | nil => exact List.forall_mem_singleton.2 ⟨hkey, hvalue⟩
  | cons field fields ih =>
    obtain ⟨hfield, hothers⟩ := List.forall_mem_cons.1 hfields
    unfold insert
    split
    · exact List.forall_mem_cons.2 ⟨⟨hfield.1, hvalue⟩, hothers⟩
    · exact List.forall_mem_cons.2 ⟨hfield, ih hothers⟩

theorem forall_ofList {P : Scalar → Prop} {Q : Value → Prop} {pairs : List (Scalar × Value)}
    (h : ∀ pair ∈ pairs, P pair.1 ∧ Q pair.2) : ∀ field ∈ ofList pairs, P field.1 ∧ Q field.2 :=
  List.foldlRecOn (motive := fun fields : Fields => ∀ field ∈ fields, P field.1 ∧ Q field.2) pairs
    _ (List.forall_mem_nil _) fun _ hfields pair hpair =>
      forall_insert hfields (h pair hpair).1 (h pair hpair).2

end Fields

namespace Json

theorem isJson_of_readNumber? {negative : Bool} {text rest : List Char} {s : Scalar}
    (h : readNumber? negative text = some (s, rest)) : (Value.scalar s).IsJson := by
  unfold readNumber? at h
  obtain ⟨⟨whole, after⟩, -, h⟩ := Option.bind_eq_some_iff.1 h
  dsimp only at h
  split at h
  · cases h
    exact .float _
  · cases h
    exact .int _

theorem isJson_of_readScalar? {text rest : List Char} {s : Scalar}
    (h : readScalar? text = some (s, rest)) : (Value.scalar s).IsJson := by
  unfold readScalar? at h
  split at h
  · cases h; exact .null
  · cases h; exact .bool _
  · cases h; exact .bool _
  · cases h; exact .float _
  · cases h; exact .float _
  · cases h; exact .float _
  · exact isJson_of_readNumber? h
  · exact isJson_of_readNumber? h

/-- A field of a JSON text. -/
def IsField (field : Scalar × Value) : Prop :=
  (∃ name, field.1 = .text name) ∧ field.2.IsJson

/-- What the three readers give that have this much fuel. -/
structure Gives (fuel : Nat) : Prop where
  value : ∀ {text v rest}, readValue fuel text = .ok (v, rest) → v.IsJson
  items : ∀ {text vs rest}, readItems fuel text = .ok (vs, rest) → ∀ v ∈ vs, v.IsJson
  members : ∀ {text fields rest}, readMembers fuel text = .ok (fields, rest) →
    ∀ field ∈ fields, IsField field

theorem gives_zero : Gives 0 where
  value h := by
    rw [readValue] at h
    cases h
  items h := by
    rw [readItems] at h
    cases h
  members h := by
    rw [readMembers] at h
    cases h

theorem Gives.readValue_succ {fuel : Nat} (g : Gives fuel) {text rest : List Char} {v : Value}
    (h : readValue (fuel + 1) text = .ok (v, rest)) : v.IsJson := by
  unfold readValue at h
  split at h
  · obtain ⟨⟨s, after⟩, -, h⟩ := Except.bind_eq_ok.1 h
    cases h
    exact .text _
  · split at h
    · cases h
      exact .list (List.forall_mem_nil _)
    · obtain ⟨⟨items, after⟩, hitems, h⟩ := Except.bind_eq_ok.1 h
      cases h
      exact .list (g.items hitems)
  · split at h
    · cases h
      exact .object (List.forall_mem_nil _) (List.forall_mem_nil _)
    · obtain ⟨⟨fields, after⟩, hfields, h⟩ := Except.bind_eq_ok.1 h
      cases h
      have hall := Fields.forall_ofList (P := fun key => ∃ name, key = .text name)
        (Q := Value.IsJson) (g.members hfields)
      exact .object (fun field hfield => (hall field hfield).1)
        fun field hfield => (hall field hfield).2
  · split at h
    · next hscalar =>
      cases h
      exact isJson_of_readScalar? hscalar
    · cases h

theorem Gives.readItems_succ {fuel : Nat} (g : Gives fuel) {text rest : List Char}
    {vs : List Value} (h : readItems (fuel + 1) text = .ok (vs, rest)) : ∀ v ∈ vs, v.IsJson := by
  unfold readItems at h
  obtain ⟨⟨item, after⟩, hitem, h⟩ := Except.bind_eq_ok.1 h
  dsimp only at h
  split at h
  · cases h
    exact List.forall_mem_singleton.2 (g.value hitem)
  · obtain ⟨⟨items, after⟩, hitems, h⟩ := Except.bind_eq_ok.1 h
    cases h
    exact List.forall_mem_cons.2 ⟨g.value hitem, g.items hitems⟩
  · cases h

theorem Gives.readMembers_succ {fuel : Nat} (g : Gives fuel) {text rest : List Char}
    {fields : Fields} (h : readMembers (fuel + 1) text = .ok (fields, rest)) :
    ∀ field ∈ fields, IsField field := by
  unfold readMembers at h
  split at h
  · obtain ⟨⟨name, afterName⟩, -, h⟩ := Except.bind_eq_ok.1 h
    dsimp only at h
    split at h
    · obtain ⟨⟨value, afterValue⟩, hvalue, h⟩ := Except.bind_eq_ok.1 h
      dsimp only at h
      have hfield : IsField (.text (String.ofList name), value) := ⟨⟨_, rfl⟩, g.value hvalue⟩
      split at h
      · cases h
        exact List.forall_mem_singleton.2 hfield
      · obtain ⟨⟨others, afterOthers⟩, hothers, h⟩ := Except.bind_eq_ok.1 h
        cases h
        exact List.forall_mem_cons.2 ⟨hfield, g.members hothers⟩
      · cases h
    · cases h
  · cases h

theorem gives (fuel : Nat) : Gives fuel := by
  induction fuel with
  | zero => exact gives_zero
  | succ fuel g => exact ⟨g.readValue_succ, g.readItems_succ, g.readMembers_succ⟩

/-- Whatever a JSON text is read as is a JSON value. -/
theorem isJson_of_read {text : List Char} {v : Value} (h : read text = .ok v) : v.IsJson := by
  unfold read at h
  split at h
  · cases h
  · obtain ⟨⟨value, rest⟩, hvalue, h⟩ := Except.bind_eq_ok.1 h
    dsimp only at h
    split at h
    · cases h
      exact (gives _).value hvalue
    · cases h

end Json

end ApiContract
