import ApiContract.Failure
import ApiContract.Proofs.Pointer
import Mathlib.Data.List.Induction
import Mathlib.Data.List.Nodup

/-!
# Chains of pointers

A value with a pointer stands for what the pointer leads to, and that may be a value with a pointer
again. `Leads` follows such a chain without a bound and without looking back; `Ends` says how it may
end: at a value without a pointer, at a pointer that leads nowhere, or at one that was followed
before.

Every value that is reached lies in the components, so the pointers of a chain after the first one
are among those written there (`mem_pointers_of_leads`). A chain without repetition is therefore
bounded by their number, and the bound of `deref` is never met (`ends_follow`). As a chain goes on
in one way only, a pointer that comes up twice comes up for ever: a chain that cannot go on has no
repetition (`Leads.nodup`).

Main facts: `deref_eq_iff` and `deref_chain`.
-/

namespace ApiContract.Pointer

/-- The pointers `followed`, one after another, lead from one value to another. -/
inductive Leads (root : Value) : Value → List String → Value → Prop
  | here (value : Value) : Leads root value [] value
  | next {value there target : Value} {pointer : String} {followed : List String} :
      reference? value = some pointer → resolve pointer root = .ok there →
      Leads root there followed target → Leads root value (pointer :: followed) target

/-- A chain cannot go on from a value: it has no pointer, or one that leads nowhere. -/
def Stuck (root value : Value) : Prop :=
  ∀ pointer there, reference? value = some pointer → resolve pointer root ≠ .ok there

/-- How the chain of a value ends, and with what. -/
inductive Ends (root value : Value) : Except Fault Value → Prop
  | found {followed : List String} {target : Value} :
      Leads root value followed target → reference? target = none → Ends root value (.ok target)
  | broken {followed : List String} {last : Value} {pointer : String} {fault : Fault} :
      Leads root value followed last → reference? last = some pointer →
      resolve pointer root = .error fault → Ends root value (.error fault)
  | again {followed : List String} {last : Value} {pointer : String} :
      Leads root value followed last → followed.Nodup → reference? last = some pointer →
      pointer ∈ followed → Ends root value (.error (.circular pointer))

/-! ## The pointers written in a value -/

mutual

/-- The pointers of a value and of all values inside it. -/
def pointers : Value → List String
  | .object fields => pointersInFields fields
  | .list items => pointersInItems items
  | _ => []

/-- The pointers of the items of a list. -/
def pointersInItems : List Value → List String
  | [] => []
  | item :: items => pointers item ++ pointersInItems items

/-- The pointers of an object with these fields. -/
def pointersInFields : List (Scalar × Value) → List String
  | [] => []
  | (key, value) :: fields =>
    (if key = .text "$ref" then value.text?.toList else []) ++ pointers value ++
      pointersInFields fields

end

mutual

theorem length_pointers : ∀ value : Value, (pointers value).length = countReferences value
  | .object fields => length_pointersInFields fields
  | .list items => length_pointersInItems items
  | .scalar _ => rfl
  | .set _ => rfl

theorem length_pointersInItems :
    ∀ items : List Value, (pointersInItems items).length = countInItems items
  | [] => rfl
  | item :: items => by
    rw [pointersInItems, countInItems, List.length_append, length_pointers item,
      length_pointersInItems items]

theorem length_pointersInFields :
    ∀ fields : List (Scalar × Value), (pointersInFields fields).length = countInFields fields
  | [] => rfl
  | (key, value) :: fields => by
    rw [pointersInFields, countInFields, List.length_append, List.length_append,
      length_pointers value, length_pointersInFields fields]
    by_cases hkey : key = .text "$ref"
    · cases value.text? <;> simp [hkey]
    · simp [hkey]

end

theorem pointers_subset_of_mem_items {items : List Value} {item : Value} (h : item ∈ items) :
    pointers item ⊆ pointersInItems items := by
  induction items with
  | nil => cases h
  | cons first rest ih =>
    rw [pointersInItems]
    rcases List.mem_cons.1 h with rfl | h
    · exact List.subset_append_left _ _
    · exact List.Subset.trans (ih h) (List.subset_append_right _ _)

theorem pointers_subset_of_mem_fields {fields : Fields} {key : Scalar} {value : Value}
    (h : (key, value) ∈ fields) : pointers value ⊆ pointersInFields fields := by
  induction fields with
  | nil => cases h
  | cons first rest ih =>
    obtain ⟨otherKey, other⟩ := first
    rw [pointersInFields]
    rcases List.mem_cons.1 h with heq | h
    · cases heq
      exact List.Subset.trans (List.subset_append_right _ _) (List.subset_append_left _ _)
    · exact List.Subset.trans (ih h) (List.subset_append_right _ _)

theorem mem_pointersInFields {fields : Fields} {written : Value} {pointer : String}
    (h : (Scalar.text "$ref", written) ∈ fields) (htext : written.text? = some pointer) :
    pointer ∈ pointersInFields fields := by
  induction fields with
  | nil => cases h
  | cons first rest ih =>
    obtain ⟨key, value⟩ := first
    rw [pointersInFields]
    rcases List.mem_cons.1 h with heq | h
    · cases heq
      simp [htext]
    · exact List.mem_append_right _ (ih h)

theorem mem_pointers_of_reference? {value : Value} {pointer : String}
    (h : reference? value = some pointer) : pointer ∈ pointers value := by
  unfold reference? at h
  split at h
  · obtain ⟨written, hfield, htext⟩ := Option.bind_eq_some_iff.1 h
    exact mem_pointersInFields (Fields.mem_of_field? hfield) htext
  · cases h

theorem mem_of_itemAt? {α : Type} {items : List α} {index : Int} {item : α}
    (h : itemAt? items index = some item) : item ∈ items := by
  unfold itemAt? at h
  split at h
  · exact List.mem_of_getElem? h
  · split at h
    · exact List.mem_of_getElem? h
    · cases h

theorem pointers_subset_of_step {pointer : String} {value result : Value} {token : List Char}
    (h : step pointer value token = .ok result) : pointers result ⊆ pointers value := by
  unfold step at h
  split at h
  · next fields =>
    split at h
    · next hfield =>
      cases h
      exact pointers_subset_of_mem_fields (Fields.mem_of_field? hfield)
    · cases h
  · next items =>
    split at h
    · next hitem =>
      cases h
      obtain ⟨index, -, hindex⟩ := Option.bind_eq_some_iff.1 hitem
      exact pointers_subset_of_mem_items (mem_of_itemAt? hindex)
    · cases h
  · cases h

theorem pointers_subset_of_walk {pointer : String} {tokens : List (List Char)}
    {value result : Value} (h : walk pointer tokens value = .ok result) :
    pointers result ⊆ pointers value := by
  induction tokens generalizing value with
  | nil =>
    cases h
    exact List.Subset.refl _
  | cons token rest ih =>
    rw [walk_cons] at h
    obtain ⟨between, hstep, hrest⟩ := Except.bind_eq_ok.1 h
    exact List.Subset.trans (ih hrest) (pointers_subset_of_step hstep)

/-- What a pointer leads to lies inside the value from which it is followed. -/
theorem pointers_subset_of_resolve {pointer : String} {root result : Value}
    (h : resolve pointer root = .ok result) : pointers result ⊆ pointers root := by
  cases htokens : tokens? pointer with
  | none => simp [resolve, htokens] at h
  | some tokens =>
    rw [resolve_of_tokens htokens] at h
    exact pointers_subset_of_walk h

theorem pointers_rootOf (components : Value) :
    pointers (rootOf components) = pointers components := by
  simp [rootOf, pointers, pointersInFields]

/-! ## Chains -/

section
variable {root value here there target last : Value} {followed : List String} {pointer : String}

theorem Leads.append {before after : List String} (h : Leads root value before here)
    (h' : Leads root here after target) : Leads root value (before ++ after) target := by
  induction h with
  | here => exact h'
  | next hpointer hresolve _ ih => exact .next hpointer hresolve (ih h')

theorem Leads.concat (h : Leads root value followed here)
    (hpointer : reference? here = some pointer) (hresolve : resolve pointer root = .ok there) :
    Leads root value (followed ++ [pointer]) there :=
  h.append (.next hpointer hresolve (.here there))

/-- A chain on which a pointer is followed comes to it and goes on from where it leads to. -/
theorem Leads.exists_of_append {before after : List String}
    (h : Leads root value (before ++ pointer :: after) target) :
    ∃ here there, Leads root value before here ∧ reference? here = some pointer ∧
      resolve pointer root = .ok there ∧ Leads root there after target := by
  induction before generalizing value with
  | nil =>
    cases h with
    | next hpointer hresolve h => exact ⟨_, _, .here _, hpointer, hresolve, h⟩
  | cons first rest ih =>
    cases h with
    | next hfirst hresolve h =>
      obtain ⟨here, there, hhere, hrest⟩ := ih h
      exact ⟨here, there, .next hfirst hresolve hhere, hrest⟩

theorem Leads.resolve_of_mem (h : Leads root value followed target) (hmem : pointer ∈ followed) :
    ∃ there, resolve pointer root = .ok there := by
  obtain ⟨before, after, rfl⟩ := List.append_of_mem hmem
  obtain ⟨-, there, -, -, hthere, -⟩ := h.exists_of_append
  exact ⟨there, hthere⟩

theorem stuck_of_none (h : reference? value = none) : Stuck root value := by
  intro pointer there hpointer
  cases h.symm.trans hpointer

theorem stuck_of_error {fault : Fault} (hpointer : reference? value = some pointer)
    (h : resolve pointer root = .error fault) : Stuck root value := by
  intro other there hother hresolve
  cases hpointer.symm.trans hother
  cases h.symm.trans hresolve

/-- There is one way to go on, so two chains that go on as long as they can are one. -/
theorem Leads.followed_eq {followed' : List String} {target' : Value}
    (h : Leads root value followed target) (hstuck : Stuck root target)
    (h' : Leads root value followed' target') (hstuck' : Stuck root target') :
    followed = followed' := by
  induction h generalizing followed' with
  | here =>
    cases h' with
    | here => rfl
    | next hpointer hresolve => exact absurd hresolve (hstuck _ _ hpointer)
  | next hpointer hresolve _ ih =>
    cases h' with
    | here => exact absurd hresolve (hstuck' _ _ hpointer)
    | next hpointer' hresolve' h' =>
      cases hpointer.symm.trans hpointer'
      cases hresolve.symm.trans hresolve'
      rw [ih hstuck h']

theorem Leads.nodup (h : Leads root value followed target) (hstuck : Stuck root target) :
    followed.Nodup := by
  induction h with
  | here => exact List.nodup_nil
  | @next value there target pointer followed hpointer hresolve h ih =>
    refine List.nodup_cons.2 ⟨fun hmem => ?_, ih hstuck⟩
    -- followed once more, the pointer leads to the same value, from where the rest is shorter
    obtain ⟨before, after, rfl⟩ := List.append_of_mem hmem
    obtain ⟨-, again, -, -, hagain, hafter⟩ := h.exists_of_append
    cases hresolve.symm.trans hagain
    have hlength := congrArg List.length (h.followed_eq hstuck hafter hstuck)
    simp only [List.length_append, List.length_cons] at hlength
    omega

theorem mem_pointers_of_leads (h : Leads root value followed target)
    (hvalue : pointers value ⊆ pointers root) : followed ⊆ pointers root := by
  induction h with
  | here => exact List.nil_subset _
  | next hpointer hresolve _ ih =>
    exact List.cons_subset.2 ⟨hvalue (mem_pointers_of_reference? hpointer),
      ih (pointers_subset_of_resolve hresolve)⟩

/-- The pointers after the first one are written in the root. -/
theorem Leads.length_le (h : Leads root value followed target) (hnodup : followed.Nodup) :
    followed.length ≤ (pointers root).length + 1 := by
  cases h with
  | here => exact Nat.zero_le _
  | next _ hresolve h =>
    have hsubset := mem_pointers_of_leads h (pointers_subset_of_resolve hresolve)
    exact Nat.succ_le_succ ((List.nodup_cons.1 hnodup).2.length_le_of_subset hsubset)

/-! ## The run along a chain -/

theorem follow_of_none (h : reference? value = none) (fuel : Nat) (seen : List String) :
    follow root fuel seen value = .ok value := by
  cases fuel with
  | zero => rfl
  | succ fuel => rw [follow, h]

theorem follow_of_mem {seen : List String} (hpointer : reference? value = some pointer)
    (hmem : pointer ∈ seen) (fuel : Nat) :
    follow root (fuel + 1) seen value = .error (.circular pointer) := by
  rw [follow, hpointer]
  exact if_pos hmem

theorem follow_of_not_mem {seen : List String} (hpointer : reference? value = some pointer)
    (hmem : pointer ∉ seen) (fuel : Nat) :
    follow root (fuel + 1) seen value =
      (resolve pointer root).bind (follow root fuel (pointer :: seen)) := by
  rw [follow, hpointer]
  exact if_neg hmem

/-- A run follows a chain as far as it has no repetition. -/
theorem follow_leads {seen : List String} (h : Leads root value followed here)
    (hnodup : followed.Nodup) (hnew : ∀ pointer ∈ followed, pointer ∉ seen) (fuel : Nat) :
    follow root (followed.length + fuel) seen value =
      follow root fuel (followed.reverse ++ seen) here := by
  induction h generalizing seen with
  | here => rw [List.length_nil, Nat.zero_add, List.reverse_nil, List.nil_append]
  | @next value there target pointer followed hpointer hresolve _ ih =>
    obtain ⟨hfresh, hnodup⟩ := List.nodup_cons.1 hnodup
    obtain ⟨hnewPointer, hnew⟩ := List.forall_mem_cons.1 hnew
    have hnewRest : ∀ other ∈ followed, other ∉ pointer :: seen := by
      intro other hother hmem
      rcases List.mem_cons.1 hmem with rfl | hmem
      · exact hfresh hother
      · exact hnew other hother hmem
    rw [List.length_cons, Nat.add_right_comm, follow_of_not_mem hpointer hnewPointer, hresolve]
    refine (ih hnodup hnewRest).trans ?_
    rw [List.reverse_cons, List.append_assoc, List.singleton_append]

/-- A run that has come along a chain without repetition, and may go on for as long as there can be
new pointers, comes to the end of the chain. -/
theorem ends_follow (h : Leads root value followed here) (hnodup : followed.Nodup) {fuel : Nat}
    (hfuel : (pointers root).length + 2 ≤ followed.length + fuel) :
    Ends root value (follow root fuel followed.reverse here) := by
  induction fuel generalizing followed here with
  | zero =>
    have hlength := h.length_le hnodup
    omega
  | succ fuel ih =>
    cases hpointer : reference? here with
    | none =>
      rw [follow_of_none hpointer]
      exact .found h hpointer
    | some pointer =>
      by_cases hmem : pointer ∈ followed
      · rw [follow_of_mem hpointer (List.mem_reverse.2 hmem)]
        exact .again h hnodup hpointer hmem
      · rw [follow_of_not_mem hpointer (fun hseen => hmem (List.mem_reverse.1 hseen))]
        cases hresolve : resolve pointer root with
        | error fault => exact .broken h hpointer hresolve
        | ok there =>
          have hnodup' : (followed ++ [pointer]).Nodup :=
            List.concat_eq_append ▸ hnodup.concat hmem
          have hends := ih (h.concat hpointer hresolve) hnodup' (by
            rw [List.length_append, List.length_singleton]
            omega)
          rwa [List.reverse_append] at hends

theorem eq_follow_of_ends {result : Except Fault Value} (h : Ends root value result) {fuel : Nat}
    (hfuel : (pointers root).length + 2 ≤ fuel) : follow root fuel [] value = result := by
  -- all of the chain is followed first, and one pointer more can be looked at
  have hrun : ∀ {followed last}, Leads root value followed last → followed.Nodup →
      ∃ more, follow root fuel [] value = follow root (more + 1) followed.reverse last := by
    intro followed last h hnodup
    have hlength := h.length_le hnodup
    obtain ⟨more, hmore⟩ := Nat.exists_eq_add_of_le
      (show followed.length + 1 ≤ fuel by omega)
    refine ⟨more, ?_⟩
    rw [hmore, Nat.add_assoc, Nat.add_comm 1,
      follow_leads h hnodup (fun _ _ => List.not_mem_nil), List.append_nil]
  cases h with
  | found h hend =>
    obtain ⟨more, hmore⟩ := hrun h (h.nodup (stuck_of_none hend))
    rw [hmore, follow_of_none hend]
  | broken h hpointer hresolve =>
    obtain ⟨more, hmore⟩ := hrun h (h.nodup (stuck_of_error hpointer hresolve))
    rw [hmore, follow_of_not_mem hpointer fun hseen => ?_, hresolve]
    · rfl
    · obtain ⟨there, hthere⟩ := h.resolve_of_mem (List.mem_reverse.1 hseen)
      cases hresolve.symm.trans hthere
  | again h hnodup hpointer hmem =>
    obtain ⟨more, hmore⟩ := hrun h hnodup
    rw [hmore, follow_of_mem hpointer (List.mem_reverse.2 hmem)]

end

/-! ## What a value stands for -/

theorem follow_eq_iff {components value : Value} {fuel : Nat}
    (hfuel : countReferences components + 2 ≤ fuel) {result : Except Fault Value} :
    follow (rootOf components) fuel [] value = result ↔ Ends (rootOf components) value result := by
  have hpointers : (pointers (rootOf components)).length + 2 ≤ fuel := by
    rwa [pointers_rootOf, length_pointers]
  constructor
  · rintro rfl
    refine ends_follow (.here value) List.nodup_nil ?_
    rwa [List.length_nil, Nat.zero_add]
  · intro hends
    exact eq_follow_of_ends hends hpointers

theorem exists_first_repetition {α : Type} [DecidableEq α] {items : List α}
    (h : ¬ items.Nodup) :
    ∃ before item after, items = before ++ item :: after ∧ before.Nodup ∧ item ∈ before := by
  induction items using List.reverseRecOn with
  | nil => exact absurd List.nodup_nil h
  | append_singleton items item ih =>
    by_cases hitems : items.Nodup
    · refine ⟨items, item, [], rfl, hitems, ?_⟩
      by_contra hnew
      exact h (List.concat_eq_append ▸ hitems.concat hnew)
    · obtain ⟨before, first, after, rfl, hbefore, hfirst⟩ := ih hitems
      exact ⟨before, first, after ++ [item], by simp, hbefore, hfirst⟩

/-- A chain that comes back to a pointer ends there or before, at the first such pointer. -/
theorem ends_of_mem {root value last : Value} {followed : List String} {pointer : String}
    (h : Leads root value followed last) (hpointer : reference? last = some pointer)
    (hmem : pointer ∈ followed) : ∃ fault, Ends root value (.error fault) := by
  by_cases hnodup : followed.Nodup
  · exact ⟨_, .again h hnodup hpointer hmem⟩
  · obtain ⟨before, first, after, rfl, hbefore, hfirst⟩ := exists_first_repetition hnodup
    obtain ⟨here, -, hhere, hreference, -⟩ := h.exists_of_append
    exact ⟨_, .again hhere hbefore hreference hfirst⟩

theorem deref_eq_iff {components value : Value} {result : Except Fault Value} :
    deref value components = result ↔ Ends (rootOf components) value result :=
  follow_eq_iff (Nat.le_succ _)

/-- **Chains of pointers**: following the pointers of a value always ends. The value stands for the
one at which its chain comes to a value without a pointer, if it does. Otherwise the chain comes to
a pointer that leads nowhere in the components or has been followed before, and the fault is that of
the first such pointer; nothing else goes wrong, and it is a complaint about the description. The
pointers of the components bound the run: with any larger bound it is the same. -/
theorem deref_chain (value components : Value) :
    (∀ target, deref value components = .ok target ↔
      ∃ followed, Leads (rootOf components) value followed target ∧ reference? target = none) ∧
    (∀ fault, deref value components = .error fault ↔
      ∃ followed last pointer, Leads (rootOf components) value followed last ∧ followed.Nodup ∧
        reference? last = some pointer ∧
        (resolve pointer (rootOf components) = .error fault ∨
          pointer ∈ followed ∧ fault = .circular pointer)) ∧
    ((∃ fault, deref value components = .error fault) ↔
      ∃ followed last pointer, Leads (rootOf components) value followed last ∧
        reference? last = some pointer ∧
        ((∃ fault, resolve pointer (rootOf components) = .error fault) ∨ pointer ∈ followed)) ∧
    (∀ fault : Fault,
      Failure.ofDescription (.pointer fault) = .complaint (.description fault.message)) ∧
    ∀ fuel, countReferences components + 2 ≤ fuel →
      follow (rootOf components) fuel [] value = deref value components := by
  refine ⟨fun target => ?_, fun fault => ?_, ?_, fun _ => rfl, fun fuel hfuel => ?_⟩
  · rw [deref_eq_iff]
    constructor
    · rintro (⟨h, hend⟩ | _ | _)
      exact ⟨_, h, hend⟩
    · rintro ⟨followed, h, hend⟩
      exact .found h hend
  · rw [deref_eq_iff]
    constructor
    · rintro (_ | ⟨h, hpointer, hresolve⟩ | ⟨h, hnodup, hpointer, hmem⟩)
      · exact ⟨_, _, _, h, h.nodup (stuck_of_error hpointer hresolve), hpointer, .inl hresolve⟩
      · exact ⟨_, _, _, h, hnodup, hpointer, .inr ⟨hmem, rfl⟩⟩
    · rintro ⟨followed, last, pointer, h, hnodup, hpointer, hresolve | ⟨hmem, rfl⟩⟩
      · exact .broken h hpointer hresolve
      · exact .again h hnodup hpointer hmem
  · simp only [deref_eq_iff]
    constructor
    · rintro ⟨fault, _ | ⟨h, hpointer, hresolve⟩ | ⟨h, -, hpointer, hmem⟩⟩
      · exact ⟨_, _, _, h, hpointer, .inl ⟨fault, hresolve⟩⟩
      · exact ⟨_, _, _, h, hpointer, .inr hmem⟩
    · rintro ⟨followed, last, pointer, h, hpointer, ⟨fault, hresolve⟩ | hmem⟩
      · exact ⟨fault, .broken h hpointer hresolve⟩
      · exact ends_of_mem h hpointer hmem
  · exact (follow_eq_iff hfuel).2 (deref_eq_iff.1 rfl)

/-- Two parameters that stand for each other. -/
def ring : Value :=
  .object [(.text "parameters", .object [
    (.text "A", .object [(.text "$ref", .text "#/components/parameters/B")]),
    (.text "B", .object [(.text "$ref", .text "#/components/parameters/A")])])]

/-- A chain that goes into a ring ends when it is round, whatever the bound. -/
theorem deref_chain_ring :
    let value : Value := .object [(.text "$ref", .text "#/components/parameters/A")]
    deref value ring = .error (.circular "#/components/parameters/A") ∧
      countReferences ring + 2 ≤ 40 ∧ follow (rootOf ring) 40 [] value = deref value ring := by
  intro value
  obtain ⟨-, hfault, -, -, hfuel⟩ := deref_chain value ring
  refine ⟨(hfault _).2 ?_, by decide, hfuel 40 (by decide)⟩
  refine ⟨["#/components/parameters/A", "#/components/parameters/B"], value,
    "#/components/parameters/A", ?_, by decide, rfl, .inr ⟨List.mem_cons_self, rfl⟩⟩
  exact .next rfl rfl (.next rfl rfl (.here _))

end ApiContract.Pointer
