import ApiContract.Schema

/-!
# Where a schema refers to a name

`RefersTo` says that a reference to a name stands somewhere inside a schema: in the items of an
array, in a property of an object, named or not, or in a member of a composition, at any depth.

Main fact: `mem_references_iff` (the references that are listed are these, and none is missed).
-/

namespace ApiContract.Schema

/-- A schema refers to a name, itself or in a part of it. -/
inductive RefersTo (name : String) : Schema → Prop
  | reference {nullable : Bool} : RefersTo name (.reference nullable name)
  | items {nullable : Bool} {items : Schema} (inner : RefersTo name items) :
      RefersTo name (.array nullable items)
  | property {nullable : Bool} {properties : List (String × Schema)} {required : List String}
      {additional : Option Schema} {property : String × Schema} (mem : property ∈ properties)
      (inner : RefersTo name property.2) :
      RefersTo name (.object nullable properties required additional)
  | additional {nullable : Bool} {properties : List (String × Schema)} {required : List String}
      {additional : Schema} (inner : RefersTo name additional) :
      RefersTo name (.object nullable properties required (some additional))
  | member {nullable : Bool} {composition : Composition} {members : List Schema} {member : Schema}
      (mem : member ∈ members) (inner : RefersTo name member) :
      RefersTo name (.composite nullable composition members)

variable {name : String}

theorem RefersTo.mem_references {schema : Schema} (h : schema.RefersTo name) :
    name ∈ schema.references := by
  induction h with
  | reference =>
    rw [references_reference]
    exact List.mem_singleton.2 rfl
  | items _ ih =>
    rw [references_array]
    exact ih
  | property mem _ ih =>
    rw [references_object]
    exact List.mem_append_left _ (List.mem_flatMap.2 ⟨_, mem, ih⟩)
  | additional _ ih =>
    rw [references_object]
    exact List.mem_append_right _ ih
  | member mem _ ih =>
    rw [references_composite]
    exact List.mem_flatMap.2 ⟨_, mem, ih⟩

mutual

theorem refersTo_of_mem : ∀ {schema : Schema}, name ∈ schema.references → schema.RefersTo name
  | reference _ target, h => by
    rw [references_reference, List.mem_singleton] at h
    exact h ▸ .reference
  | array _ items, h => by
    rw [references_array] at h
    exact .items (refersTo_of_mem h)
  | object _ properties _ additional, h => by
    rw [references, List.mem_append] at h
    obtain h | h := h
    · obtain ⟨property, mem, inner⟩ := refersTo_of_mem_properties h
      exact .property mem inner
    · obtain ⟨schema, rfl, inner⟩ := refersTo_of_mem_option h
      exact .additional inner
  | composite _ _ members, h => by
    rw [references] at h
    obtain ⟨member, mem, inner⟩ := refersTo_of_mem_members h
    exact .member mem inner
  | text _ _, h | number _ _, h | boolean _, h | enumeration _ _, h | unknown _, h =>
    absurd h List.not_mem_nil

theorem refersTo_of_mem_properties : ∀ {properties : List (String × Schema)},
    name ∈ referencesInProperties properties → ∃ property ∈ properties, property.2.RefersTo name
  | [], h => by cases h
  | (n, schema) :: rest, h => by
    rw [referencesInProperties, List.mem_append] at h
    obtain h | h := h
    · exact ⟨(n, schema), List.mem_cons_self, refersTo_of_mem h⟩
    · obtain ⟨property, mem, inner⟩ := refersTo_of_mem_properties h
      exact ⟨property, List.mem_cons_of_mem _ mem, inner⟩

theorem refersTo_of_mem_option : ∀ {additional : Option Schema},
    name ∈ referencesInOption additional → ∃ schema, additional = some schema ∧ schema.RefersTo name
  | none, h => by cases h
  | some schema, h => ⟨schema, rfl, refersTo_of_mem h⟩

theorem refersTo_of_mem_members : ∀ {members : List Schema},
    name ∈ referencesInMembers members → ∃ member ∈ members, member.RefersTo name
  | [], h => by cases h
  | schema :: rest, h => by
    rw [referencesInMembers, List.mem_append] at h
    obtain h | h := h
    · exact ⟨schema, List.mem_cons_self, refersTo_of_mem h⟩
    · obtain ⟨member, mem, inner⟩ := refersTo_of_mem_members h
      exact ⟨member, List.mem_cons_of_mem _ mem, inner⟩

end

/-- The listed references are those that stand somewhere inside the schema. -/
theorem mem_references_iff {schema : Schema} :
    name ∈ schema.references ↔ schema.RefersTo name :=
  ⟨refersTo_of_mem, RefersTo.mem_references⟩

end ApiContract.Schema
