import ApiContract.Operation.Content
import ApiContract.Proofs.Contract.Written

/-!
# The references of contents

Which schema a response or a body has is said here without contracts: `Shows` finds it in what the
description writes. `RefersLike` then ties the two together: a contract refers to what the schemas
of a kind write, and to nothing else. What a response or a body stands for is found first, and then
`ofResponse` or `ofBody` makes the contract of it.

Main facts: `refersLike_ofResponses`, `refersLike_ofRequestBody`.
-/

namespace ApiContract

/-- A contract refers to what the schemas for which `P` holds write, and to nothing else. -/
def Contract.RefersLike (space : List Char) (c : Contract) (P : Schema → Prop) : Prop :=
  ∃ targets, c.Refers space targets ∧
    ∀ target, target ∈ targets ↔ ∃ schema, P schema ∧ target ∈ schema.written

namespace Contract.RefersLike

variable {space : List Char} {P : Schema → Prop}

theorem of_none {c : Contract} (hc : c.Refers space []) (h : ∀ schema, ¬ P schema) :
    c.RefersLike space P := by
  refine ⟨[], hc, fun target => ?_⟩
  constructor
  · intro ht
    cases ht
  · rintro ⟨schema, hs, -⟩
    exact absurd hs (h schema)

theorem of_one {schema : Schema} (h : ∀ other, P other ↔ other = schema) :
    (Contract.ofSchema space schema).RefersLike space P := by
  refine ⟨schema.written, Contract.refers_ofSchema schema, fun target => ?_⟩
  constructor
  · intro ht
    exact ⟨schema, (h schema).2 rfl, ht⟩
  · rintro ⟨other, ho, ht⟩
    rw [(h other).1 ho] at ht
    exact ht

theorem congr {Q : Schema → Prop} {c : Contract} (hc : c.RefersLike space P)
    (h : ∀ schema, P schema ↔ Q schema) : c.RefersLike space Q := by
  obtain ⟨targets, hrefers, htargets⟩ := hc
  refine ⟨targets, hrefers, fun target => ?_⟩
  rw [htargets]
  simp only [h]

end Contract.RefersLike

namespace Content

open Contract Description

/-- The content of a value has the schema. -/
def Shows (value : Value) (schema : Schema) : Prop :=
  ∃ fields content chosen : Fields, value = .object fields ∧
    fields.object? "content" = some content ∧ schema? content = some chosen ∧
    (Schema.read (.object chosen)).outcome = .ok schema

/-- The response of the first success status has the schema. -/
def ResponsesShow (components : Value) (responses : Fields) (schema : Schema) : Prop :=
  ∃ response target, successStatuses.findSome? (response? responses) = some response ∧
    Pointer.deref response components = .ok target ∧ Shows target schema

/-- The body has the schema. -/
def BodyShows (components : Value) (body : Option Value) (schema : Schema) : Prop :=
  ∃ target, Pointer.deref (body.getD .null) components = .ok target ∧ Shows target schema

variable {space : List Char} {c : Contract}

theorem refersLike_contract {fields content : Fields} (hf : fields.object? "content" = some content)
    (h : (contract space content).outcome = .ok c) :
    c.RefersLike space (Shows (.object fields)) := by
  unfold contract at h
  split at h
  · next chosen hchosen =>
    rw [Trace.map_eq_ok] at h
    obtain ⟨schema, hread, rfl⟩ := h
    rw [Trace.mapError_eq_ok] at hread
    refine RefersLike.of_one fun other => ?_
    constructor
    · rintro ⟨_, _, _, hfields, hcontent, hother, ho⟩
      cases hfields
      cases hf.symm.trans hcontent
      cases hchosen.symm.trans hother
      cases hread.symm.trans ho
      rfl
    · rintro rfl
      exact ⟨fields, content, chosen, rfl, hf, hchosen, hread⟩
  · next hnone =>
    cases h
    refine RefersLike.of_none refers_permissive ?_
    rintro schema ⟨_, _, _, hfields, hcontent, hother, -⟩
    cases hfields
    cases hf.symm.trans hcontent
    cases hnone.symm.trans hother

theorem not_shows_of_object?_eq_none {fields : Fields} (h : fields.object? "content" = none)
    (schema : Schema) : ¬ Shows (.object fields) schema := by
  rintro ⟨_, _, _, hfields, hcontent, -⟩
  cases hfields
  cases h.symm.trans hcontent

theorem not_shows_of_ne_object {value : Value} (h : ∀ fields, value = .object fields → False)
    (schema : Schema) : ¬ Shows value schema := by
  rintro ⟨fields, _, _, hfields, -⟩
  exact h fields hfields

/-! ## What a response or a body stands for -/

/-- The contract of what a response stands for. -/
def ofResponse (space : List Char) : Value → Trace Fault Contract
  | .object fields =>
    match Fields.object? fields "content" with
    | none | some [] => pure .void
    | some content => contract space content
  | _ => pure .permissive

/-- The contract of what a body stands for. -/
def ofBody (space : List Char) : Value → Trace Fault Contract
  | .object fields =>
    match Fields.object? fields "content" with
    | some content => contract space content
    | none => pure .permissive
  | _ => pure .permissive

theorem ofResponses_of_first {components response : Value} {responses : Fields}
    (hfirst : successStatuses.findSome? (response? responses) = some response) :
    ofResponses space components responses =
      Trace.ofExcept ((Pointer.deref response components).mapError .pointer) >>=
        ofResponse space := by
  unfold ofResponses
  rw [hfirst]
  rfl

theorem ofResponses_of_none {components : Value} {responses : Fields}
    (hnone : successStatuses.findSome? (response? responses) = none) :
    ofResponses space components responses = pure .permissive := by
  unfold ofResponses
  rw [hnone]

theorem ofRequestBody_eq (space : List Char) (components : Value) (body : Option Value) :
    ofRequestBody space components body =
      Trace.ofExcept ((Pointer.deref (body.getD .null) components).mapError .pointer) >>=
        ofBody space :=
  rfl

theorem refersLike_ofResponse {target : Value} (h : (ofResponse space target).outcome = .ok c) :
    c.RefersLike space (Shows target) := by
  unfold ofResponse at h
  split at h
  · next fields =>
    split at h
    · next hnone =>
      cases h
      exact RefersLike.of_none refers_void (not_shows_of_object?_eq_none hnone)
    · next hempty =>
      cases h
      refine RefersLike.of_none refers_void ?_
      rintro schema ⟨_, _, _, hfields, hcontent, hchosen, -⟩
      cases hfields
      cases hempty.symm.trans hcontent
      cases hchosen
    · next content hcontent => exact refersLike_contract hcontent h
  · next hother =>
    cases h
    exact RefersLike.of_none refers_permissive (not_shows_of_ne_object hother)

theorem refersLike_ofBody {target : Value} (h : (ofBody space target).outcome = .ok c) :
    c.RefersLike space (Shows target) := by
  unfold ofBody at h
  split at h
  · next fields =>
    split at h
    · next content hcontent => exact refersLike_contract hcontent h
    · next hnone =>
      cases h
      exact RefersLike.of_none refers_permissive (not_shows_of_object?_eq_none hnone)
  · next hother =>
    cases h
    exact RefersLike.of_none refers_permissive (not_shows_of_ne_object hother)

theorem refersLike_ofResponses {components : Value} {responses : Fields}
    (h : (ofResponses space components responses).outcome = .ok c) :
    c.RefersLike space (ResponsesShow components responses) := by
  cases hfirst : successStatuses.findSome? (response? responses) with
  | none =>
    rw [ofResponses_of_none hfirst] at h
    cases h
    refine RefersLike.of_none refers_permissive ?_
    rintro schema ⟨response, _, hresponse, -⟩
    cases hfirst.symm.trans hresponse
  | some response =>
    rw [ofResponses_of_first hfirst, Trace.bind_eq_ok] at h
    obtain ⟨target, htarget, h⟩ := h
    rw [Trace.ofExcept_mapError_eq_ok] at htarget
    refine (refersLike_ofResponse h).congr fun schema => ?_
    constructor
    · intro hs
      exact ⟨response, target, hfirst, htarget, hs⟩
    · rintro ⟨_, _, hfirst', htarget', hs⟩
      cases hfirst.symm.trans hfirst'
      cases htarget.symm.trans htarget'
      exact hs

theorem refersLike_ofRequestBody {components : Value} {body : Option Value}
    (h : (ofRequestBody space components body).outcome = .ok c) :
    c.RefersLike space (BodyShows components body) := by
  rw [ofRequestBody_eq, Trace.bind_eq_ok] at h
  obtain ⟨target, htarget, h⟩ := h
  rw [Trace.ofExcept_mapError_eq_ok] at htarget
  refine (refersLike_ofBody h).congr fun schema => ?_
  constructor
  · intro hs
    exact ⟨target, htarget, hs⟩
  · rintro ⟨_, htarget', hs⟩
    cases htarget.symm.trans htarget'
    exact hs

end Content

end ApiContract
