import ApiContract.Proofs.Operation.Content
import ApiContract.Proofs.Schema.Step

/-!
# Which schema a response has

The first success status that is present decides which response counts, and a supported media type
decides which schema of its content does. `offered?` is the first media type of which some key
carries a schema. Several keys may name one media type, though, and only the first of them is looked
at: `settled?` is the first media type whose first key carries a schema, and the contract rests on
this one. The two are the same unless a first key without a schema hides another that has one, and
then the schema is lost.

`Answered` and `BodyAnswered` say what contract a response and a body get when the media type is
chosen in a given way. Which one they get hangs on the one schema alone (`ofResponses_of_carries`),
so two descriptions that agree on it agree on the contract.

Main facts: `contract_decidedBy`, `settled?_eq_offered?_iff`, `answered_ofResponse` and
`ofResponses_of_carries`.
-/

namespace ApiContract.Content

open Description

/-- The schema that a medium carries. -/
def carried? : Value → Option Fields
  | .object media => Fields.object? media "schema"
  | _ => none

/-- The media type that a key names. -/
def typeOf (entry : Scalar × Value) : List Char :=
  mediaType entry.1.toText.toList

/-- The entries of a content whose keys name a media type, in order. -/
def entriesOf (content : Fields) (type : String) : Fields :=
  content.filter fun entry => typeOf entry == type.toList

/-- The schema that the first key of a media type carries. -/
def firstCarried? (content : Fields) (type : String) : Option Fields :=
  (entriesOf content type).head?.bind fun entry => carried? entry.2

/-- The first supported media type of which some key carries a schema. -/
def offered? (content : Fields) : Option String :=
  mediaTypes.find? fun type => (entriesOf content type).any fun entry => (carried? entry.2).isSome

/-- The first supported media type of which the first key carries a schema. -/
def settled? (content : Fields) : Option String :=
  mediaTypes.find? fun type => (firstCarried? content type).isSome

/-- The contract of the schema that an object describes. -/
def ofObject (space : List Char) (schema : Fields) : Trace Fault Contract :=
  Contract.ofSchema space <$> (Schema.read (.object schema)).mapError Fault.fields

/-- A media type decides the contract of a content: it is that of a schema that one of the keys of
this type carries. Without a media type it accepts anything. -/
def DecidedBy (space : List Char) (content : Fields) (made : Trace Fault Contract) :
    Option String → Prop
  | some type => ∃ entry ∈ entriesOf content type, ∃ schema, carried? entry.2 = some schema ∧
      made = ofObject space schema
  | none => made = pure .permissive

/-! ## Contents -/

theorem findSome?_eq_bind_find? {α β : Type} (f : α → Option β) (items : List α) :
    items.findSome? f = (items.find? fun item => (f item).isSome).bind f := by
  induction items with
  | nil => rfl
  | cons item items ih =>
    rw [List.findSome?_cons, List.find?_cons]
    cases h : f item with
    | none => simpa [h] using ih
    | some found => simp [h]

theorem find?_eq_find?_iff {α : Type} {p q : α → Bool} (hpq : ∀ item, p item → q item)
    (items : List α) :
    items.find? p = items.find? q ↔ ∀ item, items.find? q = some item → p item := by
  induction items with
  | nil => simp
  | cons item items ih =>
    rw [List.find?_cons, List.find?_cons]
    cases hq : q item with
    | false =>
      have hp : p item = false := by
        rw [← Bool.not_eq_true]
        exact fun hp => by simp [hpq item hp] at hq
      simpa [hp] using ih
    | true =>
      cases hp : p item with
      | true => simp [hp]
      | false =>
        refine iff_of_false (fun h => ?_) (fun h => ?_)
        · simpa [hp] using List.find?_some h
        · simpa [hp] using h item rfl

theorem media?_eq (content : Fields) (type : String) :
    media? content type = (entriesOf content type).head?.map Prod.snd := by
  rw [entriesOf, List.head?_filter]
  rfl

theorem schema?_eq (content : Fields) :
    schema? content = (settled? content).bind (firstCarried? content) := by
  rw [settled?, ← findSome?_eq_bind_find?]
  unfold schema?
  congr 1
  funext type
  rw [firstCarried?, media?_eq]
  cases (entriesOf content type).head? with
  | none => rfl
  | some entry =>
    obtain ⟨key, media⟩ := entry
    cases media <;> rfl

theorem contract_of_schema? {space : List Char} {content schema : Fields}
    (h : schema? content = some schema) : contract space content = ofObject space schema := by
  rw [contract, h]
  rfl

theorem firstCarried?_eq_some {content : Fields} {type : String} {schema : Fields}
    (h : firstCarried? content type = some schema) :
    ∃ entry ∈ entriesOf content type, carried? entry.2 = some schema := by
  obtain ⟨entry, hentry, hcarried⟩ := Option.bind_eq_some_iff.1 h
  exact ⟨entry, List.mem_of_head? hentry, hcarried⟩

/-- The contract of a content rests on the first media type whose first key carries a schema. -/
theorem contract_decidedBy (space : List Char) (content : Fields) :
    DecidedBy space content (contract space content) (settled? content) := by
  have hschema := schema?_eq content
  cases hsettled : settled? content with
  | none =>
    rw [hsettled] at hschema
    show contract space content = _
    rw [contract, hschema]
    rfl
  | some type =>
    rw [hsettled] at hschema
    have hfirst : (firstCarried? content type).isSome := by simpa using List.find?_some hsettled
    obtain ⟨schema, hfirst⟩ := Option.isSome_iff_exists.1 hfirst
    obtain ⟨entry, hentry, hcarried⟩ := firstCarried?_eq_some hfirst
    exact ⟨entry, hentry, schema, hcarried, contract_of_schema? (hschema.trans hfirst)⟩

theorem settled?_eq_offered?_iff (content : Fields) :
    settled? content = offered? content ↔
      ∀ type, offered? content = some type → (firstCarried? content type).isSome := by
  refine find?_eq_find?_iff (fun type hfirst => ?_) mediaTypes
  obtain ⟨schema, hschema⟩ := Option.isSome_iff_exists.1 hfirst
  obtain ⟨entry, hentry, hcarried⟩ := firstCarried?_eq_some hschema
  exact List.any_eq_true.2 ⟨entry, hentry, Option.isSome_iff_exists.2 ⟨schema, hcarried⟩⟩

/-! ## Responses -/

/-- Some key of the responses reads as the status. -/
def Present (responses : Fields) (status : String) : Prop :=
  ∃ entry ∈ responses, entry.1.toText = status

/-- The response of a status: that of the last key that reads as the status. -/
def IsResponse (responses : Fields) (status : String) (response : Value) : Prop :=
  ∃ before key after, responses = before ++ (key, response) :: after ∧ key.toText = status ∧
    ∀ entry ∈ after, entry.1.toText ≠ status

/-- The response of the first success status that is present. -/
structure IsFirst (responses : Fields) (status : String) (response : Value) : Prop where
  first : ∃ before after, successStatuses = before ++ status :: after ∧
    ∀ other ∈ before, ¬ Present responses other
  response : IsResponse responses status response

theorem response?_eq_some_iff {responses : Fields} {status : String} {response : Value} :
    response? responses status = some response ↔ IsResponse responses status response := by
  rw [response?, Option.map_eq_some_iff]
  constructor
  · rintro ⟨⟨key, _⟩, hfind, rfl⟩
    obtain ⟨hkey, after, before, hsplit, hafter⟩ := List.find?_eq_some_iff_append.1 hfind
    refine ⟨before.reverse, key, after.reverse, ?_, by simpa using hkey, ?_⟩
    · rw [← List.reverse_reverse responses, hsplit]
      simp
    · simpa using hafter
  · rintro ⟨before, key, after, rfl, hkey, hafter⟩
    refine ⟨(key, response), List.find?_eq_some_iff_append.2 ⟨by simpa using hkey, after.reverse,
      before.reverse, by simp, by simpa using hafter⟩, rfl⟩

theorem response?_eq_none_iff {responses : Fields} {status : String} :
    response? responses status = none ↔ ¬ Present responses status := by
  simp [response?, Present]

theorem findSome?_response?_eq_some {responses : Fields} {status : String} {response : Value}
    (h : IsFirst responses status response) :
    successStatuses.findSome? (response? responses) = some response := by
  obtain ⟨before, after, hsplit, hbefore⟩ := h.first
  refine List.findSome?_eq_some_iff.2 ⟨before, status, after, hsplit,
    response?_eq_some_iff.2 h.response, fun other hother => ?_⟩
  exact response?_eq_none_iff.2 (hbefore other hother)

theorem findSome?_response?_eq_none {responses : Fields}
    (h : ∀ status ∈ successStatuses, ¬ Present responses status) :
    successStatuses.findSome? (response? responses) = none :=
  List.findSome?_eq_none_iff.2 fun status hstatus => response?_eq_none_iff.2 (h status hstatus)

/-- What a response is made into, when the media type is chosen in a given way. -/
inductive Answered (choose : Fields → Option String) (space : List Char) :
    Value → Trace Fault Contract → Prop
  | other {target : Value} : (∀ fields, target ≠ .object fields) →
      Answered choose space target (pure .permissive)
  | empty {fields : Fields} :
      fields.object? "content" = none ∨ fields.object? "content" = some [] →
      Answered choose space (.object fields) (pure .void)
  | content {fields content : Fields} {made : Trace Fault Contract} :
      fields.object? "content" = some content → content ≠ [] →
      DecidedBy space content made (choose content) →
      Answered choose space (.object fields) made

/-- What a body is made into, when the media type is chosen in a given way. -/
inductive BodyAnswered (choose : Fields → Option String) (space : List Char) :
    Value → Trace Fault Contract → Prop
  | other {target : Value} : (∀ fields, target ≠ .object fields) →
      BodyAnswered choose space target (pure .permissive)
  | without {fields : Fields} : fields.object? "content" = none →
      BodyAnswered choose space (.object fields) (pure .permissive)
  | content {fields content : Fields} {made : Trace Fault Contract} :
      fields.object? "content" = some content → DecidedBy space content made (choose content) →
      BodyAnswered choose space (.object fields) made

theorem Answered.decidedBy {choose : Fields → Option String} {space : List Char}
    {fields content : Fields} {made : Trace Fault Contract}
    (h : Answered choose space (.object fields) made)
    (hcontent : fields.object? "content" = some content) (hne : content ≠ []) :
    DecidedBy space content made (choose content) := by
  cases h with
  | other hother => exact absurd rfl (hother fields)
  | empty hempty =>
    rcases hempty with hempty | hempty
    · cases hcontent.symm.trans hempty
    · cases hcontent.symm.trans hempty
      exact absurd rfl hne
  | content hcontent' _ hdecided =>
    cases hcontent.symm.trans hcontent'
    exact hdecided

theorem answered_ofResponse (space : List Char) (target : Value) :
    Answered settled? space target (ofResponse space target) := by
  cases target with
  | object fields =>
    dsimp only [ofResponse]
    split
    · next hnone => exact .empty (.inl hnone)
    · next hempty => exact .empty (.inr hempty)
    · next content hne hcontent =>
      exact .content hcontent hne (contract_decidedBy space content)
  | scalar _ => exact .other nofun
  | list _ => exact .other nofun
  | set _ => exact .other nofun

theorem bodyAnswered_ofBody (space : List Char) (target : Value) :
    BodyAnswered settled? space target (ofBody space target) := by
  cases target with
  | object fields =>
    dsimp only [ofBody]
    split
    · next content hcontent => exact .content hcontent (contract_decidedBy space content)
    · next hnone => exact .without hnone
  | scalar _ => exact .other nofun
  | list _ => exact .other nofun
  | set _ => exact .other nofun

theorem ofExcept_ok_bind {α : Type} (target : Value) (f : Value → Trace Fault α) :
    (Trace.ofExcept ((Except.ok target).mapError Fault.pointer) >>= f) = f target :=
  pure_bind target f

theorem ofResponses_of_target {components response target : Value} {responses : Fields}
    {status : String} (hfirst : IsFirst responses status response)
    (htarget : Pointer.deref response components = .ok target) (space : List Char) :
    ofResponses space components responses = ofResponse space target := by
  rw [ofResponses_of_first (findSome?_response?_eq_some hfirst), htarget, ofExcept_ok_bind]

theorem ofRequestBody_of_target {components target : Value} {body : Option Value}
    (htarget : Pointer.deref (body.getD .null) components = .ok target) (space : List Char) :
    ofRequestBody space components body = ofBody space target := by
  rw [ofRequestBody_eq, htarget, ofExcept_ok_bind]

/-- **The schema of a response**: without a success status every value is a response. The response
of the first success status that is present is void without a content, any value if it is no object,
and otherwise has the schema of a medium of its content; for a body likewise. The media type of this
medium is the first supported one whose first key carries a schema. It is the first supported one of
which some key carries a schema if and only if the first key of that one does. If not, this schema
is lost: the contract rests on another media type, or accepts anything. -/
theorem answered_as_offered_iff (space : List Char) (components : Value) :
    (∀ responses, (∀ status ∈ successStatuses, ¬ Present responses status) →
      ofResponses space components responses = pure .permissive) ∧
    (∀ responses status response target, IsFirst responses status response →
      Pointer.deref response components = .ok target →
      Answered settled? space target (ofResponses space components responses)) ∧
    (∀ (body : Option Value) target, Pointer.deref (body.getD .null) components = .ok target →
      BodyAnswered settled? space target (ofRequestBody space components body)) ∧
    ∀ content, settled? content = offered? content ↔
      ∀ type, offered? content = some type → ∃ entry schema,
        (entriesOf content type).head? = some entry ∧ carried? entry.2 = some schema := by
  refine ⟨fun responses hnone => ?_, fun _ _ _ target hfirst htarget => ?_,
    fun _ target htarget => ?_, fun content => ?_⟩
  · exact ofResponses_of_none (findSome?_response?_eq_none hnone)
  · rw [ofResponses_of_target hfirst htarget]
    exact answered_ofResponse space target
  · rw [ofRequestBody_of_target htarget]
    exact bodyAnswered_ofBody space target
  · rw [settled?_eq_offered?_iff]
    refine forall₂_congr fun type _ => ?_
    rw [firstCarried?, Option.isSome_iff_exists]
    simp only [Option.bind_eq_some_iff]
    exact exists_comm

/-- The schema of a text, as it is written. -/
def textFields : Fields :=
  [(.text "type", .text "string")]

/-- A medium with the schema of a text. -/
def textMedium : Value :=
  .object [(.text "schema", .object textFields)]

/-- A response with a content. -/
def responseWith (content : Fields) : Value :=
  .object [(.text "content", .object content)]

/-- Three keys that name two media types, of which the first key of one carries a schema. -/
def listed : Fields :=
  [(.text "application/pdf", .object []), (.text "Application/JSON; v=1", textMedium),
    (.text "application/json", .object [])]

/-- A response whose schema is the one that its content offers. -/
theorem answered_as_offered_iff_listed :
    let responses : Fields := [(.text "404", .null), (.text "201", responseWith listed)]
    IsFirst responses "201" (responseWith listed) ∧
      Pointer.deref (responseWith listed) (.object []) = .ok (responseWith listed) ∧
      Answered offered? [] (responseWith listed) (ofResponses [] (.object []) responses) := by
  intro responses
  have hfirst : IsFirst responses "201" (responseWith listed) := by
    refine ⟨⟨["200"], ["204"], rfl, ?_⟩, [(.text "404", .null)], .text "201", [], rfl, rfl, nofun⟩
    simp [Present, responses, Scalar.toText]
  obtain ⟨-, hresponses, -, hiff⟩ := answered_as_offered_iff [] (.object [])
  have hsame : settled? listed = offered? listed := by
    refine (hiff listed).2 fun type htype => ?_
    cases htype
    exact ⟨_, _, rfl, rfl⟩
  have hne : listed ≠ [] := nofun
  have hdecided := (hresponses responses "201" _ _ hfirst rfl).decidedBy rfl hne
  rw [hsame] at hdecided
  exact ⟨hfirst, rfl, .content rfl hne hdecided⟩

/-- Two keys that name one media type, the first one without a schema. -/
def veiled : Fields :=
  [(.text "application/json", .object []), (.text "application/json; charset=utf-8", textMedium)]

theorem outcome_ofObject_textFields :
    (ofObject [] textFields).outcome = .ok ⟨"z.string()".toList, "string".toList⟩ := by
  refine Trace.map_eq_ok.2 ⟨.text false none, Trace.mapError_eq_ok.2 ?_, rfl⟩
  rw [Schema.read_string ⟨rfl, rfl, rfl, rfl⟩]
  rfl

/-- A key without a schema hides another of its media type, whose schema is lost. -/
theorem veiled_schema_lost :
    let responses : Fields := [(.text "200", responseWith veiled)]
    IsFirst responses "200" (responseWith veiled) ∧
      Pointer.deref (responseWith veiled) (.object []) = .ok (responseWith veiled) ∧
      ofResponses [] (.object []) responses = pure .permissive ∧
      ¬ Answered offered? [] (responseWith veiled) (ofResponses [] (.object []) responses) := by
  intro responses
  have hpermissive : ofResponses [] (.object []) responses = pure .permissive := rfl
  refine ⟨⟨⟨[], ["201", "204"], rfl, nofun⟩, [], .text "200", [], rfl, rfl, nofun⟩, rfl,
    hpermissive, fun hanswered => ?_⟩
  rw [hpermissive] at hanswered
  have hne : veiled ≠ [] := nofun
  have hoffered : offered? veiled = some "application/json" := rfl
  have hdecided := hanswered.decidedBy rfl hne
  rw [hoffered] at hdecided
  obtain ⟨entry, hentry, schema, hcarried, hmade⟩ := hdecided
  have hentries : entriesOf veiled "application/json" = veiled := rfl
  rw [hentries, veiled, List.mem_cons, List.mem_singleton] at hentry
  rcases hentry with rfl | rfl
  · cases hcarried
  · cases hcarried
    have houtcome := congrArg Trace.outcome hmade
    rw [outcome_ofObject_textFields] at houtcome
    cases houtcome

/-! ## What the contract of a response hangs on -/

/-- The response of the first success status that is present has a content in which no two keys name
one media type, and the first supported media type with a schema carries this one. -/
def Carries (components : Value) (responses : Fields) (status type : String) (schema : Fields) :
    Prop :=
  ∃ response, ∃ fields content : Fields, IsFirst responses status response ∧
    Pointer.deref response components = .ok (.object fields) ∧
    fields.object? "content" = some content ∧ (content.map typeOf).Nodup ∧
    offered? content = some type ∧ ∃ entry ∈ entriesOf content type, carried? entry.2 = some schema

theorem head?_entriesOf {content : Fields} {type : String} {entry : Scalar × Value}
    (hnodup : (content.map typeOf).Nodup) (hentry : entry ∈ entriesOf content type) :
    (entriesOf content type).head? = some entry := by
  have hnodup : ((entriesOf content type).map typeOf).Nodup :=
    hnodup.sublist (List.filter_sublist.map typeOf)
  have htype : ∀ other ∈ entriesOf content type, typeOf other = type.toList := by
    intro other hother
    simpa using (List.mem_filter.1 hother).2
  cases hentries : entriesOf content type with
  | nil =>
    rw [hentries] at hentry
    cases hentry
  | cons first rest =>
    rw [hentries] at hnodup htype hentry
    rcases List.mem_cons.1 hentry with rfl | hrest
    · rfl
    · have hfirst : typeOf first = typeOf entry := by
        rw [htype first List.mem_cons_self, htype entry hentry]
      have hnew := (List.nodup_cons.1 hnodup).1
      exact absurd (hfirst ▸ List.mem_map_of_mem hrest) hnew

theorem ofResponses_of_carries {components : Value} {responses schema : Fields}
    {status type : String} (h : Carries components responses status type schema)
    (space : List Char) : ofResponses space components responses = ofObject space schema := by
  obtain ⟨response, fields, content, hfirst, htarget, hcontent, hnodup, hoffered, entry, hentry,
    hcarried⟩ := h
  have hhead := head?_entriesOf hnodup hentry
  have hsettled : settled? content = some type := by
    refine ((settled?_eq_offered?_iff content).2 fun other hother => ?_).trans hoffered
    cases hoffered.symm.trans hother
    rw [firstCarried?, hhead]
    exact Option.isSome_iff_exists.2 ⟨schema, hcarried⟩
  have hne : content ≠ [] := List.ne_nil_of_mem (List.mem_filter.1 hentry).1
  have hdecided := (answered_ofResponse space (.object fields)).decidedBy hcontent hne
  rw [hsettled] at hdecided
  rw [ofResponses_of_target hfirst htarget]
  obtain ⟨other, hother, schema', hcarried', hmade⟩ := hdecided
  cases hhead.symm.trans (head?_entriesOf hnodup hother)
  cases hcarried.symm.trans hcarried'
  exact hmade

/-- **Only one schema counts**: two maps of responses have the same contract if the responses of
their first success statuses have contents in which no two keys name one media type, and the first
supported media types with a schema carry the same one. Nothing else has an influence, in the
contract, in the fault or in what is said: not the order of statuses and media types, not those that
come later or do not count, not the other responses, nor capitals and parameters of the keys. -/
theorem ofResponses_congr {components components' : Value} {responses responses' schema : Fields}
    {status status' type type' : String} (h : Carries components responses status type schema)
    (h' : Carries components' responses' status' type' schema) (space : List Char) :
    ofResponses space components responses = ofResponses space components' responses' := by
  rw [ofResponses_of_carries h, ofResponses_of_carries h']

/-- A response that is written in place, after one for another status, and one behind a pointer,
with other media types and capitals. -/
theorem ofResponses_congr_pointer :
    let plain : Fields := [(.text "application/json", textMedium)]
    let capital : Fields :=
      [(.text "text/plain", .null), (.text "Application/JSON; v=1", textMedium)]
    let here : Fields := [(.text "404", .null), (.text "200", responseWith plain)]
    let pointer : Value := .object [(.text "$ref", .text "#/components/responses/A")]
    let there : Fields := [(.text "200", pointer), (.text "201", .null)]
    let components : Value :=
      .object [(.text "responses", .object [(.text "A", responseWith capital)])]
    Carries (.object []) here "200" "application/json" textFields ∧
      Carries components there "200" "application/json" textFields ∧
      ofResponses [] (.object []) here = ofResponses [] components there := by
  intro plain capital here pointer there components
  have hhere : Carries (.object []) here "200" "application/json" textFields :=
    ⟨responseWith plain, [(.text "content", .object plain)], plain,
      ⟨⟨[], _, rfl, nofun⟩, [_], _, [], rfl, rfl, nofun⟩, rfl, rfl, by decide +kernel, rfl,
      (.text "application/json", textMedium), List.mem_singleton_self _, rfl⟩
  have hthere : Carries components there "200" "application/json" textFields := by
    refine ⟨pointer, [(.text "content", .object capital)], capital,
      ⟨⟨[], _, rfl, nofun⟩, [], _, [_], rfl, rfl, ?_⟩, rfl, rfl, by decide +kernel, rfl,
      (.text "Application/JSON; v=1", textMedium), List.mem_singleton_self _, rfl⟩
    simp [Scalar.toText]
  exact ⟨hhere, hthere, ofResponses_congr hhere hthere []⟩

end ApiContract.Content
