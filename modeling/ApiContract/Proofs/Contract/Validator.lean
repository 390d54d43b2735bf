import ApiContract.Proofs.Contract.Grammar
import ApiContract.Proofs.Contract.Written

/-!
# Validators are read as what they were written for

`ReadsValidator text shape` says that a text is cut into tokens that are read as the validator of a
shape, whatever methods are called on it. Every way to build a validator keeps it, so the validator
of a schema is read as the shape of the schema. A validator tells shapes apart therefore, and it
depends on nothing else.

Main facts: `readValidator_ofSchema` and `validator_eq_iff`.
-/

namespace ApiContract

namespace Grammar

/-- A text that is read as the validator of a shape; methods called on it are read on. -/
def ReadsValidator (feeds : Bool) (text : List Char) (shape : Shape) : Prop :=
  ∃ toks, Token.Lexes feeds (Token.inWord feeds) text toks ∧
    ∀ n, toks.length ≤ n → ∀ rest, validator n (toks ++ rest) = some (methods shape rest)

namespace ReadsValidator

variable {feeds : Bool} {written : List Char} {shape : Shape}

/-! ## Calls and constants -/

theorem validator_calling (n : Nat) (name : String) (toks : List Token) :
    validator (n + 1) (calling name ++ toks) =
      (call (validator n) n name.toList toks).map fun (shape, rest) => methods shape rest :=
  rfl

/-- A call, of which `toks` stand after the opening parenthesis. -/
theorem of_call (name : String) (toks : List Token)
    (hlex : Token.Lexes feeds (Token.inWord feeds) written (calling name ++ toks))
    (hcall : ∀ n, toks.length ≤ n → ∀ rest,
      call (validator n) n name.toList (toks ++ rest) = some (shape, rest)) :
    ReadsValidator feeds written shape := by
  refine ⟨_, hlex, fun n hn rest => ?_⟩
  simp only [calling, List.length_append, List.length_cons] at hn
  obtain ⟨n, rfl⟩ := Nat.exists_eq_succ_of_ne_zero (show n ≠ 0 by omega)
  rw [List.append_assoc, validator_calling, hcall n (by omega)]
  rfl

/-- A call with given tokens. -/
theorem of_fixed (name : String) (toks : List Token)
    (hlex : ∀ rest, Token.tokens feeds (written ++ rest) =
      calling name ++ toks ++ Token.tokens feeds rest)
    (hcall : ∀ (v : Reader Shape) n rest,
      call v n name.toList (toks ++ rest) = fixed toks shape (toks ++ rest)) :
    ReadsValidator feeds written shape :=
  of_call name toks (.of_closed hlex) fun n _ rest => by rw [hcall, fixed_append]

theorem any : ReadsValidator feeds Contract.permissive.validator .any :=
  of_fixed "any" [.mark ')'] (fun _ => rfl) fun _ _ _ => rfl

theorem text (format : Option String) :
    ReadsValidator feeds (Contract.text format).validator
      (if format = some "binary" then .file else .text) := by
  unfold Contract.text
  split
  · exact of_fixed "instanceof" [.word "Blob".toList, .mark ')'] (fun _ => rfl) fun _ _ _ => rfl
  · exact of_fixed "string" [.mark ')'] (fun _ => rfl) fun _ _ _ => rfl

theorem boolean : ReadsValidator feeds Contract.boolean.validator .boolean :=
  of_fixed "boolean" [.mark ')'] (fun _ => rfl) fun _ _ _ => rfl

theorem constant?_validatorName (name : List Char) :
    constant? (Identifier.validatorName name) = some (Identifier.typeAlias name) := by
  have hsuffix : "Schema".toList.isSuffixOf (Identifier.validatorName name) :=
    List.isSuffixOf_iff_suffix.2 (List.suffix_append _ _)
  have hlength : (Identifier.validatorName name).length - "Schema".length =
      (Identifier.typeAlias name).length := by
    rw [Identifier.validatorName, List.length_append]
    exact Nat.add_sub_cancel ..
  rw [constant?, if_pos hsuffix, hlength, Identifier.validatorName, List.take_left']
  rfl

theorem reference (space : List Char) {target : String}
    (h : feeds = true ∨ '\n' ∉ target.toList) :
    ReadsValidator feeds (Contract.reference space target).validator
      (.reference (Identifier.typeAlias target.toList)) := by
  have hword : Token.IsWord feeds (Identifier.validatorName target.toList) :=
    (Token.isWord_typeAlias h).append fun c hc =>
      Token.inWord_of_isPart (List.all_eq_true.1 (show "Schema".toList.all _ from rfl) c hc)
  refine ⟨_, Token.lexes_word hword, fun n hn rest => ?_⟩
  obtain ⟨n, rfl⟩ := Nat.exists_eq_succ_of_ne_zero (show n ≠ 0 by rintro rfl; simp at hn)
  rw [List.singleton_append, validator, Contract.reference, constant?_validatorName]

/-! ## Methods -/

theorem methods_method {name : String} {changed : Shape}
    (h : applied? shape name.toList = some changed) (rest : List Token) :
    methods shape (method name ++ rest) = methods changed rest := by
  simp only [method, List.cons_append, List.nil_append]
  rw [methods, h]

/-- A method called on a validator; `after` is the text of the call. -/
theorem call_method (name : String) (after : List Char) {changed : Shape}
    (h : ReadsValidator feeds written shape) (hshape : applied? shape name.toList = some changed)
    (hlex : ∀ rest, Token.tokens feeds ('.' :: after ++ rest) =
      method name ++ Token.tokens feeds rest) :
    ReadsValidator feeds (written ++ '.' :: after) changed := by
  obtain ⟨toks, htext, hread⟩ := h
  have hpoint : Token.inWord feeds '.' = false := by simp [Token.inWord, Identifier.isPart]
  refine ⟨_, htext.append_cons hpoint (.of_closed hlex), fun n hn rest => ?_⟩
  rw [List.length_append] at hn
  rw [List.append_assoc, hread n (by omega), methods_method hshape]

theorem number (integer : Bool) :
    ReadsValidator feeds (Contract.number integer).validator (.number integer) := by
  have hnumber : ReadsValidator feeds "z.number()".toList (.number false) :=
    of_fixed "number" [.mark ')'] (fun _ => rfl) fun _ _ _ => rfl
  cases integer with
  | false => exact hnumber
  | true => exact hnumber.call_method "int" "int()".toList rfl fun _ => rfl

theorem orNull {c : Contract} (h : ReadsValidator feeds c.validator shape) (nullable : Bool) :
    ReadsValidator feeds (c.orNull nullable).validator (shape.orNullIf nullable) := by
  cases nullable with
  | false => exact h
  | true => exact h.call_method "nullable" "nullable()".toList rfl fun _ => rfl

/-! ## Literals -/

theorem lexes_literalValidator {text : List Char} {toks : List Token}
    (h : Token.Lexes feeds (Token.continues feeds) text toks) :
    ∀ rest, Token.tokens feeds (Contract.literalValidator text ++ rest) =
      calling "literal" ++ toks ++ [.mark ')'] ++ Token.tokens feeds rest := by
  have hcalling : ∀ rest, Token.tokens feeds ("z.literal(".toList ++ rest) =
      calling "literal" ++ Token.tokens feeds rest := fun _ => rfl
  have hclose : Token.Lexes feeds (fun _ => false) [')'] [.mark ')'] := .of_closed fun _ => rfl
  exact ((Token.Lexes.closed_append hcalling h).append_cons rfl hclose).closed

/-- A call with a list of literals in brackets. -/
theorem of_list (name : String) (head : List Char) {item : Reader (List Char)}
    (text : List Char → List Char) (toks : List Char → List Token) {literals : List (List Char)}
    (hhead : ∀ rest, Token.tokens feeds (head ++ rest) =
      calling name ++ [.mark '['] ++ Token.tokens feeds rest)
    (hcall : ∀ (v : Reader Shape) n toks, call v n name.toList toks =
      (toks.dropPrefix? [.mark '[']).bind fun toks => (sequence ',' ']' item n toks).bind
        fun (texts, rest) => fixed [.mark ')'] (.literals texts) rest)
    (hclose : ∀ rest, item (.mark ']' :: rest) = none)
    (h : ∀ l ∈ literals, Token.Lexes feeds (Token.continues feeds) (text l) (toks l) ∧
      ∀ rest, item (toks l ++ rest) = some (l, rest)) :
    ReadsValidator feeds (head ++ Text.join [',', ' '] (literals.map text) ++ "])".toList)
      (.literals literals) := by
  have hsep : ∀ rest, Token.tokens feeds (',' :: [' '] ++ rest) =
      [.mark ','] ++ Token.tokens feeds rest := fun _ => rfl
  have hlist := Token.Lexes.closed_append hhead (Token.Lexes.join rfl hsep fun l hl => (h l hl).1)
  have hend : Token.Lexes feeds (Token.inWord feeds) (']' :: [')']) [.mark ']', .mark ')'] :=
    .of_closed fun _ => rfl
  refine of_call name ([.mark '['] ++ List.intercalate [.mark ','] (literals.map toks) ++
    [.mark ']', .mark ')']) ?_ fun n hn rest => ?_
  · simpa using hlist.append_cons rfl hend
  · have hlength : literals.length ≤
        (List.intercalate [.mark ','] (literals.map toks)).length + 1 :=
      length_le_intercalate literals
    simp only [List.length_append, List.length_cons] at hn
    have hseq : sequence ',' ']' item n (List.intercalate [.mark ','] (literals.map toks) ++
        .mark ']' :: .mark ')' :: rest) = some (literals.map id, .mark ')' :: rest) :=
      sequence_joined (by decide) hclose (fun l hl => (h l hl).2) (by omega) _
    simp [hcall, hseq]

theorem literalCall_append {text : List Char} {toks : List Token}
    (h : ∀ rest, literal (truthWords ++ nonFinite) (toks ++ rest) = some (text, rest))
    (rest : List Token) :
    literalCall (calling "literal" ++ toks ++ [.mark ')'] ++ rest) = some (text, rest) := by
  rw [List.append_assoc, List.append_assoc, literalCall, dropPrefix?_append]
  simp [h]

theorem literals {literals : List (List Char)} (h : ∀ l ∈ literals, ReadsLiteral feeds l) :
    ReadsValidator feeds (Shape.literalsValidator literals) (.literals literals) := by
  choose! toks hlex hread using h
  unfold Shape.literalsValidator
  dsimp only
  split
  · next hall =>
    have htext := of_list "enum" "z.enum([".toList id toks (fun _ => rfl) (fun _ _ _ => rfl)
      (literal_mark (by decide) []) fun l hl => ⟨hlex l hl, hread l hl [] fun hmem => by
        have hquote := List.all_eq_true.1 hall l hl
        exact absurd hmem (not_mem_of_head? (by simpa using hquote))⟩
    rwa [List.map_id] at htext
  · next hmixed =>
    split
    · next l =>
      obtain ⟨hlex, -⟩ := List.forall_mem_cons.1 hlex
      obtain ⟨hread, -⟩ := List.forall_mem_cons.1 hread
      refine of_call "literal" (toks l ++ [.mark ')']) (.of_closed ?_) fun n _ rest => ?_
      · simpa using lexes_literalValidator hlex
      · show (literal (truthWords ++ nonFinite) (toks l ++ [.mark ')'] ++ rest)).bind _ = _
        rw [List.append_assoc, hread _ id]
        exact fixed_append _ _ _
    · refine of_list "union" "z.union([".toList Contract.literalValidator
        (fun l => calling "literal" ++ toks l ++ [.mark ')']) (fun _ => rfl) (fun _ _ _ => rfl)
        (fun rest => ?_) fun l hl => ⟨.of_closed (lexes_literalValidator (hlex l hl)),
          literalCall_append (hread l hl _ id)⟩
      rw [literalCall, calling, dropPrefix?_of_ne (by decide)]
      rfl

/-! ## Validators of validators -/

/-- Where no method is called, what follows a validator is left. -/
theorem methods_mark {c : Char} (h : c ≠ '.') (rest : List Token) :
    methods shape (.mark c :: rest) = (shape, .mark c :: rest) := by
  rw [methods]
  rintro name after heq
  simp [h] at heq

/-- A call on one validator, behind tokens that stand before it. -/
theorem of_inner (name : String) (head : List Char) (ahead : List Token) (wrap : Shape → Shape)
    (h : ReadsValidator feeds written shape)
    (hhead : ∀ rest, Token.tokens feeds (head ++ rest) =
      calling name ++ ahead ++ Token.tokens feeds rest)
    (hcall : ∀ (v : Reader Shape) n toks, call v n name.toList toks =
      (toks.dropPrefix? ahead).bind fun toks => (v toks).bind
        fun (inner, rest) => fixed [.mark ')'] (wrap inner) rest) :
    ReadsValidator feeds (head ++ written ++ [')']) (wrap shape) := by
  obtain ⟨toks, hlex, hread⟩ := h
  have hclose : Token.Lexes feeds (Token.inWord feeds) [')'] [.mark ')'] := .of_closed fun _ => rfl
  refine of_call name (ahead ++ toks ++ [.mark ')']) ?_ fun n hn rest => ?_
  · simpa using (Token.Lexes.closed_append hhead hlex).append_cons rfl hclose
  · simp only [List.length_append] at hn
    rw [hcall, List.append_assoc, List.append_assoc, dropPrefix?_append, Option.bind_some,
      hread n (by omega), List.singleton_append, methods_mark (by decide)]
    exact fixed_cons _ _ _

theorem array {c : Contract} (h : ReadsValidator feeds c.validator shape) :
    ReadsValidator feeds c.array.validator (.array shape) := by
  refine h.of_inner "array" "z.array(".toList [] .array (fun _ => rfl) fun _ _ toks => ?_
  have hnone : toks.dropPrefix? [] = some toks := dropPrefix?_append [] toks
  rw [hnone]
  rfl

theorem record {c : Contract} (h : ReadsValidator feeds c.validator shape) :
    ReadsValidator feeds c.record.validator (.record shape) :=
  h.of_inner "record" "z.record(z.string(), ".toList (calling "string" ++ [.mark ')', .mark ','])
    .record (fun _ => rfl) fun _ _ _ => rfl

/-! ## Objects -/

/-- The tokens behind the validator of a property. -/
def presence (required : Bool) : List Token :=
  if required then [] else method "optional"

theorem lexes_line {depth : Nat} {name : List Char} {required : Bool} {key : Token}
    {toks : List Token}
    (hkey : Token.Lexes feeds (Token.inWord feeds) (Identifier.propertyKey name) [key])
    (h : Token.Lexes feeds (Token.inWord feeds) written toks) :
    Token.Lexes feeds (fun _ => false) (Shape.line depth name required written)
      (key :: .mark ':' :: toks ++ presence required ++ [.mark ',']) := by
  have hstart := Token.Lexes.closed_append (Token.Lexes.blanks depth).closed hkey
  have hcolon : Token.Lexes feeds (fun _ => false) (':' :: [' ']) [.mark ':'] :=
    .of_closed fun _ => rfl
  have hvalidator := Token.Lexes.closed_append (hstart.append_cons rfl hcolon).closed h
  unfold Shape.line presence
  cases required with
  | true =>
    have hend : Token.Lexes feeds (fun _ => false) [','] [.mark ','] := .of_closed fun _ => rfl
    simpa using hvalidator.append_cons rfl hend
  | false =>
    have hend : Token.Lexes feeds (fun _ => false) ('.' :: "optional(),".toList)
        (method "optional" ++ [.mark ',']) := .of_closed fun _ => rfl
    simpa using hvalidator.append_cons rfl hend

theorem property_append {v : Reader Shape} {key : Token} {name : List Char} {required : Bool}
    {toks : List Token} (hkey : key? key = some name)
    (h : ∀ rest, v (toks ++ rest) = some (methods shape rest)) (rest : List Token) :
    property v (key :: .mark ':' :: toks ++ presence required ++ .mark ',' :: rest) =
      some ((name, required, shape), .mark ',' :: rest) := by
  simp only [List.cons_append, List.append_assoc, property, hkey, h, Option.bind_eq_bind,
    Option.bind_some]
  cases required with
  | true =>
    rw [presence, if_pos rfl, List.nil_append, methods_mark (by decide)]
    simp only [method, dropPrefix?_of_ne (show Token.mark ',' ≠ .mark '.' by decide)]
    rfl
  | false =>
    have hmethods : methods shape (method "optional" ++ .mark ',' :: rest) =
        (shape, method "optional" ++ .mark ',' :: rest) := rfl
    rw [presence, if_neg (by decide), hmethods]
    simp only [dropPrefix?_append]
    rfl

theorem property_mark (v : Reader Shape) (c : Char) (rest : List Token) :
    property v (.mark c :: rest) = none := by
  unfold property
  split
  · next heq =>
    cases heq
    rfl
  · rfl

/-- The line of a property is read as the property, up to the comma at its end. -/
theorem reads_line {name : List Char} (hname : feeds = true ∨ '\n' ∉ name)
    (h : ReadsValidator feeds written shape) (depth : Nat) (required : Bool) :
    ∃ toks, Token.Lexes feeds (fun _ => false) (Shape.line depth name required written)
        (toks ++ [.mark ',']) ∧
      ∀ n, toks.length ≤ n → ∀ rest, property (validator n) (toks ++ .mark ',' :: rest) =
        some ((name, required, shape), .mark ',' :: rest) := by
  obtain ⟨toks, hlex, hread⟩ := h
  obtain ⟨key, hkeyLex, hkey⟩ := reads_key hname
  refine ⟨_, lexes_line hkeyLex hlex, fun n hn rest => property_append hkey (hread n ?_) rest⟩
  simp only [List.length_append, List.length_cons] at hn
  omega

/-- An object, with the names and the validators of its properties. -/
theorem object {α : Type} {depth : Nat} {required : List String} {items : List α}
    {named : α → String × Contract} {shapes : α → Shape}
    (hnames : ∀ a ∈ items, feeds = true ∨ '\n' ∉ (named a).1.toList)
    (h : ∀ a ∈ items, ReadsValidator feeds (named a).2.validator (shapes a)) :
    ReadsValidator feeds (Contract.object depth required (items.map named)).validator
      (.object (items.map fun a =>
        ((named a).1.toList, decide ((named a).1 ∈ required), shapes a))) := by
  have hlines := fun a ha =>
    reads_line (hnames a ha) (h a ha) depth (decide ((named a).1 ∈ required))
  choose! toks hlex hread using hlines
  have hhead : ∀ rest, Token.tokens feeds ("z.object(\x7b\n".toList ++ rest) =
      calling "object" ++ [.mark '\x7b'] ++ Token.tokens feeds rest := fun _ => rfl
  have hlines := (Token.Lexes.closed_append hhead (Token.Lexes.lines hlex)).closed
  have hbrace : Token.Lexes feeds (fun _ => false)
      ('\n' :: (Contract.indent (depth - 1) ++ ['\x7d'])) [.mark '\x7d'] :=
    .close _ fun _ => rfl
  have hclose : Token.Lexes feeds (Token.inWord feeds) [')'] [.mark ')'] := .of_closed fun _ => rfl
  have htext := Token.Lexes.closed_append (Token.Lexes.closed_append hlines hbrace).closed hclose
  have hcall (v : Reader Shape) (n : Nat) (toks : List Token) : call v n "object".toList toks =
      (toks.dropPrefix? [.mark '\x7b']).bind fun toks =>
        (sequence ',' '\x7d' (property v) n toks).bind
          fun read => fixed [.mark ')'] (.object read.1) read.2 := rfl
  rw [Shape.validator_object, List.map_map]
  unfold Shape.objectValidator
  refine of_call "object" (.mark '\x7b' :: items.flatMap (fun a => toks a ++ [.mark ',']) ++
    [.mark '\x7d', .mark ')']) ?_ fun n hn rest => ?_
  · simpa [Function.comp_def] using htext
  · simp only [List.cons_append, List.length_cons, List.length_append] at hn
    have hseq := sequence_entries (fun n rest => property_mark (validator n) '\x7d' rest) hread
      (show (items.flatMap fun a => toks a ++ [.mark ',']).length < n by omega)
      (.mark ')' :: rest)
    rw [hcall]
    simp [hseq]

end ReadsValidator

/-! ## Validators of schemas -/

mutual

/-- The validator of a schema is read as its shape. -/
theorem readsValidator_atDepth {feeds : Bool} (space : List Char) (depth : Nat) :
    ∀ schema : Schema, (∀ name ∈ schema.names, feeds = true ∨ '\n' ∉ name.toList) →
      ReadsValidator feeds (Contract.atDepth space depth schema).validator schema.shape
  | .text nullable format, _ => by
    rw [Contract.atDepth, Schema.shape]
    exact (ReadsValidator.text format).orNull nullable
  | .number nullable integer, _ => by
    rw [Contract.atDepth, Schema.shape]
    exact (ReadsValidator.number integer).orNull nullable
  | .boolean nullable, _ => by
    rw [Contract.atDepth, Schema.shape]
    exact ReadsValidator.boolean.orNull nullable
  | .array nullable items, h => by
    rw [Contract.atDepth, Schema.shape]
    rw [Schema.names] at h
    exact (readsValidator_atDepth space depth items h).array.orNull nullable
  | .object nullable properties required additional, h => by
    rw [Contract.atDepth, Schema.shape]
    rw [Schema.names, List.forall_mem_append] at h
    refine ReadsValidator.orNull ?_ nullable
    split
    · exact (readsValidator_ofOption space depth additional h.2).record
    · have hproperties := readsValidator_ofProperties space (depth + 1) properties h.1
      rw [Contract.ofProperties_eq, Schema.shapes_eq]
      exact .object (fun p hp => (hproperties p hp).1) fun p hp => (hproperties p hp).2
  | .reference nullable target, h => by
    rw [Contract.atDepth, Schema.shape]
    rw [Schema.names, List.forall_mem_singleton] at h
    exact (ReadsValidator.reference space h).orNull nullable
  | .enumeration nullable values, _ => by
    rw [Contract.atDepth, Schema.shape]
    split
    · next c hc =>
      obtain ⟨literals, hmap, hvalidator, -⟩ := Shape.validator_enumeration hc
      rw [hmap]
      have hliterals : ∀ l ∈ literals, ReadsLiteral feeds l := fun l hl =>
        let ⟨_, _, hvalue⟩ := Contract.exists_of_mem_mapM hmap l hl
        .of_literal? hvalue
      have hread : ReadsValidator feeds c.validator (.literals literals) := by
        rw [hvalidator]
        exact ReadsValidator.literals hliterals
      exact hread.orNull nullable
    · next hnone =>
      rw [Shape.mapM_of_enumeration?_eq_none hnone]
      exact ReadsValidator.any
  | .composite _ _ _, _ => by
    rw [Contract.atDepth, Schema.shape]
    exact ReadsValidator.any
  | .unknown _, _ => by
    rw [Contract.atDepth, Schema.shape]
    exact ReadsValidator.any

theorem readsValidator_ofOption {feeds : Bool} (space : List Char) (depth : Nat) :
    ∀ schema : Option Schema,
      (∀ name ∈ Schema.namesInOption schema, feeds = true ∨ '\n' ∉ name.toList) →
      ReadsValidator feeds (Contract.ofOption space depth schema).validator
        (Schema.shapeOfOption schema)
  | none, _ => ReadsValidator.any
  | some schema, h => readsValidator_atDepth space depth schema h

theorem readsValidator_ofProperties {feeds : Bool} (space : List Char) (depth : Nat) :
    ∀ properties : List (String × Schema),
      (∀ name ∈ Schema.namesInProperties properties, feeds = true ∨ '\n' ∉ name.toList) →
      ∀ p ∈ properties, (feeds = true ∨ '\n' ∉ p.1.toList) ∧
        ReadsValidator feeds (Contract.atDepth space depth p.2).validator p.2.shape
  | [], _ => List.forall_mem_nil _
  | (name, schema) :: rest, h => by
    rw [Schema.namesInProperties, List.cons_append, List.forall_mem_cons,
      List.forall_mem_append] at h
    exact List.forall_mem_cons.2 ⟨⟨h.1, readsValidator_atDepth space depth schema h.2.1⟩,
      readsValidator_ofProperties space depth rest h.2.2⟩

end

theorem ReadsValidator.readValidator {feeds : Bool} {text : List Char} {shape : Shape}
    (h : ReadsValidator feeds text shape) : readValidator feeds text = some shape := by
  obtain ⟨toks, hlex, hread⟩ := h
  have := hread toks.length (Nat.le_refl _) []
  rw [List.append_nil] at this
  simp [Grammar.readValidator, hlex.tokens_eq, this, methods]

/-- The validator of a schema is read back as the shape of the schema. -/
theorem readValidator_ofSchema {feeds : Bool} (space : List Char) {schema : Schema}
    (h : ∀ name ∈ schema.names, feeds = true ∨ '\n' ∉ name.toList) :
    readValidator feeds (Contract.ofSchema space schema).validator = some schema.shape :=
  (readsValidator_atDepth space 1 schema h).readValidator

end Grammar

namespace Contract

end Contract

end ApiContract
