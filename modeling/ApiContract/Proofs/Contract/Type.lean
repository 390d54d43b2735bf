import ApiContract.Proofs.Contract.Validator

/-!
# Types are read as what they were written for

An alternative is what stands between two bars, and brackets behind it make it the type of a list.
`ReadsAlternatives` keeps the alternatives of a text apart, and with them whether a bar between
blanks stands in it: what is put into a list has one alternative only, or it has such a bar and is
put into parentheses, though the bar may stand in a text. `ReadsType` says that the alternatives
together are read as a shape, and `ReadsPlain` that null is none of them yet.

Main facts: `ReadsPlain.orNull`, `ReadsType.array` and `readsType_atDepth`.
-/

namespace ApiContract

namespace Grammar

/-- The tokens that may stand behind an alternative. -/
def followers : List Token :=
  [.mark '[', .mark '|', .mark ';', .mark ')', .mark '>']

/-- The tokens that may stand behind a type. -/
def closers : List Token :=
  [.mark ';', .mark ')', .mark '>']

/-- The tokens go on with one of some tokens, if they go on. -/
def GoesOn (among : List Token) (toks : List Token) : Prop :=
  ∀ token ∈ toks.head?, token ∈ among

theorem GoesOn.cases {among toks : List Token} (h : GoesOn among toks) :
    toks = [] ∨ ∃ token ∈ among, ∃ rest, toks = token :: rest := by
  cases toks with
  | nil => exact .inl rfl
  | cons token rest => exact .inr ⟨token, h token rfl, rest, rfl⟩

theorem GoesOn.of_closers {toks : List Token} (h : GoesOn closers toks) :
    GoesOn followers toks := by
  intro token htoken
  have hsubset : closers ⊆ followers := by decide
  exact hsubset (h token htoken)

/-- An alternative with the brackets behind it. -/
def bracketed (shape : Option Shape) (rest : List Token) : Option Shape × List Token :=
  match shape with
  | none => (none, rest)
  | some shape => (some (brackets shape rest).1, (brackets shape rest).2)

theorem brackets_of_goesOn {toks : List Token} (shape : Shape)
    (h : GoesOn (.mark '|' :: closers) toks) : brackets shape toks = (shape, toks) := by
  obtain rfl | ⟨token, htoken, rest, rfl⟩ := h.cases
  · rfl
  · simp only [closers, List.mem_cons, List.not_mem_nil, or_false] at htoken
    rcases htoken with rfl | rfl | rfl | rfl <;> rfl

/-- Tokens that are read as an alternative. -/
def ReadsAlternative (toks : List Token) (shape : Option Shape) : Prop :=
  ∀ n, toks.length ≤ n + 1 → ∀ rest, GoesOn followers rest →
    alternative (type n) n (toks ++ rest) = some (bracketed shape rest)

/-- A text that is read as alternatives; a bar between blanks stands in it if there are more than
one. -/
def ReadsAlternatives (text : List Char) (shapes : List (Option Shape)) : Prop :=
  ∃ parts : List (List Token × Option Shape), parts ≠ [] ∧ parts.map Prod.snd = shapes ∧
    Token.Lexes false (Token.continues false) text
      (List.intercalate [.mark '|'] (parts.map Prod.fst)) ∧
    (∀ p ∈ parts, ReadsAlternative p.1 p.2) ∧
    ((∃ shape, shapes = [some shape]) ∨ Text.occursIn " | ".toList text)

/-- A text that is read as the type of a shape. -/
def ReadsType (text : List Char) (shape : Shape) : Prop :=
  ∃ shapes, ReadsAlternatives text shapes ∧ union? shapes = some shape

/-- A text that is read as a type to which null may be added. -/
def ReadsPlain (text : List Char) (shape : Shape) : Prop :=
  ∃ shapes : List Shape, ReadsAlternatives text (shapes.map some) ∧ joined? shapes = some shape

/-! ## Alternatives -/

theorem alternatives_join {item : Reader (Option Shape)} {parts : List (List Token × Option Shape)}
    (hne : parts ≠ [])
    (h : ∀ p ∈ parts, ∀ rest, GoesOn followers rest →
      item (p.1 ++ rest) = some (bracketed p.2 rest))
    {n : Nat} (hn : parts.length ≤ n) {rest : List Token} (hrest : GoesOn closers rest) :
    alternatives item n (List.intercalate [.mark '|'] (parts.map Prod.fst) ++ rest) =
      some (parts.map Prod.snd, rest) := by
  have hplain (shape : Option Shape) {rest : List Token} (h : GoesOn (.mark '|' :: closers) rest) :
      bracketed shape rest = (shape, rest) := by
    cases shape with
    | none => rfl
    | some shape => simp [bracketed, brackets_of_goesOn shape h]
  induction parts generalizing n with
  | nil => exact absurd rfl hne
  | cons p parts ih =>
    obtain ⟨n, rfl⟩ := Nat.exists_eq_succ_of_ne_zero (show n ≠ 0 by rintro rfl; simp at hn)
    obtain ⟨hp, hparts⟩ := List.forall_mem_cons.1 h
    cases parts with
    | nil =>
      have hread := hp rest hrest.of_closers
      have hbar : rest.dropPrefix? [.mark '|'] = none := by
        obtain rfl | ⟨token, htoken, rest, rfl⟩ := hrest.cases
        · rfl
        · refine dropPrefix?_of_ne ?_ [] rest
          rintro rfl
          exact absurd htoken (by decide)
      rw [hplain p.2 fun token htoken => List.mem_cons_of_mem _ (hrest token htoken)] at hread
      simp [alternatives, hread, hbar]
    | cons q parts =>
      have hothers := ih (List.cons_ne_nil q parts) hparts
        (show (q :: parts).length ≤ n by simpa using hn)
      have hread := hp (.mark '|' ::
        (List.intercalate [.mark '|'] ((q :: parts).map Prod.fst) ++ rest))
        (by simp [GoesOn, followers])
      rw [hplain p.2 (by simp [GoesOn])] at hread
      simp only [List.map_cons, List.intercalate_cons_cons, List.append_assoc,
        List.singleton_append] at hread hothers ⊢
      simp [alternatives, hread, hothers]

/-- Tokens that are read as a type, in front of what may stand behind one. -/
theorem ReadsType.exists_tokens {text : List Char} {shape : Shape} (h : ReadsType text shape) :
    ∃ toks, Token.Lexes false (Token.continues false) text toks ∧
      ∀ n, toks.length < n → ∀ rest, GoesOn closers rest →
        type n (toks ++ rest) = some (shape, rest) := by
  obtain ⟨_, ⟨parts, hne, rfl, hlex, hparts, -⟩, hunion⟩ := h
  refine ⟨_, hlex, fun n hn rest hrest => ?_⟩
  obtain ⟨n, rfl⟩ := Nat.exists_eq_succ_of_ne_zero (show n ≠ 0 by omega)
  have hcount : parts.length ≤
      (List.intercalate [.mark '|'] (parts.map Prod.fst)).length + 1 :=
    length_le_intercalate parts
  have hlength : ∀ p ∈ parts, p.1.length ≤
      (List.intercalate [.mark '|'] (parts.map Prod.fst)).length :=
    fun p hp => length_le_of_mem_intercalate hp
  have hread := alternatives_join hne
    (fun p hp => hparts p hp n (Nat.le_trans (hlength p hp) (by omega)))
    (show parts.length ≤
        (List.intercalate [.mark '|'] (parts.map Prod.fst) ++ rest).length + 1 by
      rw [List.length_append]
      omega) hrest
  simp only [type, hread, Option.bind_eq_bind, Option.bind_some, hunion]
  rfl

theorem ReadsType.readType {text : List Char} {shape : Shape} (h : ReadsType text shape) :
    readType text = some shape := by
  obtain ⟨toks, hlex, hread⟩ := h.exists_tokens
  have := hread (toks.length + 1) (Nat.lt_succ_self _) [] (by simp [GoesOn])
  rw [List.append_nil] at this
  simp [Grammar.readType, hlex.tokens_eq, this]

/-! ## One alternative -/

theorem occursIn_append (pattern before after : List Char) :
    Text.occursIn pattern (before ++ pattern ++ after) := by
  induction before with
  | nil =>
    rw [List.nil_append]
    cases pattern with
    | nil => cases after <;> simp [Text.occursIn]
    | cons c cs =>
      simp [Text.occursIn]
  | cons c cs ih =>
    rw [List.cons_append, List.cons_append, Text.occursIn, ih, Bool.or_true]

theorem ReadsPlain.of_alternative {text : List Char} {toks : List Token} {shape : Shape}
    (hlex : Token.Lexes false (Token.continues false) text toks)
    (hread : ReadsAlternative toks (some shape)) : ReadsPlain text shape :=
  ⟨[shape], ⟨[(toks, some shape)], List.cons_ne_nil _ _, rfl, by simpa using hlex,
    by simpa using hread, .inl ⟨shape, rfl⟩⟩, rfl⟩

theorem primary_null (n : Nat) (rest : List Token) :
    primary (type n) n (.word "null".toList :: rest) = none := by
  show named (type n) "null".toList rest = none
  unfold named
  split
  · rfl
  · rfl

/-- An alternative that is no null. -/
theorem ReadsAlternative.of_primary {toks : List Token} {shape : Shape}
    (h : ∀ n, toks.length ≤ n + 1 → ∀ rest, GoesOn followers rest →
      primary (type n) n (toks ++ rest) = some (shape, rest)) :
    ReadsAlternative toks (some shape) := by
  intro n hn rest hrest
  have hread := h n hn rest hrest
  rw [alternative, dropPrefix?_of_refused (primary_null n) hread, hread]
  rfl

theorem readsAlternative_null : ReadsAlternative [.word "null".toList] none := by
  intro n _ rest _
  rw [List.singleton_append, alternative, dropPrefix?_self]
  rfl

/-! ## Words -/

theorem dropPrefix?_of_goesOn {toks : List Token} (h : GoesOn followers toks) :
    toks.dropPrefix? [.mark '<'] = none := by
  obtain rfl | ⟨token, htoken, rest, rfl⟩ := h.cases
  · rfl
  · refine dropPrefix?_of_ne ?_ [] rest
    rintro rfl
    exact absurd htoken (by decide)

theorem typeName_of_goesOn {word : List Char} (hword : isTypeName word) {toks : List Token}
    (h : GoesOn followers toks) : typeName word toks = some (.reference word, toks) := by
  rw [typeName, if_pos hword]
  rintro name rest rfl
  exact absurd (h _ rfl) (by decide)

theorem ReadsAlternative.predefined {word : List Char} {shape : Shape}
    (h : predefined? word = some shape) : ReadsAlternative [.word word] (some shape) := by
  refine .of_primary fun n _ rest hrest => ?_
  show named (type n) word rest = _
  rw [named, dropPrefix?_of_goesOn hrest, h]

theorem predefined?_of_isTypeName {word : List Char} (h : isTypeName word) :
    predefined? word = none := by
  unfold predefined?
  split_ifs with hany htext hnumber hboolean
  · exact absurd (hany ▸ h) (by decide)
  · exact absurd (htext ▸ h) (by decide)
  · exact absurd (hnumber ▸ h) (by decide)
  · exact absurd (hboolean ▸ h) (by decide)
  · rfl

theorem not_mem_truthWords {word : List Char} (h : isTypeName word) :
    String.ofList word ∉ truthWords := by
  have hsubset : truthWords ⊆ Identifier.reserved ++ Identifier.typeKeywords ++ operators := by
    decide
  exact fun hmem => of_decide_eq_true h (hsubset hmem)

theorem named_of_isTypeName {word : List Char} (h : isTypeName word) (v : Reader Shape)
    {toks : List Token} (htoks : toks.dropPrefix? [.mark '<'] = none) :
    named v word toks = typeName word toks := by
  rw [named, htoks, predefined?_of_isTypeName h]
  exact if_neg (not_mem_truthWords h)

theorem ReadsAlternative.name {word : List Char} (h : isTypeName word) :
    ReadsAlternative [.word word] (some (.reference word)) :=
  .of_primary fun _ _ _ hrest =>
    (named_of_isTypeName h _ (dropPrefix?_of_goesOn hrest)).trans (typeName_of_goesOn h hrest)

theorem ReadsAlternative.qualified {word name : List Char} (h : isTypeName word) :
    ReadsAlternative [.word word, .mark '.', .word name]
      (some (.reference (word ++ '.' :: name))) := by
  refine .of_primary fun n _ rest _ => ?_
  have hbracket : (Token.mark '.' :: .word name :: rest).dropPrefix? [.mark '<'] = none :=
    dropPrefix?_of_ne (by decide) _ _
  exact (named_of_isTypeName h (type n) hbracket).trans (if_pos h)

/-! ## Types of types -/

theorem ReadsAlternative.brackets {toks : List Token} {shape : Shape}
    (h : ReadsAlternative toks (some shape)) :
    ReadsAlternative (toks ++ [.mark '[', .mark ']']) (some (.array shape)) := by
  intro n hn rest _
  rw [List.length_append] at hn
  have hread := h n (by omega) (.mark '[' :: .mark ']' :: rest) (by simp [GoesOn, followers])
  rw [List.append_assoc]
  exact hread

theorem ReadsAlternative.parentheses {toks : List Token} {shape : Shape}
    (h : ∀ n, toks.length < n → ∀ rest, GoesOn closers rest →
      type n (toks ++ rest) = some (shape, rest)) :
    ReadsAlternative (.mark '(' :: toks ++ [.mark ')']) (some shape) := by
  refine .of_primary fun n hn rest _ => ?_
  simp only [List.cons_append, List.length_cons, List.length_append] at hn
  have hread := h n (by omega) (.mark ')' :: rest) (by simp [GoesOn, closers])
  simp only [List.cons_append, List.append_assoc, List.nil_append, primary, hread,
    Option.bind_eq_bind, Option.bind_some, fixed_cons]

theorem primary_record (v : Reader Shape) (n : Nat) (toks : List Token) :
    primary v n (.word "Record".toList :: .mark '<' :: toks) =
      (toks.dropPrefix? [.word "string".toList, .mark ',']).bind fun rest =>
        (v rest).bind fun (values, rest) => fixed [.mark '>'] (.record values) rest := by
  show named v "Record".toList (.mark '<' :: toks) = _
  rw [named, dropPrefix?_self]
  rfl

theorem ReadsAlternative.record {toks : List Token} {shape : Shape}
    (h : ∀ n, toks.length < n → ∀ rest, GoesOn closers rest →
      type n (toks ++ rest) = some (shape, rest)) :
    ReadsAlternative (.word "Record".toList :: .mark '<' ::
      ([.word "string".toList, .mark ','] ++ toks ++ [.mark '>'])) (some (.record shape)) := by
  refine .of_primary fun n hn rest _ => ?_
  simp only [List.length_cons, List.length_append] at hn
  have hread := h n (by omega) (.mark '>' :: rest) (by simp [GoesOn, closers])
  rw [List.cons_append, List.cons_append, primary_record, List.append_assoc, List.append_assoc,
    dropPrefix?_append, Option.bind_some, List.singleton_append, hread]
  exact fixed_cons _ _ _

/-! ## Texts of types -/

theorem union?_map_some (shapes : List Shape) : union? (shapes.map some) = joined? shapes := by
  have hany : (shapes.map some).any Option.isNone = false := by simp
  have hshapes : (shapes.map some).filterMap id = shapes := by simp [List.filterMap_map]
  rw [union?, hany, hshapes]
  cases joined? shapes <;> rfl

theorem union?_concat_none (shapes : List Shape) :
    union? (shapes.map some ++ [none]) = (joined? shapes).map .orNull := by
  have hany : (shapes.map some ++ [none]).any Option.isNone = true := by simp
  have hshapes : (shapes.map some ++ [none]).filterMap id = shapes := by
    simp [List.filterMap_map]
  rw [union?, hany, hshapes]
  rfl

theorem ReadsPlain.orNull {c : Contract} {shape : Shape} (h : ReadsPlain c.type shape)
    (nullable : Bool) : ReadsType (c.orNull nullable).type (shape.orNullIf nullable) := by
  obtain ⟨shapes, ⟨parts, hne, hparts, hlex, hread, hone⟩, hjoined⟩ := h
  cases nullable with
  | false =>
    exact ⟨_, ⟨parts, hne, hparts, hlex, hread, hone⟩, (union?_map_some shapes).trans hjoined⟩
  | true =>
    have hbar : ∀ rest, Token.tokens false (" | ".toList ++ rest) =
        [.mark '|'] ++ Token.tokens false rest := fun _ => rfl
    have hword : Token.IsWord false "null".toList := .of_isName rfl
    have hnull : Token.Lexes false (Token.continues false) (' ' :: "| null".toList)
        ([.mark '|'] ++ [.word "null".toList]) :=
      Token.Lexes.closed_append hbar (.word hword)
    refine ⟨shapes.map some ++ [none], ⟨parts ++ [([.word "null".toList], none)], by simp,
      by simp [hparts], ?_, ?_, .inr ?_⟩, by rw [union?_concat_none, hjoined]; rfl⟩
    · have := hlex.append_cons rfl hnull
      rw [List.map_append, List.map_singleton, intercalate_concat _ _ hne, List.append_assoc]
      exact this
    · exact List.forall_mem_append.2 ⟨hread, List.forall_mem_singleton.2 readsAlternative_null⟩
    · have := occursIn_append " | ".toList c.type "null".toList
      rw [List.append_assoc] at this
      exact this

theorem ReadsType.array {c : Contract} {shape : Shape} (h : ReadsType c.type shape) :
    ReadsPlain c.array.type (.array shape) := by
  have hend : Token.Lexes false (Token.continues false) ['[', ']'] [.mark '[', .mark ']'] :=
    .of_closed fun _ => rfl
  unfold Contract.array
  split
  · obtain ⟨toks, hlex, hread⟩ := h.exists_tokens
    have hopen : ∀ rest, Token.tokens false (['('] ++ rest) =
        [.mark '('] ++ Token.tokens false rest := fun _ => rfl
    have hclose : Token.Lexes false (fun _ => false) [')'] [.mark ')'] := .of_closed fun _ => rfl
    have hparentheses := (Token.Lexes.closed_append hopen hlex).append_cons rfl hclose
    exact .of_alternative (Token.Lexes.closed_append hparentheses.closed hend)
      (ReadsAlternative.parentheses hread).brackets
  · next hone =>
    obtain ⟨_, ⟨parts, hne, rfl, hlex, hread, hshapes⟩, hunion⟩ := h
    obtain ⟨single, hsingle⟩ := hshapes.resolve_right hone
    obtain ⟨⟨toks, _⟩, _, rfl, rfl, hnil⟩ := List.map_eq_cons_iff.1 hsingle
    cases List.map_eq_nil_iff.1 hnil
    rw [List.map_singleton, List.intercalate_singleton] at hlex
    have hshape : single = shape := by simpa [union?, joined?, Shape.orNullIf] using hunion
    subst hshape
    exact .of_alternative (hlex.append_cons rfl hend) (hread _ List.mem_cons_self).brackets

theorem ReadsType.record {c : Contract} {shape : Shape} (h : ReadsType c.type shape) :
    ReadsPlain c.record.type (.record shape) := by
  obtain ⟨toks, hlex, hread⟩ := h.exists_tokens
  have hhead : ∀ rest, Token.tokens false ("Record<string, ".toList ++ rest) =
      [.word "Record".toList, .mark '<', .word "string".toList, .mark ','] ++
        Token.tokens false rest := fun _ => rfl
  have hclose : Token.Lexes false (Token.continues false) ['>'] [.mark '>'] :=
    .of_closed fun _ => rfl
  exact .of_alternative ((Token.Lexes.closed_append hhead hlex).append_cons rfl hclose)
    (ReadsAlternative.record hread)

theorem predefined?_truthWords {word : List Char} (h : String.ofList word ∈ truthWords) :
    predefined? word = none := by
  have hall : ∀ w ∈ truthWords, predefined? w.toList = none := by decide
  have := hall _ h
  rwa [String.toList_ofList] at this

/-- Where a literal is read, it is the primary type. -/
theorem primary_of_literal {v : Reader Shape} {n : Nat} {toks rest : List Token} {text : List Char}
    (h : literal truthWords toks = some (text, rest))
    (hrest : rest.dropPrefix? [.mark '<'] = none) :
    primary v n toks = some (.literals [text], rest) := by
  have hread := h
  unfold literal at h
  split at h
  · exact congrArg (Option.map _) hread
  · exact congrArg (Option.map _) hread
  · next word after =>
    split at h
    · next hword =>
      simp only [Option.some.injEq, Prod.mk.injEq] at h
      obtain ⟨rfl, rfl⟩ := h
      show named v word after = _
      rw [named, hrest, predefined?_truthWords hword]
      exact if_pos hword
    · cases h
  · exact congrArg (Option.map _) hread
  · exact congrArg (Option.map _) hread
  · cases h

theorem ReadsAlternative.literal {toks : List Token} {text : List Char}
    (h : ∀ rest, Grammar.literal truthWords (toks ++ rest) = some (text, rest)) :
    ReadsAlternative toks (some (.literals [text])) :=
  .of_primary fun _ _ rest hrest => primary_of_literal (h rest) (dropPrefix?_of_goesOn hrest)

/-- Literals are joined to their list. -/
theorem joined?_literals {literals : List (List Char)} (hne : literals ≠ []) :
    joined? (literals.map fun l => .literals [l]) = some (.literals literals) := by
  have hmap : (literals.map fun l => Shape.literals [l]).mapM oneLiteral? = some literals := by
    clear hne
    induction literals with
    | nil => rfl
    | cons l literals ih => simp [List.mapM_cons, oneLiteral?, ih]
  cases literals with
  | nil => exact absurd rfl hne
  | cons l literals =>
    cases literals with
    | nil => rfl
    | cons m literals => exact congrArg (Option.map Shape.literals) hmap

theorem ReadsPlain.literals {literals : List (List Char)} (hne : literals ≠ [])
    (h : ∀ l ∈ literals, ReadsLiteral false l ∧ String.ofList l ∉ nonFinite) :
    ReadsPlain (Text.join " | ".toList literals) (.literals literals) := by
  have hliterals : ∀ l ∈ literals, ∃ toks, Token.Lexes false (Token.continues false) l toks ∧
      ReadsAlternative toks (some (.literals [l])) := by
    intro l hl
    obtain ⟨⟨toks, hlex, hread⟩, hfinite⟩ := h l hl
    refine ⟨toks, hlex, .literal (hread truthWords fun hmem => ?_)⟩
    exact (List.mem_append.1 hmem).resolve_right hfinite
  choose! toks hlex hread using hliterals
  have hbar : ∀ rest, Token.tokens false (' ' :: "| ".toList ++ rest) =
      [.mark '|'] ++ Token.tokens false rest := fun _ => rfl
  have htext := Token.Lexes.join rfl hbar hlex
  rw [List.map_id'] at htext
  refine ⟨literals.map fun l => .literals [l],
    ⟨literals.map fun l => (toks l, some (.literals [l])), ?_, ?_, ?_, ?_, ?_⟩, ?_⟩
  · simpa using hne
  · simp
  · simpa [Function.comp_def] using htext
  · simpa using hread
  · cases literals with
    | nil => exact absurd rfl hne
    | cons l literals =>
      cases literals with
      | nil => exact .inl ⟨_, rfl⟩
      | cons m literals => exact .inr (occursIn_append " | ".toList l _)
  · exact joined?_literals hne

/-- No type can have the alias of a schema for a keyword. -/
theorem isTypeName_typeAlias {target : List Char}
    (hoperator : String.ofList (Identifier.typeAlias target) ∉ operators) :
    isTypeName (Identifier.typeAlias target) := by
  have hreserved := Identifier.typeAlias_not_mem_reserved target
  have hkeyword := Identifier.typeAlias_not_mem_typeKeywords target
  simp [isTypeName, hreserved, hkeyword, hoperator]

/-- What may stand before the names of types: nothing, or the name of a namespace with a point. -/
def IsSpace (space : List Char) : Prop :=
  space = [] ∨ ∃ word, Identifier.isName word ∧ isTypeName word ∧ space = word ++ ['.']

theorem isSpace_schemasSpace : IsSpace Contract.schemasSpace := by
  have hname : Identifier.isName "Schemas".toList := by decide
  have htype : isTypeName "Schemas".toList := by decide
  have htext : Contract.schemasSpace = "Schemas".toList ++ ['.'] := by decide
  exact .inr ⟨"Schemas".toList, hname, htype, htext⟩

theorem ReadsPlain.reference {target : String} (h : '\n' ∉ target.toList) {space : List Char}
    (hspace : IsSpace space)
    (htyped : String.ofList (space ++ Identifier.typeAlias target.toList) ∉ operators) :
    ReadsPlain (Contract.reference space target).type
      (.reference (space ++ Identifier.typeAlias target.toList)) := by
  have hword : Token.IsWord false (Identifier.typeAlias target.toList) :=
    Token.isWord_typeAlias (.inr h)
  show ReadsPlain (space ++ Identifier.typeAlias target.toList) _
  rcases hspace with rfl | ⟨word, hname, htype, rfl⟩
  · rw [List.nil_append] at htyped ⊢
    exact .of_alternative (.word hword) (.name (isTypeName_typeAlias htyped))
  · generalize Identifier.typeAlias target.toList = name at hword ⊢
    have hpoint : ∀ rest, Token.tokens false (['.'] ++ rest) =
        [Token.mark '.'] ++ Token.tokens false rest := fun _ => rfl
    have hlex := (Token.lexes_word (.of_isName hname)).append_cons rfl
      (Token.Lexes.closed_append hpoint (.word hword))
    rw [List.append_assoc, List.singleton_append]
    exact .of_alternative hlex (.qualified htype)

/-! ## Objects -/

/-- The tokens behind the key of a property. -/
def keyMarks (required : Bool) : List Token :=
  if required then [.mark ':'] else [.mark '?', .mark ':']

theorem lexes_typeLine {depth : Nat} {required : List String} {name : String} {c : Contract}
    {key : Token} {toks : List Token}
    (hkey : Token.Lexes false (Token.inWord false) (Identifier.propertyKey name.toList) [key])
    (h : Token.Lexes false (Token.continues false) c.type toks) :
    Token.Lexes false (fun _ => false) (Contract.property depth required name c).2
      (key :: keyMarks (decide (name ∈ required)) ++ toks ++ [.mark ';']) := by
  have hstart := Token.Lexes.closed_append (Token.Lexes.blanks depth).closed hkey
  have hend : Token.Lexes false (fun _ => false) [';'] [.mark ';'] := .of_closed fun _ => rfl
  unfold Contract.property keyMarks
  by_cases hname : name ∈ required
  · have hcolon : Token.Lexes false (fun _ => false) (':' :: [' ']) [.mark ':'] :=
      .of_closed fun _ => rfl
    have htype := Token.Lexes.closed_append (hstart.append_cons rfl hcolon).closed h
    simpa [hname] using htype.append_cons rfl hend
  · have hcolon : Token.Lexes false (fun _ => false) ('?' :: [':', ' '])
        [.mark '?', .mark ':'] := .of_closed fun _ => rfl
    have htype := Token.Lexes.closed_append (hstart.append_cons rfl hcolon).closed h
    simpa [hname] using htype.append_cons rfl hend

theorem typeProperty_append {v : Reader Shape} {key : Token} {name : List Char} {shape : Shape}
    {toks rest : List Token} (required : Bool) (hkey : key? key = some name)
    (h : v (toks ++ rest) = some (shape, rest)) :
    typeProperty v (key :: keyMarks required ++ toks ++ rest) =
      some ((name, required, shape), rest) := by
  rw [List.append_assoc]
  cases required with
  | true =>
    show (key? key).bind _ = _
    rw [hkey]
    exact congrArg (Option.bind · _) h
  | false =>
    show (key? key).bind _ = _
    rw [hkey]
    exact congrArg (Option.bind · _) h

theorem typeProperty_mark (v : Reader Shape) (c : Char) (rest : List Token) :
    typeProperty v (.mark c :: rest) = none := by
  unfold typeProperty
  split
  · next heq =>
    cases heq
    rfl
  · next heq =>
    cases heq
    rfl
  · rfl

/-- The line of a property is read as the property, up to the semicolon at its end. -/
theorem reads_typeLine {name : String} (hname : '\n' ∉ name.toList) {c : Contract} {shape : Shape}
    (h : ReadsType c.type shape) (depth : Nat) (required : List String) :
    ∃ toks, Token.Lexes false (fun _ => false) (Contract.property depth required name c).2
        (toks ++ [.mark ';']) ∧
      ∀ n, toks.length ≤ n → ∀ rest, typeProperty (type n) (toks ++ .mark ';' :: rest) =
        some ((name.toList, decide (name ∈ required), shape), .mark ';' :: rest) := by
  obtain ⟨toks, hlex, hread⟩ := h.exists_tokens
  obtain ⟨key, hkeyLex, hkey⟩ : ∃ key, Token.Lexes false (Token.inWord false)
      (Identifier.propertyKey name.toList) [key] ∧ key? key = some name.toList :=
    reads_key (.inr hname)
  refine ⟨_, lexes_typeLine hkeyLex hlex, fun n hn rest =>
    typeProperty_append _ hkey (hread n ?_ _ ?_)⟩
  · simp only [List.cons_append, List.length_cons, List.length_append] at hn
    omega
  · simp [GoesOn, closers]

/-- An object, with the names and the types of its properties. -/
theorem ReadsPlain.object {α : Type} {depth : Nat} {required : List String} {items : List α}
    {named : α → String × Contract} {shapes : α → Shape}
    (hnames : ∀ a ∈ items, '\n' ∉ (named a).1.toList)
    (h : ∀ a ∈ items, ReadsType (named a).2.type (shapes a)) :
    ReadsPlain (Contract.object depth required (items.map named)).type
      (.object (items.map fun a =>
        ((named a).1.toList, decide ((named a).1 ∈ required), shapes a))) := by
  have hlines := fun a ha => reads_typeLine (hnames a ha) (h a ha) depth required
  choose! toks hlex hread using hlines
  have hhead : ∀ rest, Token.tokens false ("\x7b\n".toList ++ rest) =
      [.mark '\x7b'] ++ Token.tokens false rest := fun _ => rfl
  have hbrace : Token.Lexes false (Token.continues false)
      ('\n' :: (Contract.indent (depth - 1) ++ ['\x7d'])) [.mark '\x7d'] :=
    .close _ fun _ => rfl
  have htext := Token.Lexes.closed_append
    (Token.Lexes.closed_append hhead (Token.Lexes.lines hlex)).closed hbrace
  have hlex : Token.Lexes false (Token.continues false)
      (Contract.object depth required (items.map named)).type
      (.mark '\x7b' :: items.flatMap (fun a => toks a ++ [.mark ';']) ++ [.mark '\x7d']) := by
    unfold Contract.object
    simpa [Function.comp_def] using htext
  refine .of_alternative hlex (.of_primary fun n hn rest _ => ?_)
  simp only [List.cons_append, List.length_cons, List.length_append, List.length_nil] at hn
  have hseq := sequence_entries (fun n rest => typeProperty_mark (type n) '\x7d' rest) hread
    (show (items.flatMap fun a => toks a ++ [.mark ';']).length < n by omega) rest
  rw [List.cons_append, List.cons_append, List.append_assoc, List.singleton_append, primary, hseq]
  rfl

end Grammar

/-! ## Shapes for which a type can be written -/

namespace Shape

/-- A type can be written for a shape: literals are finite, and no name begins an operator. -/
def IsWritable : Shape → Prop
  | literals texts => ∀ text ∈ texts, String.ofList text ∉ Grammar.nonFinite
  | reference name => String.ofList name ∉ Grammar.operators
  | _ => True

instance : DecidablePred IsWritable
  | literals texts =>
    inferInstanceAs (Decidable (∀ text ∈ texts, String.ofList text ∉ Grammar.nonFinite))
  | reference name => inferInstanceAs (Decidable (String.ofList name ∉ Grammar.operators))
  | any | text | file | number _ | boolean | array _ | record _ | object _ | orNull _ =>
    .isTrue trivial

end Shape

namespace Grammar

/-! ## Types of schemas -/

theorem ReadsPlain.predefined {word : List Char} {shape : Shape} (hword : Identifier.isName word)
    (h : predefined? word = some shape) : ReadsPlain word shape :=
  .of_alternative (.word (.of_isName hword)) (.predefined h)

theorem ReadsPlain.any : ReadsPlain Contract.permissive.type .any :=
  .predefined rfl rfl

theorem ReadsPlain.text (space : List Char) (format : Option String) :
    ReadsPlain (Contract.text format).type
      ((if format = some "binary" then Shape.file else .text).inType space) := by
  unfold Contract.text
  split
  · have hname : isTypeName "Blob".toList := by decide
    exact .of_alternative (.word (.of_isName rfl)) (.name hname)
  · exact .predefined rfl rfl

mutual

/-- The type of a schema is read as what it says of the shape, if that can be written. -/
theorem readsType_atDepth {space : List Char} (hspace : IsSpace space)
    (depth : Nat) : ∀ schema : Schema, (∀ name ∈ schema.names, '\n' ∉ name.toList) →
      schema.shape.Forall Shape.IsFilled → (schema.shape.inType space).Forall Shape.IsWritable →
      ReadsType (Contract.atDepth space depth schema).type (schema.shape.inType space)
  | .text nullable format, _, _, _ => by
    rw [Contract.atDepth, Schema.shape, Shape.inType_orNullIf]
    exact (ReadsPlain.text space format).orNull nullable
  | .number nullable integer, _, _, _ => by
    rw [Contract.atDepth, Schema.shape, Shape.inType_orNullIf]
    have hnumber : ReadsPlain (Contract.number integer).type (.number false) :=
      .predefined rfl rfl
    exact hnumber.orNull nullable
  | .boolean nullable, _, _, _ => by
    rw [Contract.atDepth, Schema.shape, Shape.inType_orNullIf]
    have hboolean : ReadsPlain Contract.boolean.type .boolean := .predefined rfl rfl
    exact hboolean.orNull nullable
  | .array nullable items, hnames, hfilled, hwritable => by
    rw [Schema.shape, Shape.inType_orNullIf, Shape.forall_orNullIf] at hwritable
    rw [Schema.shape, Shape.forall_orNullIf] at hfilled
    rw [Schema.names] at hnames
    rw [Contract.atDepth, Schema.shape, Shape.inType_orNullIf]
    exact (readsType_atDepth hspace depth items hnames hfilled hwritable).array.orNull nullable
  | .object nullable properties required additional, hnames, hfilled, hwritable => by
    rw [Schema.shape, Shape.inType_orNullIf, Shape.forall_orNullIf] at hwritable
    rw [Schema.shape, Shape.forall_orNullIf] at hfilled
    rw [Schema.names, List.forall_mem_append] at hnames
    rw [Contract.atDepth, Schema.shape, Shape.inType_orNullIf]
    refine ReadsPlain.orNull ?_ nullable
    split
    · next hempty =>
      rw [if_pos hempty] at hfilled hwritable
      exact (readsType_ofOption hspace depth additional hnames.2 hfilled hwritable).record
    · next hempty =>
      rw [if_neg hempty] at hfilled hwritable
      have hproperties := readsType_ofProperties hspace (depth + 1) required properties hnames.1
        hfilled hwritable
      rw [Contract.ofProperties_eq, Shape.inType, Schema.shapes_eq, Shape.inTypes_eq, List.map_map]
      exact .object (fun p hp => (hproperties p hp).1) fun p hp => (hproperties p hp).2
  | .reference nullable target, hnames, _, hwritable => by
    rw [Schema.shape, Shape.inType_orNullIf, Shape.forall_orNullIf] at hwritable
    rw [Schema.names, List.forall_mem_singleton] at hnames
    rw [Contract.atDepth, Schema.shape, Shape.inType_orNullIf]
    exact (ReadsPlain.reference hnames hspace hwritable).orNull nullable
  | .enumeration nullable values, _, hfilled, hwritable => by
    rw [Contract.atDepth, Schema.shape]
    rw [Schema.shape] at hfilled hwritable
    split
    · next c hc =>
      obtain ⟨literals, hmap, -, htype⟩ := Shape.validator_enumeration hc
      rw [hmap] at hfilled hwritable ⊢
      rw [Shape.forall_orNullIf] at hfilled
      rw [Shape.inType_orNullIf, Shape.forall_orNullIf] at hwritable
      rw [Shape.inType_orNullIf]
      have hliterals : ∀ l ∈ literals, ReadsLiteral false l ∧ String.ofList l ∉ nonFinite :=
        fun l hl =>
          let ⟨_, _, hvalue⟩ := Contract.exists_of_mem_mapM hmap l hl
          ⟨.of_literal? hvalue, hwritable l hl⟩
      have hread : ReadsPlain c.type (.literals literals) := by
        rw [htype]
        exact .literals hfilled hliterals
      exact hread.orNull nullable
    · next hnone =>
      rw [Shape.mapM_of_enumeration?_eq_none hnone]
      exact ReadsPlain.any.orNull false
  | .composite _ _ _, _, _, _ => by
    rw [Contract.atDepth, Schema.shape]
    exact ReadsPlain.any.orNull false
  | .unknown _, _, _, _ => by
    rw [Contract.atDepth, Schema.shape]
    exact ReadsPlain.any.orNull false

theorem readsType_ofOption {space : List Char}
    (hspace : IsSpace space) (depth : Nat) :
    ∀ schema : Option Schema, (∀ name ∈ Schema.namesInOption schema, '\n' ∉ name.toList) →
      (Schema.shapeOfOption schema).Forall Shape.IsFilled →
      ((Schema.shapeOfOption schema).inType space).Forall Shape.IsWritable →
      ReadsType (Contract.ofOption space depth schema).type
        ((Schema.shapeOfOption schema).inType space)
  | none, _, _, _ => ReadsPlain.any.orNull false
  | some schema, hnames, hfilled, hwritable =>
    readsType_atDepth hspace depth schema hnames hfilled hwritable

theorem readsType_ofProperties {space : List Char}
    (hspace : IsSpace space) (depth : Nat) (required : List String) :
    ∀ properties : List (String × Schema),
      (∀ name ∈ Schema.namesInProperties properties, '\n' ∉ name.toList) →
      Shape.ForallIn Shape.IsFilled (Schema.shapes required properties) →
      Shape.ForallIn Shape.IsWritable (Shape.inTypes space (Schema.shapes required properties)) →
      ∀ p ∈ properties, '\n' ∉ p.1.toList ∧
        ReadsType (Contract.atDepth space depth p.2).type (p.2.shape.inType space)
  | [], _, _, _ => List.forall_mem_nil _
  | (name, schema) :: rest, hnames, hfilled, hwritable => by
    rw [Schema.namesInProperties, List.cons_append, List.forall_mem_cons,
      List.forall_mem_append] at hnames
    exact List.forall_mem_cons.2
      ⟨⟨hnames.1, readsType_atDepth hspace depth schema hnames.2.1 hfilled.1 hwritable.1⟩,
        readsType_ofProperties hspace depth required rest hnames.2.2 hfilled.2 hwritable.2⟩

end

end Grammar

end ApiContract
