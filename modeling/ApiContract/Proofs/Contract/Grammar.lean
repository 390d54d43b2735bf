import ApiContract.Proofs.Contract.Shape
import ApiContract.Proofs.Contract.Token

/-!
# Reading validators and types

The two texts of a contract are read by the grammars of what they are: a validator is a call with
methods called on its result, or a constant; a type is one or more alternatives with a bar between
them, each a primary type with brackets behind it, and the brackets bind more strongly than the bar.
Both readers give a `Shape`.

A validator takes expressions for literals, and the numbers that are not finite have names. A type
takes literals only: there these names are those of other types, and a minus stands before a numeral
only. Some words of types begin an operator, so no type can have them for its name.

The readers go from left to right. `n` bounds how deep phrases stand inside each other, which is
less than the tokens are many.
-/

namespace ApiContract

namespace Grammar

/-- A phrase is read from the start of the tokens; what follows it is left. -/
abbrev Reader (α : Type) := List Token → Option (α × List Token)

/-- Reads given tokens. -/
def fixed (expected : List Token) (a : α) : Reader α := fun toks =>
  (toks.dropPrefix? expected).map (a, ·)

/-- Reads items with `sep` between them, and perhaps after the last, up to `close`. -/
def sequence (sep close : Char) (item : Reader α) : Nat → Reader (List α)
  | 0, _ => none
  | n + 1, toks =>
    match toks.dropPrefix? [.mark close] with
    | some rest => some ([], rest)
    | none => do
      let (a, rest) ← item toks
      match rest.dropPrefix? [.mark sep] with
      | some rest => do
        let (others, rest) ← sequence sep close item n rest
        return (a :: others, rest)
      | none => fixed [.mark close] [a] rest

/-- Reads a literal; `words` are the words that are literals, perhaps with a minus. -/
def literal (words : List String) : Reader (List Char)
  | .string text :: rest => if (Json.decode? text).isSome then some (text, rest) else none
  | .numeral text :: rest => if Decimal.isNumeral text then some (text, rest) else none
  | .word text :: rest => if String.ofList text ∈ words then some (text, rest) else none
  | .mark '-' :: .numeral text :: rest =>
    if Decimal.isNumeral text then some ('-' :: text, rest) else none
  | .mark '-' :: .word text :: rest =>
    if String.ofList ('-' :: text) ∈ words then some ('-' :: text, rest) else none
  | _ => none

/-- The name that a token is as a key. -/
def key? : Token → Option (List Char)
  | .word text => some text
  | .string text => Json.decode? text
  | _ => none

/-! ## Validators -/

/-- The words that are literals where an expression may stand. -/
def nonFinite : List String := ["NaN", "Infinity", "-Infinity"]

/-- The words that are literals everywhere. -/
def truthWords : List String := ["true", "false"]

/-- The start of a call. -/
def calling (name : String) : List Token :=
  [.word "z".toList, .mark '.', .word name.toList, .mark '(']

/-- A method called without arguments. -/
def method (name : String) : List Token :=
  [.mark '.', .word name.toList, .mark '(', .mark ')']

/-- What a validator accepts after a method is called on it. -/
def applied? (shape : Shape) (name : List Char) : Option Shape :=
  if name = "nullable".toList then some (.orNull shape)
  else if name = "int".toList then
    match shape with
    | .number false => some (.number true)
    | _ => none
  else none

/-- Reads methods as long as they change what is accepted. -/
def methods (shape : Shape) : List Token → Shape × List Token
  | .mark '.' :: .word name :: .mark '(' :: .mark ')' :: rest =>
    match applied? shape name with
    | some changed => methods changed rest
    | none => (shape, .mark '.' :: .word name :: .mark '(' :: .mark ')' :: rest)
  | rest => (shape, rest)

/-- Reads a validator that accepts one literal. -/
def literalCall : Reader (List Char) := fun toks => do
  let toks ← toks.dropPrefix? (calling "literal")
  let (text, rest) ← literal (truthWords ++ nonFinite) toks
  fixed [.mark ')'] text rest

/-- Reads a property with its validator; `validator` reads the validator. -/
def property (validator : Reader Shape) : Reader (List Char × Bool × Shape)
  | key :: .mark ':' :: rest => do
    let name ← key? key
    let (shape, rest) ← validator rest
    match rest.dropPrefix? (method "optional") with
    | some rest => return ((name, false, shape), rest)
    | none => return ((name, true, shape), rest)
  | _ => none

/-- Reads a call from after its opening parenthesis on. -/
def call (validator : Reader Shape) (n : Nat) (name : List Char) : Reader Shape := fun toks =>
  if name = "any".toList then fixed [.mark ')'] .any toks
  else if name = "string".toList then fixed [.mark ')'] .text toks
  else if name = "instanceof".toList then fixed [.word "Blob".toList, .mark ')'] .file toks
  else if name = "number".toList then fixed [.mark ')'] (.number false) toks
  else if name = "boolean".toList then fixed [.mark ')'] .boolean toks
  else if name = "literal".toList then do
    let (text, rest) ← literal (truthWords ++ nonFinite) toks
    fixed [.mark ')'] (.literals [text]) rest
  else if name = "enum".toList then do
    let toks ← toks.dropPrefix? [.mark '[']
    let (texts, rest) ← sequence ',' ']' (literal []) n toks
    fixed [.mark ')'] (.literals texts) rest
  else if name = "union".toList then do
    let toks ← toks.dropPrefix? [.mark '[']
    let (texts, rest) ← sequence ',' ']' literalCall n toks
    fixed [.mark ')'] (.literals texts) rest
  else if name = "array".toList then do
    let (items, rest) ← validator toks
    fixed [.mark ')'] (.array items) rest
  else if name = "record".toList then do
    let toks ← toks.dropPrefix? (calling "string" ++ [.mark ')', .mark ','])
    let (values, rest) ← validator toks
    fixed [.mark ')'] (.record values) rest
  else if name = "object".toList then do
    let toks ← toks.dropPrefix? [.mark '\x7b']
    let (properties, rest) ← sequence ',' '\x7d' (property validator) n toks
    fixed [.mark ')'] (.object properties) rest
  else none

/-- Reads a call from after the word of the library on; `call` reads what follows its name. -/
def libraryCall (call : List Char → Reader Shape) : Reader Shape
  | .mark '.' :: .word name :: .mark '(' :: rest => call name rest
  | _ => none

/-- The alias that a validator constant is named for. -/
def constant? (word : List Char) : Option (List Char) :=
  if "Schema".toList.isSuffixOf word then some (word.take (word.length - "Schema".length)) else none

/-- Reads a validator. -/
def validator : Nat → Reader Shape
  | 0, _ => none
  | n + 1, .word word :: rest =>
    match constant? word with
    | some name => some (methods (.reference name) rest)
    | none =>
      if word = "z".toList then
        (libraryCall (call (validator n) n) rest).map fun (shape, rest) => methods shape rest
      else none
  | _, _ => none

/-- The shape of all values that a validator accepts. -/
def readValidator (feeds : Bool) (text : List Char) : Option Shape :=
  let toks := Token.tokens feeds text
  match validator toks.length toks with
  | some (shape, []) => some shape
  | _ => none

/-! ## Types -/

/-- The words that begin an operator of types. -/
def operators : List String := ["infer", "keyof", "readonly", "unique"]

/-- A word that can be the name of a type. -/
def isTypeName (word : List Char) : Bool :=
  String.ofList word ∉ Identifier.reserved ++ Identifier.typeKeywords ++ operators

/-- The predefined types that a contract uses, but for null. -/
def predefined? (word : List Char) : Option Shape :=
  if word = "any".toList then some .any
  else if word = "string".toList then some .text
  else if word = "number".toList then some (.number false)
  else if word = "boolean".toList then some .boolean
  else none

/-- Reads brackets behind a type. -/
def brackets (shape : Shape) : List Token → Shape × List Token
  | .mark '[' :: .mark ']' :: rest => brackets (.array shape) rest
  | rest => (shape, rest)

/-- Reads the name of a type, which may stand in a namespace, from after its first word on. -/
def typeName (word : List Char) : Reader Shape := fun toks =>
  if isTypeName word then
    match toks with
    | .mark '.' :: .word name :: rest => some (.reference (word ++ '.' :: name), rest)
    | rest => some (.reference word, rest)
  else none

/-- Reads a type that begins with a word, from after the word on. -/
def named (type : Reader Shape) (word : List Char) : Reader Shape := fun toks =>
  match toks.dropPrefix? [.mark '<'] with
  | some rest =>
    if word = "Record".toList then do
      let rest ← rest.dropPrefix? [.word "string".toList, .mark ',']
      let (values, rest) ← type rest
      fixed [.mark '>'] (.record values) rest
    else none
  | none =>
    match predefined? word with
    | some shape => some (shape, toks)
    | none =>
      if String.ofList word ∈ truthWords then some (.literals [word], toks)
      else typeName word toks

/-- Reads a property with its type; `type` reads the type. -/
def typeProperty (type : Reader Shape) : Reader (List Char × Bool × Shape)
  | key :: .mark '?' :: .mark ':' :: rest => do
    let name ← key? key
    let (shape, rest) ← type rest
    return ((name, false, shape), rest)
  | key :: .mark ':' :: rest => do
    let name ← key? key
    let (shape, rest) ← type rest
    return ((name, true, shape), rest)
  | _ => none

/-- Reads a type without brackets and bars around it. -/
def primary (type : Reader Shape) (n : Nat) : Reader Shape
  | .mark '(' :: rest => do
    let (shape, rest) ← type rest
    fixed [.mark ')'] shape rest
  | .mark '\x7b' :: rest => do
    let (properties, rest) ← sequence ';' '\x7d' (typeProperty type) n rest
    return (.object properties, rest)
  | .word word :: rest => named type word rest
  | toks => (literal truthWords toks).map fun (text, rest) => (.literals [text], rest)

/-- Reads an alternative; null is one by itself. -/
def alternative (type : Reader Shape) (n : Nat) : Reader (Option Shape) := fun toks =>
  match toks.dropPrefix? [.word "null".toList] with
  | some rest => some (none, rest)
  | none => (primary type n toks).map fun (shape, rest) =>
    (some (brackets shape rest).1, (brackets shape rest).2)

/-- Reads items with bars between them. -/
def alternatives (item : Reader α) : Nat → Reader (List α)
  | 0, _ => none
  | n + 1, toks => do
    let (a, rest) ← item toks
    match rest.dropPrefix? [.mark '|'] with
    | some rest => do
      let (others, rest) ← alternatives item n rest
      return (a :: others, rest)
    | none => return ([a], rest)

/-- The literal that a shape is. -/
def oneLiteral? : Shape → Option (List Char)
  | .literals [text] => some text
  | _ => none

/-- What shapes describe together: literals are listed, and nothing else is joined. -/
def joined? : List Shape → Option Shape
  | [] => none
  | [shape] => some shape
  | shapes => (shapes.mapM oneLiteral?).map .literals

/-- What alternatives describe, of which those that are no shape are null. -/
def union? (alternatives : List (Option Shape)) : Option Shape :=
  (joined? (alternatives.filterMap id)).map (Shape.orNullIf (alternatives.any Option.isNone))

/-- Reads a type. -/
def type : Nat → Reader Shape
  | 0, _ => none
  | n + 1, toks => do
    let (parts, rest) ← alternatives (alternative (type n) n) (toks.length + 1) toks
    let shape ← union? parts
    return (shape, rest)

/-- The shape of the values of a type. -/
def readType (text : List Char) : Option Shape :=
  let toks := Token.tokens false text
  match type (toks.length + 1) toks with
  | some (shape, []) => some shape
  | _ => none

/-! ## Reading what was put together -/

theorem dropPrefix?_append (expected rest : List Token) :
    (expected ++ rest).dropPrefix? expected = some rest :=
  List.dropPrefix?_eq_some_iff.2 ⟨expected, rfl, beq_self_eq_true _⟩

@[simp] theorem fixed_append (expected : List Token) (a : α) (rest : List Token) :
    fixed expected a (expected ++ rest) = some (a, rest) := by
  rw [fixed, dropPrefix?_append]
  rfl

@[simp] theorem fixed_cons (token : Token) (a : α) (rest : List Token) :
    fixed [token] a (token :: rest) = some (a, rest) :=
  fixed_append [token] a rest

@[simp] theorem dropPrefix?_self (token : Token) (rest : List Token) :
    (token :: rest).dropPrefix? [token] = some rest :=
  dropPrefix?_append [token] rest

theorem dropPrefix?_of_ne {token other : Token} (h : token ≠ other) (more rest : List Token) :
    (token :: rest).dropPrefix? (other :: more) = none := by
  rw [← Option.not_isSome_iff_eq_none, Option.isSome_iff_exists]
  rintro ⟨after, hafter⟩
  obtain ⟨front, heq, hfront⟩ := List.dropPrefix?_eq_some_iff.1 hafter
  rw [eq_of_beq hfront, List.cons_append] at heq
  exact h (List.cons.inj heq).1

/-- A reader that refuses a token does not read from tokens that begin with it. -/
theorem dropPrefix?_of_refused {item : Reader α} {token : Token}
    (hitem : ∀ rest, item (token :: rest) = none) {toks : List Token} {result : α × List Token}
    (h : item toks = some result) : toks.dropPrefix? [token] = none := by
  cases toks with
  | nil => rfl
  | cons other rest =>
    refine dropPrefix?_of_ne ?_ [] rest
    rintro rfl
    rw [hitem] at h
    cases h

section Sequence

variable {α β : Type} {sep close : Char} {item : Reader α} {toks : β → List Token} {value : β → α}
  {items : List β}

theorem sequence_nil {n : Nat} (hn : 0 < n) (rest : List Token) :
    sequence sep close item n (.mark close :: rest) = some ([], rest) := by
  obtain ⟨n, rfl⟩ := Nat.exists_eq_succ_of_ne_zero (show n ≠ 0 by omega)
  simp [sequence]

theorem length_le_flatMap (items : List β) :
    items.length ≤ (items.flatMap fun b => toks b ++ [.mark sep]).length := by
  induction items with
  | nil => simp
  | cons b items ih =>
    simp only [List.flatMap_cons, List.length_append, List.length_cons, List.length_nil]
    omega

theorem length_le_of_mem {b : β} (hb : b ∈ items) :
    (toks b).length ≤ (items.flatMap fun b => toks b ++ [.mark sep]).length := by
  obtain ⟨before, after, rfl⟩ := List.append_of_mem hb
  simp only [List.flatMap_append, List.flatMap_cons, List.length_append]
  omega

theorem intercalate_concat (between last : List Token) (hne : items ≠ []) :
    between.intercalate (items.map toks ++ [last]) =
      between.intercalate (items.map toks) ++ between ++ last := by
  induction items with
  | nil => exact absurd rfl hne
  | cons b items ih =>
    cases items with
    | nil => simp [List.intercalate_cons_cons]
    | cons c items =>
      have hothers := ih (List.cons_ne_nil c items)
      simp only [List.map_cons, List.cons_append, List.intercalate_cons_cons,
        List.append_assoc] at hothers ⊢
      rw [hothers]

theorem length_le_of_mem_intercalate {b : β} (hb : b ∈ items) :
    (toks b).length ≤ (List.intercalate [.mark sep] (items.map toks)).length := by
  induction items with
  | nil => cases hb
  | cons c items ih =>
    cases items with
    | nil =>
      obtain rfl := List.mem_singleton.1 hb
      simp
    | cons d items =>
      simp only [List.map_cons, List.intercalate_cons_cons, List.length_append] at ih ⊢
      rcases List.mem_cons.1 hb with rfl | hb
      · omega
      · have := ih hb
        omega

theorem length_le_intercalate (items : List β) :
    items.length ≤ (List.intercalate [.mark sep] (items.map toks)).length + 1 := by
  induction items with
  | nil => simp
  | cons b items ih =>
    cases items with
    | nil => simp
    | cons c items =>
      simp only [List.map_cons, List.intercalate_cons_cons, List.length_append,
        List.length_cons, List.length_nil] at ih ⊢
      omega

/-- Items with a separator after each of them. -/
theorem sequence_terminated (hclose : ∀ rest, item (.mark close :: rest) = none)
    (h : ∀ b ∈ items, ∀ rest,
      item (toks b ++ .mark sep :: rest) = some (value b, .mark sep :: rest))
    {n : Nat} (hn : items.length < n) (rest : List Token) :
    sequence sep close item n
        (items.flatMap (fun b => toks b ++ [.mark sep]) ++ .mark close :: rest) =
      some (items.map value, rest) := by
  induction items generalizing n with
  | nil => exact sequence_nil hn rest
  | cons b items ih =>
    obtain ⟨n, rfl⟩ := Nat.exists_eq_succ_of_ne_zero (show n ≠ 0 by omega)
    obtain ⟨hb, hitems⟩ := List.forall_mem_cons.1 h
    have hread := hb (items.flatMap (fun b => toks b ++ [.mark sep]) ++ .mark close :: rest)
    have hothers := ih hitems (show items.length < n by simpa using hn)
    simp [sequence, dropPrefix?_of_refused hclose hread, hread, hothers]

/-- Items with a separator after each of them, where the number of tokens bounds how deep an item
is read. -/
theorem sequence_entries {item : Nat → Reader α}
    (hclose : ∀ n rest, item n (.mark close :: rest) = none)
    (h : ∀ b ∈ items, ∀ n, (toks b).length ≤ n → ∀ rest,
      item n (toks b ++ .mark sep :: rest) = some (value b, .mark sep :: rest)) {n : Nat}
    (hn : (items.flatMap fun b => toks b ++ [.mark sep]).length < n) (rest : List Token) :
    sequence sep close (item n) n
        (items.flatMap (fun b => toks b ++ [.mark sep]) ++ .mark close :: rest) =
      some (items.map value, rest) := by
  have hcount : items.length ≤ (items.flatMap fun b => toks b ++ [.mark sep]).length :=
    length_le_flatMap items
  refine sequence_terminated (hclose n) (fun b hb => h b hb n ?_) (by omega) rest
  have hlength : (toks b).length ≤ (items.flatMap fun b => toks b ++ [.mark sep]).length :=
    length_le_of_mem hb
  omega

/-- Items with a separator between each two of them. -/
theorem sequence_joined (hne : close ≠ sep) (hclose : ∀ rest, item (.mark close :: rest) = none)
    (h : ∀ b ∈ items, ∀ rest, item (toks b ++ rest) = some (value b, rest)) {n : Nat}
    (hn : items.length < n) (rest : List Token) :
    sequence sep close item n
        (List.intercalate [.mark sep] (items.map toks) ++ .mark close :: rest) =
      some (items.map value, rest) := by
  induction items generalizing n with
  | nil => exact sequence_nil hn rest
  | cons b items ih =>
    obtain ⟨n, rfl⟩ := Nat.exists_eq_succ_of_ne_zero (show n ≠ 0 by omega)
    obtain ⟨hb, hitems⟩ := List.forall_mem_cons.1 h
    cases items with
    | nil =>
      have hread := hb (.mark close :: rest)
      have hend : (Token.mark close :: rest).dropPrefix? [.mark sep] = none :=
        dropPrefix?_of_ne (by simpa using hne) [] rest
      simp [sequence, dropPrefix?_of_refused hclose hread, hread, hend]
    | cons c items =>
      have hothers := ih hitems (show (c :: items).length < n by simpa using hn)
      have hread := hb (.mark sep ::
        (List.intercalate [.mark sep] ((c :: items).map toks) ++ .mark close :: rest))
      simp only [List.map_cons, List.intercalate_cons_cons, List.append_assoc,
        List.singleton_append] at hread hothers ⊢
      simp [sequence, dropPrefix?_of_refused hclose hread, hread, hothers]

end Sequence

/-! ## Literals -/

/-- A literal is cut into tokens that are read as it, by `words` that hold it if it is a word. -/
def ReadsLiteral (feeds : Bool) (text : List Char) : Prop :=
  ∃ toks, Token.Lexes feeds (Token.continues feeds) text toks ∧
    ∀ words, (String.ofList text ∈ truthWords ++ nonFinite → String.ofList text ∈ words) →
      ∀ rest, literal words (toks ++ rest) = some (text, rest)

namespace ReadsLiteral

variable {feeds : Bool}

theorem string (text : List Char) : ReadsLiteral feeds (Json.encode text) := by
  refine ⟨_, Token.lexes_encode text, fun words _ rest => ?_⟩
  simp [literal, Json.decode?_encode]

theorem word {text : List Char} (h : Token.IsWord feeds text)
    (hword : String.ofList text ∈ truthWords ++ nonFinite) : ReadsLiteral feeds text := by
  refine ⟨_, .word h, fun words hwords rest => ?_⟩
  simp [literal, hwords hword]

theorem minusWord {text : List Char} (h : Token.IsWord feeds text)
    (hword : String.ofList ('-' :: text) ∈ truthWords ++ nonFinite) :
    ReadsLiteral feeds ('-' :: text) := by
  refine ⟨_, (Token.Lexes.word h).minus, fun words hwords rest => ?_⟩
  exact if_pos (hwords hword)

theorem numeral {text : List Char} (h : Decimal.IsNumeral text) : ReadsLiteral feeds text := by
  refine ⟨_, .numeral h, fun words _ rest => ?_⟩
  simp [literal, h.isNumeral]

theorem minusNumeral {text : List Char} (h : Decimal.IsNumeral text) :
    ReadsLiteral feeds ('-' :: text) := by
  refine ⟨_, (Token.Lexes.numeral h).minus, fun words _ rest => ?_⟩
  simp [literal, h.isNumeral]

theorem int (n : Int) : ReadsLiteral feeds (toString n).toList := by
  rw [Int.toString_eq_repr]
  cases n with
  | ofNat n =>
    rw [Int.repr, Nat.toList_repr]
    exact numeral (Decimal.isNumeral_toDigits n)
  | negSucc n =>
    rw [Int.repr, String.toList_append, Nat.toList_repr]
    exact minusNumeral (Decimal.isNumeral_toDigits _)

theorem float (x : Double) : ReadsLiteral feeds (Decimal.literal.write x) := by
  cases x with
  | notANumber => exact word (.of_isName rfl) (by decide)
  | infinite negative =>
    cases negative with
    | false => exact word (.of_isName rfl) (by decide)
    | true =>
      have hname : Token.IsWord feeds "Infinity".toList := .of_isName rfl
      exact minusWord hname (by decide)
  | finite negative mantissa exponent =>
    cases negative with
    | false => exact numeral (Decimal.isNumeral_write _ mantissa exponent)
    | true => exact minusNumeral (Decimal.isNumeral_write _ mantissa exponent)

/-- The literal of a value is read as it is written. -/
theorem of_literal? {value : Value} {text : List Char} (h : Json.literal? value = some text) :
    ReadsLiteral feeds text := by
  unfold Json.literal? at h
  split at h
  · cases h
    exact string _
  · cases h
    exact int _
  · cases h
    exact float _
  · cases h
    split
    · exact word (.of_isName rfl) (by decide)
    · exact word (.of_isName rfl) (by decide)
  · cases h

end ReadsLiteral

theorem literal_mark {c : Char} (h : c ≠ '-') (words : List String) (rest : List Token) :
    literal words (.mark c :: rest) = none := by
  cases rest with
  | nil => simp [literal]
  | cons token rest => cases token <;> simp [literal, h]

/-- No word that is a literal begins with a quotation mark. -/
theorem not_mem_of_head? {text : List Char} (h : text.head? = some '"') :
    String.ofList text ∉ truthWords ++ nonFinite := by
  have hall : ∀ word ∈ truthWords ++ nonFinite, word.toList.head? ≠ some '"' := by decide
  intro hmem
  have := hall _ hmem
  rw [String.toList_ofList] at this
  exact this h

/-! ## Keys -/

theorem reads_key {feeds : Bool} {name : List Char} (h : feeds = true ∨ '\n' ∉ name) :
    ∃ key, Token.Lexes feeds (Token.inWord feeds) (Identifier.propertyKey name) [key] ∧
      key? key = some name := by
  unfold Identifier.propertyKey
  split
  · next haccepted =>
    exact ⟨_, Token.lexes_word (.of_isAccepted haccepted h), rfl⟩
  · exact ⟨_, Token.lexes_encode name, Json.decode?_encode name⟩

end Grammar

end ApiContract
