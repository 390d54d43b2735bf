import ApiContract.Contract
import ApiContract.Proofs.Identifier
import ApiContract.Proofs.Json.Literal

/-!
# Names read off a program

Which validators and types a generated text uses is a property of the text. It is read as a
program is: string literals are set aside, what remains is cut into words, and some of the words are
names. A validator constant is a word that ends in `Schema`; the key of a property takes its colon
along and so is none. A type of the schemas module is a word after `Schemas.`.

A line feed stands inside words: a text that is kept as a name may end in one, and the constant of
such a name goes on after it.

`Gives` says which names a text gives, in a form that texts around it do not change: texts with a
separator between them give their names one after the other (`Gives.append_cons`).

Main facts: `Gives.of_quiet` (a text in which no name can stand), `Gives.of_word` and
`Gives.of_literal` (a word and the literal of a value).
-/

namespace ApiContract

/-- A text without its string literals, each of which leaves a blank; `inside` says whether the
text begins inside one. -/
def unquoted : (inside : Bool) → List Char → List Char
  | _, [] => []
  | true, ['\\'] => []
  | true, '\\' :: _ :: rest => unquoted true rest
  | true, c :: rest => unquoted (c != '"') rest
  | false, c :: rest => if c = '"' then ' ' :: unquoted true rest else c :: unquoted false rest

/-- What is read off a text: a word consists of characters of names and of `mark`, and may be or
hold a name, but only if there is an S in it. -/
structure Reading where
  mark : Char
  name? : List Char → Option (List Char)
  mark_ne : mark ≠ ' ' ∧ mark ≠ '"'
  silent : ∀ word, 'S' ∉ word → name? word = none

namespace Reading

/-- The validator constants. -/
def constants : Reading where
  mark := ':'
  name? word := if "Schema".toList.isSuffixOf word then some word else none
  mark_ne := by decide
  silent word h := by
    rw [if_neg]
    intro hs
    exact h ((List.isSuffixOf_iff_suffix.1 hs).subset (by decide))

/-- The types of the schemas module. -/
def aliases : Reading where
  mark := '.'
  name? word := word.dropPrefix? Contract.schemasSpace
  mark_ne := by decide
  silent word h := by
    rw [← Option.not_isSome_iff_eq_none, Option.isSome_iff_exists]
    rintro ⟨rest, hrest⟩
    obtain ⟨front, rfl, hfront⟩ := List.dropPrefix?_eq_some_iff.1 hrest
    rw [eq_of_beq hfront] at h
    exact h (List.mem_append_left _ (by decide))

/-- A character that stands inside a word. -/
def inWord (r : Reading) (c : Char) : Bool :=
  Identifier.isGiven c || c == r.mark

/-- A character that neither stands inside a word nor opens a string literal. -/
def separates (r : Reading) (c : Char) : Bool :=
  !r.inWord c && c != '"'

/-- A character other than those that every string literal and every name have in them. -/
def isQuiet (c : Char) : Bool :=
  c != '"' && c != 'S'

/-- The names in a text. -/
def names (r : Reading) (text : List Char) : List (List Char) :=
  (Text.pieces (fun c => !r.inWord c) (unquoted false text)).filterMap r.name?

example : constants.names "z.array(PetSchema.nullable())".toList = ["PetSchema".toList] := by
  decide +kernel
example :
    constants.names "z.object(\x7b\n  PetSchema: z.literal(\"\\\"OwnerSchema\"),\n\x7d)".toList =
      [] := by decide +kernel
example : aliases.names "Record<string, (Schemas.Pet | \"Schemas.Owner\")[]>".toList =
    ["Pet".toList] := by decide +kernel

theorem constants_name? {word : List Char} (h : "Schema".toList <:+ word) :
    constants.name? word = some word := by
  show (if "Schema".toList.isSuffixOf word then some word else none) = some word
  rw [if_pos (List.isSuffixOf_iff_suffix.2 h)]

theorem aliases_name? (word : List Char) :
    aliases.name? (Contract.schemasSpace ++ word) = some word := by
  rw [aliases, List.dropPrefix?_eq_some_iff]
  exact ⟨Contract.schemasSpace, rfl, beq_self_eq_true _⟩

theorem inWord_of_isGiven {r : Reading} {c : Char} (h : Identifier.isGiven c) : r.inWord c := by
  rw [inWord, h, Bool.true_or]

/-- `text` gives `names`, and leaves no string literal open in which a text after it would stand. -/
structure Gives (r : Reading) (text : List Char) (names : List (List Char)) : Prop where
  closed : ∀ rest, unquoted false (text ++ rest) = unquoted false text ++ unquoted false rest
  eq : r.names text = names

/-! ## String literals -/

/-- Outside of string literals, a text without quotation marks stays as it is. -/
theorem unquoted_append {text : List Char} (h : '"' ∉ text) (rest : List Char) :
    unquoted false (text ++ rest) = text ++ unquoted false rest := by
  induction text with
  | nil => rfl
  | cons c cs ih =>
    obtain ⟨hc, hcs⟩ := not_or.1 (mt List.mem_cons.2 h)
    rw [List.cons_append, unquoted, if_neg (Ne.symm hc), ih hcs, List.cons_append]

theorem unquoted_of_not_mem {text : List Char} (h : '"' ∉ text) : unquoted false text = text := by
  have := unquoted_append h []
  rwa [List.append_nil, unquoted, List.append_nil] at this

/-- Inside a string literal, the closing quote is the first one that is not escaped. -/
theorem unquoted_append_of_escaped {text : List Char} (h : Json.Escaped text) (rest : List Char) :
    unquoted true (text ++ '"' :: rest) = unquoted false rest := by
  induction h with
  | nil => rfl
  | @plain c text hquote hback _ ih =>
    rw [List.cons_append, ← ih, unquoted, bne_iff_ne.2 hquote]
    · rintro rfl; exact absurd rfl hback
    · rintro d ds rfl; exact absurd rfl hback
  | escape c _ ih => exact ih

/-- A string literal leaves a blank. -/
theorem unquoted_encode (text rest : List Char) :
    unquoted false (Json.encode text ++ rest) = ' ' :: unquoted false rest := by
  have inner := unquoted_append_of_escaped (Json.escaped_flatMap text) rest
  simp only [Json.encode, List.cons_append, List.append_assoc, unquoted, if_true]
  exact congrArg _ inner

/-! ## Texts that give names -/

theorem inWord_blank (r : Reading) : r.inWord ' ' = false := by
  rw [inWord, beq_eq_false_iff_ne.2 r.mark_ne.1.symm]
  rfl

theorem inWord_quote (r : Reading) : r.inWord '"' = false := by
  rw [inWord, beq_eq_false_iff_ne.2 r.mark_ne.2.symm]
  rfl

theorem separates_blank (r : Reading) : r.separates ' ' := by
  rw [separates, r.inWord_blank]
  rfl

namespace Gives

variable {r : Reading} {text before after : List Char} {names others : List (List Char)}

theorem of_unquoted (h : '"' ∉ text)
    (hn : (Text.pieces (fun c => !r.inWord c) text).filterMap r.name? = names) :
    r.Gives text names where
  closed rest := by rw [unquoted_append h, unquoted_of_not_mem h]
  eq := by rw [Reading.names, unquoted_of_not_mem h, hn]

/-- Where no quotation mark and no S stands there is no name. -/
theorem of_quiet (hall : text.all isQuiet) : r.Gives text [] := by
  have h := List.all_eq_true.1 hall
  refine of_unquoted (fun hc => absurd (h _ hc) (by decide)) ?_
  rw [List.filterMap_eq_nil_iff]
  intro word hword
  refine r.silent word fun hs => ?_
  exact absurd (h _ (Text.mem_of_mem_pieces hword _ hs)) (by decide)

theorem nil : r.Gives [] [] :=
  of_quiet rfl

/-- One word gives the name that it is or holds. -/
theorem of_word (h : ∀ c ∈ text, r.inWord c) : r.Gives text (r.name? text).toList := by
  have hquote : '"' ∉ text := by
    intro hc
    exact Bool.false_ne_true (r.inWord_quote.symm.trans (h _ hc))
  refine of_unquoted hquote ?_
  rw [Text.pieces_of_forall fun c hc => by simp [h c hc]]
  cases hn : r.name? text <;> simp [hn]

theorem of_name {name : List Char} (h : ∀ c ∈ text, r.inWord c) (hn : r.name? text = some name) :
    r.Gives text [name] := by
  have := of_word h
  rwa [hn] at this

theorem of_other (h : ∀ c ∈ text, r.inWord c) (hn : r.name? text = none) : r.Gives text [] := by
  have := of_word h
  rwa [hn] at this

/-- A string literal gives no name and changes nothing in what follows it. -/
theorem literal_append (written : List Char) (h : r.Gives after names) :
    r.Gives (Json.encode written ++ after) names where
  closed rest := by
    rw [List.append_assoc, unquoted_encode, unquoted_encode, h.closed, List.cons_append]
  eq := by
    have hsilent : r.name? [] = none := r.silent [] List.not_mem_nil
    rw [Reading.names, unquoted_encode, Text.pieces]
    have heq := h.eq
    rw [Reading.names] at heq
    simpa [r.inWord_blank, hsilent] using heq

theorem literal (written : List Char) : r.Gives (Json.encode written) [] := by
  have := literal_append written (@nil r)
  rwa [List.append_nil] at this

/-- Texts with a separator between them give their names one after the other. -/
theorem append_cons {sep : Char} (hsep : r.separates sep) (hbefore : r.Gives before names)
    (hafter : r.Gives after others) : r.Gives (before ++ sep :: after) (names ++ others) := by
  rw [separates, Bool.and_eq_true, bne_iff_ne] at hsep
  obtain ⟨hword, hquote⟩ := hsep
  constructor
  · intro rest
    rw [List.append_assoc, hbefore.closed, hbefore.closed, List.cons_append, unquoted, unquoted,
      if_neg hquote, if_neg hquote, hafter.closed, List.append_assoc, List.cons_append]
  · rw [Reading.names, hbefore.closed, unquoted, if_neg hquote, Text.pieces_append_cons hword,
      List.filterMap_append]
    exact congrArg₂ _ hbefore.eq hafter.eq

/-- Text without names and a separator before a text. -/
theorem quiet_append (head : List Char) (sep : Char) (hhead : head.all isQuiet)
    (hsep : r.separates sep) (hafter : r.Gives after names) :
    r.Gives (head ++ sep :: after) names :=
  append_cons hsep (of_quiet hhead) hafter

/-- A separator and text without names after a text. -/
theorem append_quiet (sep : Char) (tail : List Char) (hsep : r.separates sep)
    (htail : tail.all isQuiet) (hbefore : r.Gives before names) :
    r.Gives (before ++ sep :: tail) names := by
  have := append_cons hsep hbefore (of_quiet htail)
  rwa [List.append_nil] at this

theorem cons {sep : Char} (hsep : r.separates sep) (hafter : r.Gives after names) :
    r.Gives (sep :: after) names :=
  quiet_append [] sep rfl hsep hafter

theorem concat {sep : Char} (hsep : r.separates sep) (hbefore : r.Gives before names) :
    r.Gives (before ++ [sep]) names :=
  append_quiet sep [] hsep rfl hbefore

theorem separators {seps : List Char} (hseps : seps.all r.separates)
    (hafter : r.Gives after names) : r.Gives (seps ++ after) names := by
  induction seps with
  | nil => exact hafter
  | cons c cs ih =>
    rw [List.all_cons, Bool.and_eq_true] at hseps
    exact cons hseps.1 (ih hseps.2)

/-- Texts without names, with separators between them. -/
theorem join {seps : List Char} (hseps : seps.all r.separates) (hne : seps ≠ [])
    {texts : List (List Char)} (h : ∀ text ∈ texts, r.Gives text []) :
    r.Gives (Text.join seps texts) [] := by
  obtain ⟨sep, rest, rfl⟩ := List.exists_cons_of_ne_nil hne
  rw [List.all_cons, Bool.and_eq_true] at hseps
  obtain ⟨hsep, hrest⟩ := hseps
  induction texts with
  | nil => exact nil
  | cons first others ih =>
    obtain ⟨hfirst, hothers⟩ := List.forall_mem_cons.1 h
    cases others with
    | nil => exact hfirst
    | cons second others =>
      have := append_cons hsep hfirst (separators hrest (ih hothers))
      simpa [Text.join] using this

/-- Lines that begin with a blank and end in a separator, a line feed before each, and the text
after them. The line feeds are taken apart from the lines by the blank, not by themselves: a name
may end in one. -/
theorem lines {α : Type} {stop : Char} (hstop : r.separates stop) {body : α → List Char}
    {given : α → List (List Char)} {items : List α} (hne : items ≠ [])
    (h : ∀ a ∈ items, r.Gives (body a) (given a)) (hafter : r.Gives after others) :
    r.Gives ('\n' :: Text.join ['\n'] (items.map fun a => ' ' :: body a ++ [stop]) ++ after)
      (items.flatMap given ++ others) := by
  have feed : r.Gives ['\n'] [] := of_quiet rfl
  induction items with
  | nil => exact absurd rfl hne
  | cons first items ih =>
    obtain ⟨hfirst, hitems⟩ := List.forall_mem_cons.1 h
    cases items with
    | nil =>
      have := append_cons r.separates_blank feed (append_cons hstop hfirst hafter)
      simpa [Text.join] using this
    | cons second items =>
      have := append_cons r.separates_blank feed
        (append_cons hstop hfirst (ih (List.cons_ne_nil _ _) hitems))
      simpa [Text.join] using this

end Gives

/-! ## Scalars as literals -/

theorem isQuiet_of_isDigit {c : Char} (h : c.isDigit) : isQuiet c := by
  rw [isQuiet, Bool.and_eq_true, bne_iff_ne, bne_iff_ne]
  constructor
  · rintro rfl
    exact absurd h (by decide)
  · rintro rfl
    exact absurd h (by decide)

theorem isQuiet_of_mem_toDigits {n : Nat} : ∀ c ∈ Nat.toDigits 10 n, isQuiet c :=
  fun _ hc => isQuiet_of_isDigit (Nat.isDigit_of_mem_toDigits (by decide) (by decide) hc)

theorem isQuiet_of_mem_int (n : Int) : ∀ c ∈ (toString n).toList, isQuiet c := by
  rw [Int.toString_eq_repr]
  cases n with
  | ofNat n =>
    rw [Int.repr, Nat.toList_repr]
    exact isQuiet_of_mem_toDigits
  | negSucc n =>
    rw [Int.repr, String.toList_append, Nat.toList_repr]
    exact List.forall_mem_append.2 ⟨List.all_eq_true.1 rfl, isQuiet_of_mem_toDigits⟩

theorem isQuiet_of_mem_replicate {c : Char} (h : isQuiet c) (n : Nat) :
    ∀ d ∈ List.replicate n c, isQuiet d := by
  intro d hd
  rw [List.eq_of_mem_replicate hd]
  exact h

theorem isQuiet_of_mem_positional {digits : List Char} (h : ∀ c ∈ digits, isQuiet c)
    (place : Int) : ∀ c ∈ Decimal.positional digits place, isQuiet c := by
  have htake (n : Nat) : ∀ c ∈ digits.take n, isQuiet c := fun c hc => h c (List.mem_of_mem_take hc)
  have hdrop (n : Nat) : ∀ c ∈ digits.drop n, isQuiet c := fun c hc => h c (List.mem_of_mem_drop hc)
  unfold Decimal.positional
  split
  · simp only [List.forall_mem_append]
    exact ⟨⟨List.all_eq_true.1 rfl, isQuiet_of_mem_replicate rfl _⟩, h⟩
  · simp only [List.forall_mem_append]
    refine ⟨⟨⟨htake _, isQuiet_of_mem_replicate rfl _⟩, List.all_eq_true.1 rfl⟩, ?_⟩
    split
    · exact List.all_eq_true.1 rfl
    · exact hdrop _

theorem isQuiet_of_mem_exponential {digits : List Char} (h : ∀ c ∈ digits, isQuiet c)
    (place : Int) : ∀ c ∈ Decimal.exponential digits place, isQuiet c := by
  have htake (n : Nat) : ∀ c ∈ digits.take n, isQuiet c := fun c hc => h c (List.mem_of_mem_take hc)
  have hdrop (n : Nat) : ∀ c ∈ digits.drop n, isQuiet c := fun c hc => h c (List.mem_of_mem_drop hc)
  unfold Decimal.exponential
  simp only [List.forall_mem_append]
  refine ⟨⟨⟨⟨htake 1, ?_⟩, ?_⟩, isQuiet_of_mem_replicate rfl _⟩, isQuiet_of_mem_toDigits⟩
  · split
    · exact List.forall_mem_nil _
    · exact List.forall_mem_cons.2 ⟨rfl, hdrop 1⟩
  · split
    · exact List.all_eq_true.1 rfl
    · exact List.all_eq_true.1 rfl

theorem isQuiet_of_mem_write (x : Double) : ∀ c ∈ Decimal.literal.write x, isQuiet c := by
  cases x with
  | notANumber => exact List.all_eq_true.1 rfl
  | infinite negative => cases negative <;> exact List.all_eq_true.1 rfl
  | finite negative mantissa exponent =>
    rw [Decimal.Layout.write]
    have digits (n : Nat) (place : Int) (p : Prop) [Decidable p] :
        ∀ c ∈ if p then Decimal.positional (Nat.toDigits 10 n) place
          else Decimal.exponential (Nat.toDigits 10 n) place, isQuiet c := by
      split
      · exact isQuiet_of_mem_positional isQuiet_of_mem_toDigits place
      · exact isQuiet_of_mem_exponential isQuiet_of_mem_toDigits place
    have sign : ∀ c ∈ if negative then ['-'] else [], isQuiet c := by
      cases negative <;> exact List.all_eq_true.1 rfl
    exact List.forall_mem_append.2 ⟨sign, digits _ _ _⟩

/-- No name is given by a literal: that of a text is set aside, and the others hold none. -/
theorem Gives.of_literal {r : Reading} {value : Value} {literal : List Char}
    (h : Json.literal? value = some literal) : r.Gives literal [] := by
  unfold Json.literal? at h
  split at h
  · cases h; exact Gives.literal _
  · cases h; exact Gives.of_quiet (List.all_eq_true.2 (isQuiet_of_mem_int _))
  · cases h; exact Gives.of_quiet (List.all_eq_true.2 (isQuiet_of_mem_write _))
  · cases h
    split
    · exact Gives.of_quiet (by decide)
    · exact Gives.of_quiet (by decide)
  · cases h

end Reading

end ApiContract
