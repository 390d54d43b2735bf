import ApiContract.Contract
import ApiContract.Proofs.Decimal.Numeral
import ApiContract.Proofs.Identifier.Legal
import ApiContract.Proofs.Json.Literal

/-!
# The tokens of a program

A text of a program is cut into words, numerals, string literals and single marks; blanks between
them are passed over. Whether a line feed belongs to a word is left open (`feeds`): in a program it
does not, but a name that is kept as it stands may end in one, and then the tokens that take it
along tell more names apart.

`Lexes inside text toks` says that `text` is cut into `toks` in front of any text that does not go
on with a character of the class `inside`. Such texts are put one after the other.

Main facts: `Lexes.append`, `lexes_word`, `lexes_numeral` and `lexes_encode`.
-/

namespace ApiContract

/-- A token, with its text. -/
inductive Token
  | word (text : List Char)
  | numeral (text : List Char)
  | string (text : List Char)
  | mark (c : Char)
  deriving DecidableEq, Repr

namespace Token

/-- A character that may stand between tokens. -/
def isBlank (c : Char) : Bool :=
  c == ' ' || c == '\n'

/-- A character that may stand inside a word. -/
def inWord (feeds : Bool) (c : Char) : Bool :=
  Identifier.isPart c || (c == '\n' && feeds)

/-- A character that may belong to the word or the numeral before it. -/
def continues (feeds : Bool) (c : Char) : Bool :=
  inWord feeds c || Decimal.inNumeral c

/-- What remains of a string literal after its opening quote, up to the closing one. -/
def quoted : List Char → List Char
  | [] => []
  | ['\\'] => ['\\']
  | '\\' :: c :: rest => '\\' :: c :: quoted rest
  | c :: rest => if c = '"' then ['"'] else c :: quoted rest

/-- The token that begins with a character, and how many of the next characters belong to it. -/
def first (feeds : Bool) (c : Char) (rest : List Char) : Option Token × Nat :=
  if isBlank c then (none, 0)
  else if Identifier.isStart c then
    let more := rest.takeWhile (inWord feeds)
    (some (.word (c :: more)), more.length)
  else if c.isDigit then
    let more := rest.takeWhile Decimal.inNumeral
    (some (.numeral (c :: more)), more.length)
  else if c = '"' then
    let more := quoted rest
    (some (.string (c :: more)), more.length)
  else (some (.mark c), 0)

/-- The tokens of a text of which the next `skip` characters belong to a token already cut. -/
def tokensFrom (feeds : Bool) : Nat → List Char → List Token
  | _, [] => []
  | skip + 1, _ :: rest => tokensFrom feeds skip rest
  | 0, c :: rest =>
    let (token, length) := first feeds c rest
    token.toList ++ tokensFrom feeds length rest

/-- The tokens of a text. -/
def tokens (feeds : Bool) (text : List Char) : List Token :=
  tokensFrom feeds 0 text

example : tokens false "(a_1 | \"\\\"b c\")[]".toList =
    [.mark '(', .word "a_1".toList, .mark '|', .string "\"\\\"b c\"".toList, .mark ')', .mark '[',
      .mark ']'] := by decide
example : tokens false "z.literal(-1.5e-05)".toList =
    [.word "z".toList, .mark '.', .word "literal".toList, .mark '(', .mark '-',
      .numeral "1.5e-05".toList, .mark ')'] := by decide

/-- `text` is cut into `toks` where it does not go on with a character of the class `inside`. -/
def Lexes (feeds : Bool) (inside : Char → Bool) (text : List Char) (toks : List Token) : Prop :=
  ∀ rest : List Char, (∀ c ∈ rest.head?, inside c = false) →
    tokens feeds (text ++ rest) = toks ++ tokens feeds rest

variable {feeds : Bool} {inside : Char → Bool}

theorem tokensFrom_length (text rest : List Char) :
    tokensFrom feeds text.length (text ++ rest) = tokens feeds rest := by
  induction text with
  | nil => rfl
  | cons c cs ih => exact ih

theorem tokens_cons (c : Char) (text : List Char) :
    tokens feeds (c :: text) =
      (first feeds c text).1.toList ++ tokensFrom feeds (first feeds c text).2 text :=
  rfl

/-- A token that begins with `c` and goes on with `more`. -/
theorem tokens_of_first {c : Char} {more rest : List Char} {token : Token}
    (h : first feeds c (more ++ rest) = (some token, more.length)) :
    tokens feeds (c :: more ++ rest) = token :: tokens feeds rest := by
  rw [List.cons_append, tokens_cons, h]
  exact congrArg _ (tokensFrom_length more rest)

theorem takeWhile_append_of_head? {p : Char → Bool} {text rest : List Char}
    (h : ∀ c ∈ text, p c) (hrest : ∀ c ∈ rest.head?, p c = false) :
    (text ++ rest).takeWhile p = text := by
  rw [List.takeWhile_append_of_pos h]
  cases rest with
  | nil => simp
  | cons c cs => simp [hrest c rfl]

/-! ## Words -/

/-- A text that is one word. -/
def IsWord (feeds : Bool) (text : List Char) : Prop :=
  ∃ c cs, text = c :: cs ∧ Identifier.isStart c ∧ ∀ d ∈ cs, inWord feeds d

theorem inWord_of_isPart {c : Char} (h : Identifier.isPart c) : inWord feeds c := by
  simp [inWord, h]

theorem IsWord.of_isName {text : List Char} (h : Identifier.isName text) : IsWord feeds text := by
  obtain ⟨c, cs, rfl, hc, hcs⟩ := Identifier.isName_iff.1 h
  exact ⟨c, cs, rfl, hc, fun d hd => inWord_of_isPart (hcs d hd)⟩

theorem IsWord.append {text more : List Char} (h : IsWord feeds text)
    (hmore : ∀ c ∈ more, inWord feeds c) : IsWord feeds (text ++ more) := by
  obtain ⟨c, cs, rfl, hc, hcs⟩ := h
  exact ⟨c, cs ++ more, rfl, hc, List.forall_mem_append.2 ⟨hcs, hmore⟩⟩

/-- A name that may have a line feed at its end is one word where line feeds belong to words. -/
theorem IsWord.of_isAccepted {text : List Char} (h : Identifier.isAccepted text)
    (hfeed : feeds = true ∨ '\n' ∉ text) : IsWord feeds text := by
  rcases Identifier.isAccepted_iff.1 h with hname | hline
  · exact of_isName hname
  · obtain rfl := hfeed.resolve_right (not_not_intro hline.mem)
    obtain ⟨name, hname, rfl⟩ := hline
    exact (of_isName hname).append (by simp [inWord])

theorem IsWord.avoiding {name : List Char} (words : List String) (h : IsWord feeds name) :
    IsWord feeds (Identifier.avoiding words ['_'] name) := by
  unfold Identifier.avoiding
  split
  · exact h.append (List.forall_mem_singleton.2 (inWord_of_isPart rfl))
  · exact h

theorem isWord_typeAlias {text : List Char} (hfeed : feeds = true ∨ '\n' ∉ text) :
    IsWord feeds (Identifier.typeAlias text) := by
  refine IsWord.avoiding _ (IsWord.avoiding _ ?_)
  split
  · next h => exact .of_isAccepted h hfeed
  · exact .of_isName (Identifier.isName_joined text)

/-! ## Single tokens -/

theorem not_isBlank_of_isPart {c : Char} (h : Identifier.isPart c) : isBlank c = false := by
  cases hb : isBlank c with
  | false => rfl
  | true =>
    simp only [isBlank, Bool.or_eq_true, beq_iff_eq] at hb
    rcases hb with rfl | rfl
    · exact absurd h (by decide)
    · exact absurd h (by decide)

theorem lexes_word {text : List Char} (h : IsWord feeds text) :
    Lexes feeds (inWord feeds) text [.word text] := by
  intro rest hrest
  obtain ⟨c, cs, rfl, hc, hcs⟩ := h
  have hblank := not_isBlank_of_isPart (Identifier.isPart_of_isStart hc)
  have htake := takeWhile_append_of_head? hcs hrest
  exact tokens_of_first (by simp [first, hblank, hc, htake])

theorem not_isStart_of_isDigit {c : Char} (h : c.isDigit) : Identifier.isStart c = false :=
  Identifier.of_forall_ascii (P := fun c => c.isDigit → Identifier.isStart c = false) (by decide)
    (by simp [Char.isAlphanum, h]) h

theorem lexes_numeral {text : List Char} (h : Decimal.IsNumeral text) :
    Lexes feeds Decimal.inNumeral text [.numeral text] := by
  intro rest hrest
  obtain ⟨c, cs, rfl, hc⟩ := h.exists_cons
  have hpart : Identifier.isPart c := by simp [Identifier.isPart, Char.isAlphanum, hc]
  have hblank := not_isBlank_of_isPart hpart
  have hstart := not_isStart_of_isDigit hc
  have htake := takeWhile_append_of_head? (List.forall_mem_cons.1 h.inNumeral).2 hrest
  exact tokens_of_first (by simp [first, hblank, hstart, hc, htake])

/-- Inside a string literal, the closing quote is the first one that is not escaped. -/
theorem quoted_append_of_escaped {text : List Char} (h : Json.Escaped text) (rest : List Char) :
    quoted (text ++ '"' :: rest) = text ++ ['"'] := by
  induction h with
  | nil => rfl
  | @plain c text hquote hback _ ih => simp [quoted, hquote, hback, ih]
  | escape c _ ih => simp [quoted, ih]

theorem lexes_encode (text : List Char) :
    Lexes feeds inside (Json.encode text) [.string (Json.encode text)] := by
  intro rest _
  have hquoted : quoted (text.flatMap Json.encodeChar ++ ['"'] ++ rest) =
      text.flatMap Json.encodeChar ++ ['"'] := by
    rw [List.append_assoc]
    exact quoted_append_of_escaped (Json.escaped_flatMap text) rest
  have hfirst : first feeds '"' (text.flatMap Json.encodeChar ++ ['"'] ++ rest) =
      (some (.string ('"' :: quoted (text.flatMap Json.encodeChar ++ ['"'] ++ rest))),
        (quoted (text.flatMap Json.encodeChar ++ ['"'] ++ rest)).length) := rfl
  rw [hquoted] at hfirst
  exact tokens_of_first hfirst

/-! ## Texts one after the other -/

namespace Lexes

variable {inside' : Char → Bool} {text before after : List Char} {toks ahead behind : List Token}

/-- A text that is cut in the same way whatever follows it. -/
theorem of_closed (h : ∀ rest, tokens feeds (text ++ rest) = toks ++ tokens feeds rest) :
    Lexes feeds inside text toks :=
  fun rest _ => h rest

theorem nil : Lexes feeds inside [] [] :=
  of_closed fun _ => rfl

theorem tokens_eq (h : Lexes feeds inside text toks) : tokens feeds text = toks := by
  have hnil : tokens feeds [] = [] := rfl
  have := h [] (by simp)
  rwa [List.append_nil, hnil, List.append_nil] at this

theorem mono (h : Lexes feeds inside text toks) (himp : ∀ c, inside c → inside' c) :
    Lexes feeds inside' text toks := by
  intro rest hrest
  refine h rest fun c hc => ?_
  cases hin : inside c with
  | false => rfl
  | true => exact (himp c hin).symm.trans (hrest c hc)

theorem word {feeds : Bool} {text : List Char} (h : IsWord feeds text) :
    Lexes feeds (continues feeds) text [.word text] :=
  (lexes_word h).mono fun _ hc => by simp [continues, hc]

theorem numeral {text : List Char} (h : Decimal.IsNumeral text) :
    Lexes feeds (continues feeds) text [.numeral text] :=
  (lexes_numeral h).mono fun _ hc => by simp [continues, hc]

/-- A text and another that does not begin with a character that would belong to the first. -/
theorem append_cons {c : Char} (hc : inside c = false) (hbefore : Lexes feeds inside before ahead)
    (hafter : Lexes feeds inside' (c :: after) behind) :
    Lexes feeds inside' (before ++ c :: after) (ahead ++ behind) := by
  intro rest hrest
  rw [List.append_assoc, hbefore (c :: after ++ rest) (by simpa using hc), hafter rest hrest,
    List.append_assoc]

/-- A text after one that is cut in the same way whatever follows it. -/
theorem closed_append (hbefore : ∀ rest, tokens feeds (before ++ rest) = ahead ++ tokens feeds rest)
    (hafter : Lexes feeds inside after behind) :
    Lexes feeds inside (before ++ after) (ahead ++ behind) := by
  intro rest hrest
  rw [List.append_assoc, hbefore, hafter rest hrest, List.append_assoc]

theorem minus (h : Lexes feeds inside text toks) :
    Lexes feeds inside ('-' :: text) (.mark '-' :: toks) := by
  have hminus : ∀ rest, tokens feeds (['-'] ++ rest) = [.mark '-'] ++ tokens feeds rest :=
    fun _ => rfl
  exact closed_append hminus h

/-- A text that ends in a closed one is itself closed. -/
theorem closed (h : Lexes feeds (fun _ => false) text toks) (rest : List Char) :
    tokens feeds (text ++ rest) = toks ++ tokens feeds rest :=
  h rest fun _ _ => rfl

theorem blanks (depth : Nat) : Lexes feeds inside (Contract.indent depth) [] := by
  refine of_closed fun rest => ?_
  unfold Contract.indent
  induction 2 * depth with
  | zero => rfl
  | succ n ih => exact ih

/-- Texts with a separator between each two of them, which is cut in the same way whatever follows
it and does not begin with a character that would belong to the text before it. -/
theorem join {α : Type} {c : Char} {sep : List Char} {between : List Token} {text : α → List Char}
    {toks : α → List Token} (hc : inside c = false)
    (hsep : ∀ rest, tokens feeds (c :: sep ++ rest) = between ++ tokens feeds rest)
    {items : List α} (h : ∀ a ∈ items, Lexes feeds inside (text a) (toks a)) :
    Lexes feeds inside (Text.join (c :: sep) (items.map text))
      (between.intercalate (items.map toks)) := by
  induction items with
  | nil => exact nil
  | cons a items ih =>
    obtain ⟨ha, hitems⟩ := List.forall_mem_cons.1 h
    cases items with
    | nil => simpa [Text.join] using ha
    | cons b items =>
      have hrest := append_cons hc ha (closed_append hsep (ih hitems))
      simpa [Text.join, List.intercalate_cons_cons] using hrest

/-- Lines that are cut in the same way whatever follows them. -/
theorem lines {α : Type} {text : α → List Char} {toks : α → List Token} {items : List α}
    (h : ∀ a ∈ items, Lexes feeds (fun _ => false) (text a) (toks a)) :
    Lexes feeds (fun _ => false) (Text.join ['\n'] (items.map text)) (items.flatMap toks) := by
  have hfeed : ∀ rest, tokens feeds ('\n' :: [] ++ rest) = [] ++ tokens feeds rest :=
    fun _ => rfl
  have hflat : List.intercalate [] (items.map toks) = items.flatMap toks := by
    induction items with
    | nil => rfl
    | cons a items ih =>
      cases items with
      | nil => simp
      | cons b items =>
        simpa [List.intercalate_cons_cons] using ih (List.forall_mem_cons.1 h).2
  exact hflat ▸ join rfl hfeed h

/-- A mark on a line of its own. -/
theorem close (depth : Nat) {c : Char} (hc : ∀ rest, tokens feeds ([c] ++ rest) =
    [.mark c] ++ tokens feeds rest) :
    Lexes feeds inside ('\n' :: (Contract.indent depth ++ [c])) [.mark c] := by
  have hfeed : ∀ rest, tokens feeds (['\n'] ++ rest) = [] ++ tokens feeds rest := fun _ => rfl
  exact closed_append hfeed (closed_append (blanks depth).closed (of_closed hc))

end Lexes

end Token

end ApiContract
