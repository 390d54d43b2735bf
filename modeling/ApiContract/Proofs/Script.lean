import ApiContract.Proofs.Identifier.Legal
import ApiContract.Proofs.Json.Literal

/-!
# Template literals of a script

What stands between two backticks in a script: text and substitutions. The text is cooked: an escape
stands for other characters, and each end of a line that has a carriage return for a line feed. A
text is given by its UTF-16 units, since an escape may stand for half of a surrogate pair. Of the
expressions that a substitution may hold, only references are taken: a name, perhaps with blanks
around it.

Nothing is cooked into more than it was (`Body.total_lt`), so a text that is cooked into itself has
no escapes.

Main facts: `isLiteral_backtick_iff`, `body_cons_iff` and `body_substitution_iff` (what a literal
is, from left to right) and `Body.total_lt`.
-/

namespace ApiContract.Script

open Json (units hexValue?)

/-! ## Characters -/

/-- A character that ends a line. -/
def isLineEnd (c : Char) : Bool :=
  c == '\n' || c == '\r' || c == '\u2028' || c == '\u2029'

/-- A character that may stand between tokens: the tabulators, the form feed, the spaces of Unicode,
the byte order mark, or the end of a line. -/
def isBlank (c : Char) : Bool :=
  let n := c.toNat
  n == 9 || n == 11 || n == 12 || n == 32 || n == 0xA0 || n == 0x1680 ||
    (0x2000 ≤ n && n ≤ 0x200A) || n == 0x202F || n == 0x205F || n == 0x3000 || n == 0xFEFF ||
    isLineEnd c

/-- The text without the blanks at either end. -/
def trim (text : List Char) : List Char :=
  Text.dropEndWhile isBlank (text.dropWhile isBlank)

/-! ## References -/

/-- The words that refer to nothing: the reserved ones, but for two that cannot be declared and
still are names. -/
def keywords : List String :=
  Identifier.reserved.filter (· ∉ ["arguments", "eval"])

/-- The source of an expression that is a name, with blanks around it. -/
def IsReference (source : List Char) : Prop :=
  Identifier.isName (trim source) ∧ String.ofList (trim source) ∉ keywords

instance (source : List Char) : Decidable (IsReference source) :=
  inferInstanceAs (Decidable (_ ∧ _))

/-! ## Literals -/

/-- A piece of a template literal: a unit of its text, or a substitution by its source. -/
inductive Piece
  | unit (n : Nat)
  | substitution (source : List Char)
  deriving DecidableEq, Repr

/-- A character of the text, cooked into itself. -/
def Piece.ofChar (c : Char) : List Piece :=
  (units c).map unit

/-- The units of a code point. -/
def pointUnits (n : Nat) : List Nat :=
  if n < 0x10000 then [n] else [0xD800 + (n - 0x10000) / 0x400, 0xDC00 + (n - 0x10000) % 0x400]

/-- The escapes of one character that stand for a given one. -/
def singles : List (Char × Char) :=
  [('\'', '\''), ('"', '"'), ('\\', '\\'), ('b', '\x08'), ('f', '\x0c'), ('n', '\n'), ('r', '\r'),
    ('t', '\t'), ('v', '\x0b')]

/-- What may stand after a backslash, in front of `rest`, and the units that it stands for. Digits
stand for nothing, but for a zero by itself. -/
inductive Escape (rest : List Char) : List Char → List Nat → Prop
  | single {c d : Char} (h : (c, d) ∈ singles) : Escape rest [c] [d.toNat]
  | self {c : Char} (hsingle : c ∉ singles.map Prod.fst) (hdigit : c.isDigit = false)
      (hcode : c ≠ 'x' ∧ c ≠ 'u') (hline : isLineEnd c = false) : Escape rest [c] (units c)
  | zero (h : ∀ c ∈ rest.head?, c.isDigit = false) : Escape rest ['0'] [0]
  | two {digits : List Char} {n : Nat} (hlength : digits.length = 2)
      (h : hexValue? digits = some n) : Escape rest ('x' :: digits) [n]
  | four {digits : List Char} {n : Nat} (hlength : digits.length = 4)
      (h : hexValue? digits = some n) : Escape rest ('u' :: digits) [n]
  | point {digits : List Char} {n : Nat} (hne : digits ≠ []) (h : hexValue? digits = some n)
      (hpoint : n ≤ 0x10FFFF) : Escape rest ('u' :: '\x7b' :: digits ++ ['\x7d']) (pointUnits n)
  | lineEnd {c : Char} (h : isLineEnd c) (hlast : c = '\r' → rest.head? ≠ some '\n') :
      Escape rest [c] []
  | lineEnds : Escape rest ['\r', '\n'] []

/-- A character that stands for itself in front of `rest`. -/
def IsPlain (c : Char) (rest : List Char) : Prop :=
  c ≠ '\x60' ∧ c ≠ '\\' ∧ c ≠ '\r' ∧ ¬ (c = '$' ∧ rest.head? = some '\x7b')

instance (c : Char) (rest : List Char) : Decidable (IsPlain c rest) :=
  inferInstanceAs (Decidable (_ ∧ _))

/-- What stands after the opening backtick of a template literal, and the pieces that it is. -/
inductive Body : List Char → List Piece → Prop
  | close : Body ['\x60'] []
  | plain {c : Char} {rest : List Char} {pieces : List Piece} (h : IsPlain c rest)
      (hrest : Body rest pieces) : Body (c :: rest) (Piece.ofChar c ++ pieces)
  | lineEnd {rest : List Char} {pieces : List Piece} (h : rest.head? ≠ some '\n')
      (hrest : Body rest pieces) : Body ('\r' :: rest) (Piece.ofChar '\n' ++ pieces)
  | lineEnds {rest : List Char} {pieces : List Piece} (hrest : Body rest pieces) :
      Body ('\r' :: '\n' :: rest) (Piece.ofChar '\n' ++ pieces)
  | escape {text rest : List Char} {ns : List Nat} {pieces : List Piece} (h : Escape rest text ns)
      (hrest : Body rest pieces) : Body ('\\' :: (text ++ rest)) (ns.map .unit ++ pieces)
  | substitution {source rest : List Char} {pieces : List Piece} (h : IsReference source)
      (hrest : Body rest pieces) :
      Body ('$' :: '\x7b' :: (source ++ '\x7d' :: rest)) (.substitution source :: pieces)

/-- The text is one template literal, and consists of these pieces. -/
def IsLiteral (text : List Char) (pieces : List Piece) : Prop :=
  ∃ body, text = '\x60' :: body ∧ Body body pieces

theorem isLiteral_backtick_iff {body : List Char} {pieces : List Piece} :
    IsLiteral ('\x60' :: body) pieces ↔ Body body pieces := by
  constructor
  · rintro ⟨_, heq, h⟩
    cases heq
    exact h
  · exact fun h => ⟨body, rfl, h⟩

/-! ## Names and blanks -/

theorem not_isBlank_of_isPart {c : Char} (h : Identifier.isPart c) : isBlank c = false := by
  rw [Identifier.isPart, Bool.or_eq_true, Bool.or_eq_true, beq_iff_eq, beq_iff_eq] at h
  rcases h with (h | rfl) | rfl
  · exact Identifier.of_forall_ascii (P := fun c => isBlank c = false) (by decide) h
  · rfl
  · rfl

theorem trim_append {name after : List Char} (hname : Identifier.isName name)
    (hafter : ∀ c ∈ after, isBlank c) : trim (name ++ after) = name := by
  have hplain : ∀ c ∈ name, isBlank c = false := fun c hc =>
    not_isBlank_of_isPart (Identifier.isPart_of_mem_isName hname c hc)
  have hback : ∀ c ∈ after.reverse, isBlank c := fun c hc => hafter c (List.mem_reverse.1 hc)
  have hfront : (name ++ after).dropWhile isBlank = name ++ after := by
    obtain ⟨c, cs, rfl, -⟩ := Identifier.isName_iff.1 hname
    rw [List.cons_append, List.dropWhile_cons, hplain c List.mem_cons_self]
    rfl
  have hend : name.reverse.dropWhile isBlank = name.reverse := by
    cases hreverse : name.reverse with
    | nil => rfl
    | cons c cs =>
      have hc : c ∈ name := List.mem_reverse.1 (hreverse ▸ List.mem_cons_self)
      rw [List.dropWhile_cons, hplain c hc]
      rfl
  rw [trim, hfront, Text.dropEndWhile, List.reverse_append, List.dropWhile_append_of_pos hback,
    hend, List.reverse_reverse]

theorem mem_dropWhile_or {p : Char → Bool} {text : List Char} {c : Char} (h : c ∈ text) :
    p c ∨ c ∈ text.dropWhile p := by
  rw [← List.takeWhile_append_dropWhile (p := p) (l := text), List.mem_append] at h
  exact h.imp_left fun hc => List.all_eq_true.1 List.all_takeWhile c hc

/-- A reference holds nothing but blanks and a name. -/
theorem IsReference.not_mem {source : List Char} (h : IsReference source) : '\x7d' ∉ source := by
  intro hmem
  have hkept : '\x7d' ∈ trim source := by
    have hfront := (mem_dropWhile_or (p := isBlank) hmem).resolve_left (by decide)
    have hback := (mem_dropWhile_or (p := isBlank) (List.mem_reverse.2 hfront)).resolve_left
      (by decide)
    exact List.mem_reverse.2 hback
  exact Identifier.not_isName_of_mem hkept rfl h.1

/-! ## From left to right -/

theorem takeWhile_ne {mark : Char} {before : List Char} (h : mark ∉ before) (after : List Char) :
    (before ++ mark :: after).takeWhile (· ≠ mark) = before := by
  have hne : ∀ c ∈ before, (c ≠ mark : Bool) := by
    intro c hc
    rw [decide_eq_true_eq]
    rintro rfl
    exact h hc
  rw [List.takeWhile_append_of_pos hne]
  simp

/-- A text is cut at the first of a mark in one way only. -/
theorem append_cons_inj {mark : Char} {before others after rest : List Char} (h : mark ∉ before)
    (h' : mark ∉ others) (heq : before ++ mark :: after = others ++ mark :: rest) :
    before = others ∧ after = rest := by
  have hfront : before = others := by rw [← takeWhile_ne h after, heq, takeWhile_ne h' rest]
  subst hfront
  exact ⟨rfl, (List.cons.inj (List.append_cancel_left heq)).2⟩

/-- A backtick ends the literal. -/
theorem body_backtick_iff {rest : List Char} {pieces : List Piece} :
    Body ('\x60' :: rest) pieces ↔ rest = [] ∧ pieces = [] := by
  constructor
  · intro h
    cases h with
    | close => exact ⟨rfl, rfl⟩
    | plain h _ => exact absurd rfl h.1
  · rintro ⟨rfl, rfl⟩
    exact .close

theorem body_cons_iff {c : Char} {rest : List Char} {pieces : List Piece}
    (hplain : IsPlain c rest) :
    Body (c :: rest) pieces ↔ ∃ others, Body rest others ∧ Piece.ofChar c ++ others = pieces := by
  constructor
  · intro h
    cases h with
    | close => exact absurd rfl hplain.1
    | plain _ hrest => exact ⟨_, hrest, rfl⟩
    | lineEnd => exact absurd rfl hplain.2.2.1
    | lineEnds => exact absurd rfl hplain.2.2.1
    | escape => exact absurd rfl hplain.2.1
    | substitution => exact absurd ⟨rfl, rfl⟩ hplain.2.2.2
  · rintro ⟨others, hrest, rfl⟩
    exact .plain hplain hrest

theorem body_substitution_iff {source rest : List Char} {pieces : List Piece}
    (hsource : '\x7d' ∉ source) :
    Body ('$' :: '\x7b' :: (source ++ '\x7d' :: rest)) pieces ↔ IsReference source ∧
      ∃ others, Body rest others ∧ .substitution source :: others = pieces := by
  constructor
  · intro h
    generalize htext : '$' :: '\x7b' :: (source ++ '\x7d' :: rest) = text at h
    cases h with
    | close => cases htext
    | plain h _ =>
      obtain ⟨rfl, rfl⟩ := List.cons.inj htext
      exact absurd ⟨rfl, rfl⟩ h.2.2.2
    | lineEnd => cases (List.cons.inj htext).1
    | lineEnds => cases (List.cons.inj htext).1
    | escape => cases (List.cons.inj htext).1
    | substitution h hrest =>
      have htail := (List.cons.inj (List.cons.inj htext).2).2
      obtain ⟨rfl, rfl⟩ := append_cons_inj hsource h.not_mem htail
      exact ⟨h, _, hrest, rfl⟩
  · rintro ⟨h, others, hrest, rfl⟩
    exact .substitution h hrest

/-! ## Sizes -/

/-- The length of a text in units. -/
def size (text : List Char) : Nat :=
  (text.flatMap units).length

theorem size_append (text more : List Char) : size (text ++ more) = size text + size more := by
  rw [size, List.flatMap_append, List.length_append]
  rfl

theorem size_cons (c : Char) (text : List Char) :
    size (c :: text) = (units c).length + size text := by
  rw [size, List.flatMap_cons, List.length_append]
  rfl

/-- The length of a piece where it is written as it stands. -/
def Piece.size : Piece → Nat
  | unit _ => 1
  | substitution source => Script.size source + 3

/-- The length of pieces. -/
def total : List Piece → Nat
  | [] => 0
  | piece :: pieces => piece.size + total pieces

theorem total_append (pieces others : List Piece) :
    total (pieces ++ others) = total pieces + total others := by
  induction pieces with
  | nil => exact (Nat.zero_add _).symm
  | cons piece pieces ih => rw [List.cons_append, total, total, ih, Nat.add_assoc]

theorem total_units (ns : List Nat) : total (ns.map Piece.unit) = ns.length := by
  induction ns with
  | nil => rfl
  | cons n ns ih =>
    rw [List.map_cons, total, ih, List.length_cons]
    exact Nat.add_comm _ _

theorem length_units_pos (c : Char) : 0 < (units c).length := by
  unfold units
  split
  · exact Nat.one_pos
  · exact Nat.two_pos

theorem length_le_size (text : List Char) : text.length ≤ size text := by
  induction text with
  | nil => exact Nat.zero_le _
  | cons c cs ih =>
    have := length_units_pos c
    rw [size_cons, List.length_cons]
    omega

/-- An escape stands for no more than is written after its backslash. -/
theorem Escape.length_le {rest text : List Char} {ns : List Nat} (h : Escape rest text ns) :
    ns.length ≤ size text := by
  have hlength := length_le_size text
  cases h with
  | self => rw [size_cons]; exact Nat.le_add_right _ _
  | point hne =>
    refine Nat.le_trans ?_ hlength
    unfold pointUnits
    split
    · simp
    · simp
  | lineEnd => exact Nat.zero_le _
  | lineEnds => exact Nat.zero_le _
  | single => exact hlength
  | zero => exact hlength
  | two => exact Nat.le_trans (Nat.le_add_left _ _) hlength
  | four => exact Nat.le_trans (Nat.le_add_left _ _) hlength

/-- A literal is longer than its pieces. -/
theorem Body.total_lt {text : List Char} {pieces : List Piece} (h : Body text pieces) :
    total pieces < size text := by
  induction h with
  | close => decide
  | plain _ _ ih =>
    rw [total_append, Piece.ofChar, total_units, size_cons]
    exact Nat.add_lt_add_left ih _
  | lineEnd _ _ ih =>
    rw [total_append, Piece.ofChar, total_units, size_cons]
    exact Nat.add_lt_add_left ih _
  | lineEnds _ ih =>
    rw [total_append, Piece.ofChar, total_units, size_cons, size_cons]
    have : (units '\n').length = 1 := rfl
    have : (units '\r').length = 1 := rfl
    omega
  | escape h _ ih =>
    have := h.length_le
    rw [total_append, total_units, size_cons, size_append]
    omega
  | @substitution source rest pieces _ _ ih =>
    rw [size_cons, size_cons, size_append, size_cons]
    have hsize : total (.substitution source :: pieces) = size source + 3 + total pieces := rfl
    have : (units '$').length = 1 := rfl
    have : (units '\x7b').length = 1 := rfl
    have : (units '\x7d').length = 1 := rfl
    omega

end ApiContract.Script
