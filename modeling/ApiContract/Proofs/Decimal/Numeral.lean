import ApiContract.Decimal.Shortest
import ApiContract.Text.Numeral
import Mathlib.Data.List.Basic

/-!
# Written numbers are numerals

A numeral of a program is a whole number without a needless zero before it, then perhaps a point and
digits, then perhaps a power of ten. The sign stands before a numeral and is no part of it. Whole
numbers and the shortest decimals of numbers are written so, but for the words of those that are not
finite.

Main facts: `isNumeral_toDigits` and `isNumeral_write`.
-/

namespace ApiContract.Decimal

/-- A nonempty run of digits. -/
def IsDigits (text : List Char) : Prop :=
  text ≠ [] ∧ ∀ c ∈ text, c.isDigit

/-- A whole number: digits, of which the first is zero only if it is the only one. -/
def isWhole : List Char → Bool
  | [] => false
  | c :: cs => c != '0' || cs == []

/-- A power of ten, or nothing. -/
def isPower (text : List Char) : Bool :=
  text == [] || (Text.readPower? text).any fun (_, rest) => rest == []

/-- A point with digits and a power of ten, of which both may be absent. -/
def isTail : List Char → Bool
  | '.' :: rest => (Text.spanDigits rest).1 != [] && isPower (Text.spanDigits rest).2
  | rest => isPower rest

/-- A numeral, without its sign. -/
def isNumeral (text : List Char) : Bool :=
  isWhole (Text.spanDigits text).1 && isTail (Text.spanDigits text).2

/-- A character that may stand in a numeral. -/
def inNumeral (c : Char) : Bool :=
  c.isAlphanum || c == '.' || c == '+' || c == '-'

example : isNumeral "0.5e-07".toList ∧ isNumeral "10".toList := by decide +kernel
example : ¬ isNumeral "01".toList ∧ ¬ isNumeral "1.".toList ∧ ¬ isNumeral "1.5.2".toList := by
  decide +kernel

theorem spanDigits_append_of_digits {digits rest : List Char} (h : ∀ c ∈ digits, c.isDigit)
    (hrest : Text.spanDigits rest = ([], rest)) :
    Text.spanDigits (digits ++ rest) = (digits, rest) := by
  unfold Text.spanDigits at hrest ⊢
  obtain ⟨htake, hdrop⟩ := Prod.mk.inj hrest
  rw [List.takeWhile_append_of_pos h, List.dropWhile_append_of_pos h, htake, hdrop,
    List.append_nil]

theorem spanDigits_of_digits {digits : List Char} (h : ∀ c ∈ digits, c.isDigit) :
    Text.spanDigits digits = (digits, []) := by
  have hspan : Text.spanDigits (digits ++ []) = (digits, []) := spanDigits_append_of_digits h rfl
  rwa [List.append_nil] at hspan

theorem isDigits_append {digits others : List Char} (h : IsDigits digits)
    (hothers : ∀ c ∈ others, c.isDigit) : IsDigits (digits ++ others) :=
  ⟨by simp [h.1], List.forall_mem_append.2 ⟨h.2, hothers⟩⟩

theorem isDigits_toDigits (n : Nat) : IsDigits (Nat.toDigits 10 n) :=
  ⟨Nat.toDigits_ne_nil, fun _ => Nat.isDigit_of_mem_toDigits (by decide) (by decide)⟩

theorem isDigit_of_mem_replicate {k : Nat} : ∀ c ∈ List.replicate k '0', c.isDigit := by
  intro c hc
  rw [List.eq_of_mem_replicate hc]
  rfl

/-! ## The parts of a numeral -/

/-- What may follow the whole number: a point with digits, a power of ten, both or neither. -/
inductive IsTail : List Char → Prop
  | nil : IsTail []
  | point {digits : List Char} (h : IsDigits digits) : IsTail ('.' :: digits)
  | power {sign : Char} {digits : List Char} (hsign : sign = '+' ∨ sign = '-')
    (h : IsDigits digits) : IsTail ('e' :: sign :: digits)
  | pointPower {digits : List Char} {sign : Char} {power : List Char} (h : IsDigits digits)
    (hsign : sign = '+' ∨ sign = '-') (hpower : IsDigits power) :
    IsTail ('.' :: digits ++ 'e' :: sign :: power)

theorem isPower_power {sign : Char} {digits : List Char} (hsign : sign = '+' ∨ sign = '-')
    (h : IsDigits digits) : isPower ('e' :: sign :: digits) := by
  have hspan := spanDigits_of_digits h.2
  rcases hsign with rfl | rfl
  · simp [isPower, Text.readPower?, hspan, h.1]
  · simp [isPower, Text.readPower?, hspan, h.1]

theorem IsTail.isTail {text : List Char} (h : IsTail text) : Decimal.isTail text := by
  cases h with
  | nil => rfl
  | point h =>
    have hspan := spanDigits_of_digits h.2
    simp [Decimal.isTail, hspan, h.1, isPower]
  | power hsign h => exact isPower_power hsign h
  | @pointPower digits sign power h hsign hpower =>
    have hspan : Text.spanDigits (digits ++ 'e' :: sign :: power) =
        (digits, 'e' :: sign :: power) :=
      spanDigits_append_of_digits h.2 rfl
    simp [Decimal.isTail, hspan, isPower_power hsign hpower, h.1]

theorem IsTail.spanDigits {text : List Char} (h : IsTail text) :
    Text.spanDigits text = ([], text) := by
  cases h <;> rfl

theorem inNumeral_of_isDigit {c : Char} (h : c.isDigit) : inNumeral c := by
  simp [inNumeral, Char.isAlphanum, h]

theorem IsTail.inNumeral {text : List Char} (h : IsTail text) : ∀ c ∈ text, inNumeral c := by
  have digits {ds : List Char} (hds : IsDigits ds) : ∀ c ∈ ds, Decimal.inNumeral c :=
    fun c hc => inNumeral_of_isDigit (hds.2 c hc)
  have sign {c : Char} (hc : c = '+' ∨ c = '-') : Decimal.inNumeral c := by
    rcases hc with rfl | rfl <;> rfl
  cases h with
  | nil => simp
  | point h => exact List.forall_mem_cons.2 ⟨rfl, digits h⟩
  | power hsign h =>
    exact List.forall_mem_cons.2 ⟨rfl, List.forall_mem_cons.2 ⟨sign hsign, digits h⟩⟩
  | pointPower h hsign hpower =>
    refine List.forall_mem_append.2 ⟨List.forall_mem_cons.2 ⟨rfl, digits h⟩, ?_⟩
    exact List.forall_mem_cons.2 ⟨rfl, List.forall_mem_cons.2 ⟨sign hsign, digits hpower⟩⟩

/-- A text in the form of a numeral: digits that are a whole number, and what may follow them. -/
def IsNumeral (text : List Char) : Prop :=
  ∃ whole tail, text = whole ++ tail ∧ IsDigits whole ∧ isWhole whole ∧ IsTail tail

theorem IsNumeral.isNumeral {text : List Char} (h : IsNumeral text) : Decimal.isNumeral text := by
  obtain ⟨whole, tail, rfl, hdigits, hwhole, htail⟩ := h
  rw [Decimal.isNumeral, spanDigits_append_of_digits hdigits.2 htail.spanDigits]
  simp [hwhole, htail.isTail]

theorem IsNumeral.inNumeral {text : List Char} (h : IsNumeral text) : ∀ c ∈ text, inNumeral c := by
  obtain ⟨whole, tail, rfl, hdigits, -, htail⟩ := h
  exact List.forall_mem_append.2
    ⟨fun c hc => inNumeral_of_isDigit (hdigits.2 c hc), htail.inNumeral⟩

theorem IsNumeral.exists_cons {text : List Char} (h : IsNumeral text) :
    ∃ c cs, text = c :: cs ∧ c.isDigit := by
  obtain ⟨whole, tail, rfl, hdigits, -, -⟩ := h
  obtain ⟨c, cs, rfl⟩ := List.exists_cons_of_ne_nil hdigits.1
  exact ⟨c, cs ++ tail, rfl, hdigits.2 c List.mem_cons_self⟩

/-! ## Digits of a number -/

theorem digitChar_ne_zero : ∀ d < 10, d ≠ 0 → d.digitChar ≠ '0' := by
  decide

/-- No zero stands before the digits of a number. -/
theorem head?_toDigits {n : Nat} (hn : n ≠ 0) : (Nat.toDigits 10 n).head? ≠ some '0' := by
  induction n using Nat.strongRecOn with
  | ind n ih =>
    rcases Nat.lt_or_ge n 10 with hlt | hge
    · simp [Nat.toDigits_of_lt_base hlt, digitChar_ne_zero n hlt hn]
    · have hless := ih (n / 10) (Nat.div_lt_self (by omega) (by decide)) (by omega)
      obtain ⟨c, cs, hcs⟩ :=
        List.exists_cons_of_ne_nil (Nat.toDigits_ne_nil (b := 10) (n := n / 10))
      rw [Nat.toDigits_of_base_le (by decide) hge, hcs]
      rwa [hcs] at hless

theorem isWhole_of_head? {digits : List Char} (hne : digits ≠ []) (h : digits.head? ≠ some '0') :
    isWhole digits := by
  obtain ⟨c, cs, rfl⟩ := List.exists_cons_of_ne_nil hne
  simp only [List.head?_cons, ne_eq, Option.some.injEq] at h
  simp [isWhole, h]

theorem isWhole_toDigits (n : Nat) : isWhole (Nat.toDigits 10 n) := by
  by_cases hn : n = 0
  · subst hn
    rfl
  · exact isWhole_of_head? Nat.toDigits_ne_nil (head?_toDigits hn)

theorem isNumeral_toDigits (n : Nat) : IsNumeral (Nat.toDigits 10 n) :=
  ⟨_, [], (List.append_nil _).symm, isDigits_toDigits n, isWhole_toDigits n, .nil⟩

/-! ## Decimals -/

/-- Digits with a point among them. The number zero has one place before its point. -/
theorem isNumeral_positional {n : Nat} {place : Int} (hzero : n = 0 → place = 1) :
    IsNumeral (positional (Nat.toDigits 10 n) place) := by
  have hdigits := isDigits_toDigits n
  unfold positional
  split
  · refine ⟨['0'], '.' :: (List.replicate (-place).toNat '0' ++ Nat.toDigits 10 n), by simp,
      ⟨by simp, by simp⟩, rfl, .point ⟨by simp [hdigits.1], ?_⟩⟩
    exact List.forall_mem_append.2 ⟨isDigit_of_mem_replicate, hdigits.2⟩
  · next hplace =>
    have hfraction : IsDigits (if (Nat.toDigits 10 n).drop place.toNat = [] then ['0']
        else (Nat.toDigits 10 n).drop place.toNat) := by
      split
      · exact ⟨by simp, by simp⟩
      · next hne => exact ⟨hne, fun c hc => hdigits.2 c (List.mem_of_mem_drop hc)⟩
    have hwhole : IsDigits ((Nat.toDigits 10 n).take place.toNat ++
        List.replicate (place.toNat - (Nat.toDigits 10 n).length) '0') := by
      refine isDigits_append ⟨?_, fun c hc => hdigits.2 c (List.mem_of_mem_take hc)⟩
        isDigit_of_mem_replicate
      simp [List.take_eq_nil_iff, hdigits.1]
      omega
    refine ⟨_, '.' :: _, List.append_assoc .., hwhole, ?_, .point hfraction⟩
    by_cases hn : n = 0
    · subst hn
      rw [hzero rfl]
      rfl
    · refine isWhole_of_head? hwhole.1 ?_
      obtain ⟨c, cs, hcs⟩ := List.exists_cons_of_ne_nil hdigits.1
      obtain ⟨k, hk⟩ := Nat.exists_eq_succ_of_ne_zero (show place.toNat ≠ 0 by omega)
      have hhead := head?_toDigits hn
      rw [hcs, hk]
      rwa [hcs] at hhead

/-- The first digit, the others after a point, and the power of ten. -/
theorem isNumeral_exponential (n : Nat) (place : Int) :
    IsNumeral (exponential (Nat.toDigits 10 n) place) := by
  obtain ⟨c, cs, hcs⟩ := List.exists_cons_of_ne_nil (Nat.toDigits_ne_nil (b := 10) (n := n))
  have hdigits := isDigits_toDigits n
  rw [hcs] at hdigits ⊢
  have hsign : (if place - 1 < 0 then '-' else '+') = '+' ∨
      (if place - 1 < 0 then '-' else '+') = '-' := by
    split <;> simp
  have hpower : IsDigits (List.replicate (2 - (Nat.toDigits 10 (place - 1).natAbs).length) '0' ++
      Nat.toDigits 10 (place - 1).natAbs) :=
    ⟨by simp [Nat.toDigits_ne_nil],
      List.forall_mem_append.2 ⟨isDigit_of_mem_replicate, (isDigits_toDigits _).2⟩⟩
  have hwhole : IsDigits [c] := ⟨by simp, by simpa using hdigits.2 c List.mem_cons_self⟩
  have hfirst : isWhole [c] := by simp [isWhole]
  cases cs with
  | nil =>
    refine ⟨[c], _, ?_, hwhole, hfirst, .power hsign hpower⟩
    simp [exponential]
  | cons d ds =>
    have hothers : IsDigits (d :: ds) :=
      ⟨by simp, fun c hc => hdigits.2 c (List.mem_cons_of_mem _ hc)⟩
    refine ⟨[c], _, ?_, hwhole, hfirst, .pointPower hothers hsign hpower⟩
    simp [exponential]

theorem isNumeral_laidOut (layout : Layout) {n : Nat} {place : Int} (hzero : n = 0 → place = 1) :
    IsNumeral (if layout.above < place ∧ place ≤ layout.upTo then
        positional (Nat.toDigits 10 n) place
      else exponential (Nat.toDigits 10 n) place) := by
  split
  · exact isNumeral_positional hzero
  · exact isNumeral_exponential n place

theorem isNumeral_write (layout : Layout) (mantissa : Nat) (exponent : Int) :
    IsNumeral (layout.write (.finite false mantissa exponent)) :=
  isNumeral_laidOut layout fun h => if_pos h

end ApiContract.Decimal
