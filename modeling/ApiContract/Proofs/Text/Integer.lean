import ApiContract.Text.Digit
import ApiContract.Proofs.Decimal.Numeral
import Mathlib.Data.List.Induction

/-!
# How whole numbers are spelled

`readInt?` takes more than one spelling of a number: blanks around it, a sign, zeros before it,
digits of any script, and an underscore between two digits. `Spells` is this grammar, from the
digits outwards. A natural number has one decimal among its spellings (`IsDecimal`): ASCII digits,
of which the first is zero only if it is the only one.

Main facts: `readInt?_eq_some_iff` (the reader follows the grammar), `isDecimal_iff` (a decimal is
written for one number) and `spellsNat_toDigits` (and spells it).
-/

namespace ApiContract.Text

/-- Digits of any script that have a value; an underscore may stand between two of them. -/
inductive SpellsNat : List Char → Nat → Prop
  | digit {c : Char} {d : Nat} (hc : digitValue? c = some d) : SpellsNat [c] d
  | next {text : List Char} {n : Nat} {c : Char} {d : Nat} (h : SpellsNat text n)
      (hc : digitValue? c = some d) : SpellsNat (text ++ [c]) (10 * n + d)
  | apart {text : List Char} {n : Nat} {c : Char} {d : Nat} (h : SpellsNat text n)
      (hc : digitValue? c = some d) : SpellsNat (text ++ ['_', c]) (10 * n + d)

/-- A text spells a whole number: digits, perhaps a sign before them, and blanks around both. -/
inductive Spells : List Char → Int → Prop
  | unsigned {text : List Char} {n : Nat} (h : SpellsNat text n) : Spells text n
  | plus {text : List Char} {n : Nat} (h : SpellsNat text n) : Spells ('+' :: text) n
  | minus {text : List Char} {n : Nat} (h : SpellsNat text n) : Spells ('-' :: text) (-n)
  | before {text : List Char} {n : Int} {c : Char} (hc : isMargin c) (h : Spells text n) :
      Spells (c :: text) n
  | after {text : List Char} {n : Int} {c : Char} (h : Spells text n) (hc : isMargin c) :
      Spells (text ++ [c]) n

/-- The decimal of a natural number: digits, of which the first is zero only if it is the only
one. -/
def IsDecimal (text : List Char) : Prop :=
  Decimal.IsDigits text ∧ Decimal.isWhole text

/-! ## Digits -/

theorem ne_of_digitValue? {c other : Char} {d : Nat} (hc : digitValue? c = some d)
    (hother : digitValue? other = none) : c ≠ other := by
  intro heq
  rw [heq, hother] at hc
  cases hc

theorem readDigits?_cons {c : Char} {d : Nat} (hc : digitValue? c = some d) (acc : Nat)
    (text : List Char) : readDigits? acc (c :: text) = readDigits? (10 * acc + d) text := by
  have hne : c ≠ '_' := ne_of_digitValue? hc (by decide)
  cases text <;> simp [readDigits?, hne, hc]

theorem readDigits?_apart {c : Char} {d : Nat} (hc : digitValue? c = some d) (acc : Nat)
    (text : List Char) : readDigits? acc ('_' :: c :: text) = readDigits? (10 * acc + d) text := by
  rw [readDigits?, hc, Option.bind_some]

theorem spellsNat_of_readDigits? {acc n : Nat} {text : List Char}
    (h : readDigits? acc text = some n) {front : List Char} (hfront : SpellsNat front acc) :
    SpellsNat (front ++ text) n := by
  fun_induction readDigits? acc text generalizing front with
  | case1 acc =>
    cases h
    simpa using hfront
  | case2 acc c text ih =>
    obtain ⟨d, hd, h⟩ := Option.bind_eq_some_iff.1 h
    simpa using ih d h (.apart hfront hd)
  | case3 acc c text _ ih =>
    obtain ⟨d, hd, h⟩ := Option.bind_eq_some_iff.1 h
    simpa using ih d h (.next hfront hd)

theorem readNat?_append {text : List Char} {n : Nat} (h : SpellsNat text n) (rest : List Char) :
    readNat? (text ++ rest) = readDigits? n rest := by
  induction h generalizing rest with
  | digit hc => rw [List.singleton_append, readNat?, hc, Option.bind_some]
  | next _ hc ih => rw [List.append_assoc, ih, List.singleton_append, readDigits?_cons hc]
  | apart _ hc ih =>
    rw [List.append_assoc, ih, List.cons_append, List.singleton_append, readDigits?_apart hc]

theorem readNat?_eq_some_iff {text : List Char} {n : Nat} :
    readNat? text = some n ↔ SpellsNat text n := by
  constructor
  · intro h
    cases text with
    | nil => cases h
    | cons c text =>
      obtain ⟨d, hd, h⟩ := Option.bind_eq_some_iff.1 h
      exact spellsNat_of_readDigits? h (.digit hd)
  · intro h
    have := readNat?_append h []
    rwa [List.append_nil] at this

theorem SpellsNat.exists_cons {text : List Char} {n : Nat} (h : SpellsNat text n) :
    ∃ c cs d, text = c :: cs ∧ digitValue? c = some d := by
  induction h with
  | digit hc => exact ⟨_, _, _, rfl, hc⟩
  | next _ _ ih | apart _ _ ih =>
    obtain ⟨c, cs, d, rfl, hc⟩ := ih
    exact ⟨c, _, d, List.cons_append, hc⟩

theorem SpellsNat.exists_concat {text : List Char} {n : Nat} (h : SpellsNat text n) :
    ∃ front c d, text = front ++ [c] ∧ digitValue? c = some d := by
  cases h with
  | digit hc => exact ⟨[], _, _, rfl, hc⟩
  | next _ hc => exact ⟨_, _, _, rfl, hc⟩
  | @apart text _ c _ _ hc => exact ⟨text ++ ['_'], c, _, by simp, hc⟩

/-! ## Margins -/

theorem not_isMargin_of_digitValue? {c : Char} {d : Nat} (h : digitValue? c = some d) :
    isMargin c = false := by
  have hall : ∀ z ∈ digitZeros, ∀ d < 10, isMargin (Char.ofNat (z + d)) = false := by
    decide +kernel
  obtain ⟨z, hfind, hvalue⟩ := Option.map_eq_some_iff.1 h
  have hrange := List.find?_some hfind
  simp only [Bool.and_eq_true, decide_eq_true_eq] at hrange
  have hc : c = Char.ofNat (z + d) := by
    rw [← Char.ofNat_toNat c]
    congr 1
    omega
  rw [hc]
  exact hall z (List.mem_of_find?_eq_some hfind) d (digitValue?_lt h)

theorem withoutMargins_eq_self {c : Char} {text : List Char} (hhead : isMargin c = false)
    (hlast : ∀ d ∈ (c :: text).getLast?, isMargin d = false) :
    withoutMargins (c :: text) = c :: text := by
  rw [withoutMargins, List.dropWhile_cons_of_neg (by simp [hhead]), dropEndWhile_eq_self hlast]

theorem SpellsNat.withoutMargins {text : List Char} {n : Nat} (h : SpellsNat text n) :
    Text.withoutMargins text = text := by
  obtain ⟨front, c, d, hlast, hc⟩ := h.exists_concat
  obtain ⟨b, cs, e, hhead, hb⟩ := h.exists_cons
  rw [hhead]
  apply withoutMargins_eq_self (not_isMargin_of_digitValue? hb)
  rw [← hhead, hlast, List.getLast?_concat]
  intro d hd
  cases hd
  exact not_isMargin_of_digitValue? hc

theorem SpellsNat.withoutMargins_sign {text : List Char} {n : Nat} (h : SpellsNat text n)
    {sign : Char} (hsign : isMargin sign = false) :
    Text.withoutMargins (sign :: text) = sign :: text := by
  obtain ⟨front, c, d, rfl, hc⟩ := h.exists_concat
  apply withoutMargins_eq_self hsign
  rw [← List.cons_append, List.getLast?_concat]
  intro d hd
  cases hd
  exact not_isMargin_of_digitValue? hc

theorem withoutMargins_cons {c : Char} (hc : isMargin c) (text : List Char) :
    withoutMargins (c :: text) = withoutMargins text := by
  rw [withoutMargins, List.dropWhile_cons_of_pos hc, withoutMargins]

theorem withoutMargins_concat {c : Char} (hc : isMargin c) (text : List Char) :
    withoutMargins (text ++ [c]) = withoutMargins text := by
  unfold withoutMargins
  rw [List.dropWhile_append]
  split
  · next h =>
    rw [List.isEmpty_iff] at h
    rw [h, List.dropWhile_cons_of_pos hc]
    rfl
  · exact dropEndWhile_concat hc _

theorem exists_margins (text : List Char) :
    ∃ front back, text = front ++ withoutMargins text ++ back ∧
      (∀ c ∈ front, isMargin c) ∧ ∀ c ∈ back, isMargin c := by
  obtain ⟨back, hback, hall⟩ := exists_dropEndWhile isMargin (text.dropWhile isMargin)
  refine ⟨text.takeWhile isMargin, back, ?_, ?_, hall⟩
  · rw [List.append_assoc, withoutMargins, ← hback, List.takeWhile_append_dropWhile]
  · intro c hc
    exact List.all_eq_true.1 List.all_takeWhile c hc

theorem Spells.within {text : List Char} {n : Int} (h : Spells text n) {front back : List Char}
    (hfront : ∀ c ∈ front, isMargin c) (hback : ∀ c ∈ back, isMargin c) :
    Spells (front ++ text ++ back) n := by
  have hbefore : Spells (front ++ text) n := by
    induction front with
    | nil => exact h
    | cons c front ih =>
      obtain ⟨hc, hfront⟩ := List.forall_mem_cons.1 hfront
      exact .before hc (ih hfront)
  induction back using List.reverseRecOn with
  | nil => rwa [List.append_nil]
  | append_singleton back c ih =>
    obtain ⟨hback, hc⟩ := List.forall_mem_append.1 hback
    rw [← List.append_assoc]
    exact .after (ih hback) (hc c List.mem_cons_self)

/-! ## Whole numbers -/

theorem Spells.readInt? {text : List Char} {n : Int} (h : Spells text n) :
    Text.readInt? text = some n := by
  induction h with
  | @unsigned text n h =>
    obtain ⟨c, cs, d, rfl, hc⟩ := h.exists_cons
    have hminus : c ≠ '-' := ne_of_digitValue? hc (by decide)
    have hplus : c ≠ '+' := ne_of_digitValue? hc (by decide)
    rw [Text.readInt?, h.withoutMargins]
    simp [hminus, hplus, readNat?_eq_some_iff.2 h]
  | plus h =>
    have hsign : isMargin '+' = false := by decide
    simp [Text.readInt?, h.withoutMargins_sign hsign, readNat?_eq_some_iff.2 h]
  | minus h =>
    have hsign : isMargin '-' = false := by decide
    simp [Text.readInt?, h.withoutMargins_sign hsign, readNat?_eq_some_iff.2 h]
  | before hc h ih =>
    unfold Text.readInt? at ih ⊢
    rwa [withoutMargins_cons hc]
  | after h hc ih =>
    unfold Text.readInt? at ih ⊢
    rwa [withoutMargins_concat hc]

theorem spells_of_readInt? {text : List Char} {n : Int} (h : readInt? text = some n) :
    Spells text n := by
  obtain ⟨front, back, htext, hfront, hback⟩ := exists_margins text
  rw [htext]
  refine Spells.within ?_ hfront hback
  unfold readInt? at h
  split at h
  · next digits hcore =>
    obtain ⟨size, hsize, rfl⟩ : ∃ size, readNat? digits = some size ∧ -(size : Int) = n := by
      simpa [Option.bind_eq_some_iff] using h
    rw [hcore]
    exact .minus (readNat?_eq_some_iff.1 hsize)
  · next digits hcore =>
    obtain ⟨size, hsize, rfl⟩ : ∃ size, readNat? digits = some size ∧ (size : Int) = n := by
      simpa [Option.bind_eq_some_iff] using h
    rw [hcore]
    exact .plus (readNat?_eq_some_iff.1 hsize)
  · obtain ⟨size, hsize, rfl⟩ : ∃ size, readNat? (withoutMargins text) = some size ∧
        (size : Int) = n := by
      simpa [Option.bind_eq_some_iff] using h
    exact .unsigned (readNat?_eq_some_iff.1 hsize)

theorem readInt?_eq_some_iff {text : List Char} {n : Int} :
    readInt? text = some n ↔ Spells text n :=
  ⟨spells_of_readInt?, Spells.readInt?⟩

/-! ## Decimals -/

theorem digitValue?_digitChar {d : Nat} (h : d < 10) : digitValue? d.digitChar = some d := by
  have hall : ∀ d < 10, digitValue? d.digitChar = some d := by decide
  exact hall d h

theorem spellsNat_toDigits (n : Nat) : SpellsNat (Nat.toDigits 10 n) n := by
  induction n using Nat.strongRecOn with
  | ind n ih =>
    rcases Nat.lt_or_ge n 10 with hlt | hge
    · rw [Nat.toDigits_of_lt_base hlt]
      exact .digit (digitValue?_digitChar hlt)
    · have hdiv := ih (n / 10) (Nat.div_lt_self (by omega) (by decide))
      have hlast := hdiv.next (digitValue?_digitChar (Nat.mod_lt n (by decide)))
      rwa [Nat.div_add_mod n 10, ← Nat.toDigits_of_base_le (by decide) hge] at hlast

theorem readInt?_toDigits (n : Nat) : readInt? (Nat.toDigits 10 n) = some (n : Int) :=
  (Spells.unsigned (spellsNat_toDigits n)).readInt?

theorem exists_digitChar {c : Char} (h : c.isDigit) : ∃ d < 10, c = d.digitChar := by
  have hrange : 48 ≤ c.toNat ∧ c.toNat ≤ 57 := by
    simpa [Char.isDigit, UInt32.le_iff_toNat_le] using h
  have hall : ∀ d < 10, Char.ofNat (48 + d) = d.digitChar := by decide
  refine ⟨c.toNat - 48, by omega, ?_⟩
  rw [← hall _ (by omega), Nat.add_sub_cancel' hrange.1, Char.ofNat_toNat]

/-- The decimals are the digits of the natural numbers. -/
theorem isDecimal_iff {text : List Char} : IsDecimal text ↔ ∃ n, text = Nat.toDigits 10 n := by
  constructor
  · intro h
    induction text using List.reverseRecOn with
    | nil => exact absurd rfl h.1.1
    | append_singleton front c ih =>
      obtain ⟨⟨-, hdigits⟩, hwhole⟩ := h
      obtain ⟨hfront, hc⟩ := List.forall_mem_append.1 hdigits
      obtain ⟨d, hd, rfl⟩ := exists_digitChar (hc c List.mem_cons_self)
      cases front with
      | nil => exact ⟨d, (Nat.toDigits_of_lt_base hd).symm⟩
      | cons b front =>
        -- digits go on after the first one, so it is not zero and the number before is positive
        have hb : b ≠ '0' := by simpa [Decimal.isWhole] using hwhole
        obtain ⟨n, hn⟩ := ih ⟨⟨List.cons_ne_nil _ _, hfront⟩, by simp [Decimal.isWhole, hb]⟩
        have hpos : 0 < n := by
          apply Nat.pos_of_ne_zero
          intro hzero
          rw [hzero] at hn
          exact hb (List.cons.inj hn).1
        refine ⟨10 * n + d, ?_⟩
        rw [hn, ← Nat.toDigits_append_toDigits (by decide) hpos hd, Nat.toDigits_of_lt_base hd]
  · intro h
    obtain ⟨n, rfl⟩ := h
    exact ⟨Decimal.isDigits_toDigits n, Decimal.isWhole_toDigits n⟩

end ApiContract.Text
