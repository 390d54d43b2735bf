import ApiContract.Json.Literal
import Mathlib.Data.List.Basic

/-!
# Reading back what was encoded

A literal is read back as the text that it was written for. A character is written as itself, as an
escape of two characters, or by its UTF-16 units; `units` lists the units that its literal is read
as. No character is half of a surrogate pair, so the units of a text fall into characters in one way
only.

Whoever only looks for the end of a literal need not know the escapes: between the quotes a
quotation mark and a backslash stand after a backslash only (`Escaped`).

Main facts: `escaped_flatMap`, `hexValue?_hex`, `readUnits_encodeChar`, `ofUnits_units` and
`decode?_encode`.
-/

namespace ApiContract.Json

/-! ## What stands between the quotes -/

/-- A text in which every quotation mark and every backslash stands after a backslash, or is one
before another character. -/
inductive Escaped : List Char → Prop
  | nil : Escaped []
  | plain {c : Char} {text : List Char} (hquote : c ≠ '"') (hback : c ≠ '\\') (h : Escaped text) :
      Escaped (c :: text)
  | escape (c : Char) {text : List Char} (h : Escaped text) : Escaped ('\\' :: c :: text)

theorem Escaped.plain_append {text rest : List Char} (h : ∀ c ∈ text, c ≠ '"' ∧ c ≠ '\\')
    (hrest : Escaped rest) : Escaped (text ++ rest) := by
  induction text with
  | nil => exact hrest
  | cons c cs ih =>
    obtain ⟨⟨hquote, hback⟩, hcs⟩ := List.forall_mem_cons.1 h
    exact .plain hquote hback (ih hcs)

theorem mem_toDigits {b n : Nat} (hb : 1 < b) {c : Char} (h : c ∈ Nat.toDigits b n) :
    ∃ d < b, c = d.digitChar := by
  induction n using Nat.strongRecOn with
  | ind n ih =>
    rcases Nat.lt_or_ge n b with hn | hn
    · rw [Nat.toDigits_of_lt_base hn, List.mem_singleton] at h
      exact ⟨n, hn, h⟩
    · rw [Nat.toDigits_of_base_le hb hn, List.mem_append, List.mem_singleton] at h
      rcases h with h | h
      · exact ih (n / b) (Nat.div_lt_self (by omega) hb) h
      · exact ⟨n % b, Nat.mod_lt _ (by omega), h⟩

theorem plain_hex {width n : Nat} : ∀ c ∈ Text.hex width n, c ≠ '"' ∧ c ≠ '\\' := by
  have hdigit : ∀ d < 16, d.digitChar ≠ '"' ∧ d.digitChar ≠ '\\' := by decide
  intro c hc
  rcases List.mem_append.1 hc with hc | hc
  · rw [List.eq_of_mem_replicate hc]
    decide
  · obtain ⟨d, hd, rfl⟩ := mem_toDigits (by decide) hc
    exact hdigit d hd

theorem Escaped.unit_append (n : Nat) {rest : List Char} (h : Escaped rest) :
    Escaped (escapeUnit n ++ rest) :=
  .escape 'u' (plain_append plain_hex h)

theorem Escaped.char_append (c : Char) {rest : List Char} (h : Escaped rest) :
    Escaped (encodeChar c ++ rest) := by
  unfold encodeChar
  split_ifs with hquote hback
  -- the escapes of two characters
  iterate 7 exact .escape _ h
  · exact .plain hquote hback h
  · exact h.unit_append _
  · dsimp only
    rw [List.append_assoc]
    exact (h.unit_append _).unit_append _

theorem escaped_flatMap (text : List Char) : Escaped (text.flatMap encodeChar) := by
  induction text with
  | nil => exact .nil
  | cons c cs ih => exact ih.char_append c

/-! ## Escapes of four digits -/

theorem hexDigit?_digitChar : ∀ d < 16, hexDigit? d.digitChar = some d := by
  decide

theorem hexValue?_append_digit {digits : List Char} {n d : Nat} (h : hexValue? digits = some n)
    (hd : d < 16) : hexValue? (digits ++ [d.digitChar]) = some (16 * n + d) := by
  unfold hexValue? at h ⊢
  simp [h, hexDigit?_digitChar d hd]

theorem hexValue?_append_toDigits {zeros : List Char} (h : hexValue? zeros = some 0) (n : Nat) :
    hexValue? (zeros ++ Nat.toDigits 16 n) = some n := by
  induction n using Nat.strongRecOn with
  | ind n ih =>
    rcases Nat.lt_or_ge n 16 with hn | hn
    · rw [Nat.toDigits_of_lt_base hn, hexValue?_append_digit h hn]
      simp
    · have hless := ih (n / 16) (Nat.div_lt_self (by omega) (by decide))
      rw [Nat.toDigits_of_base_le (by decide) hn, ← List.append_assoc,
        hexValue?_append_digit hless (Nat.mod_lt n (by decide)), Nat.div_add_mod]

theorem hexValue?_replicate_zero (k : Nat) : hexValue? (List.replicate k '0') = some 0 := by
  induction k with
  | zero => rfl
  | succ k ih =>
    rw [List.replicate_succ']
    exact hexValue?_append_digit (d := 0) ih (by decide)

theorem hexValue?_hex (width n : Nat) : hexValue? (Text.hex width n) = some n :=
  hexValue?_append_toDigits (hexValue?_replicate_zero _) n

theorem exists_hex {n : Nat} (h : n < 0x10000) :
    ∃ h₁ h₂ h₃ h₄, Text.hex 4 n = [h₁, h₂, h₃, h₄] := by
  have hlength : (Text.hex 4 n).length = 4 := by
    have : (Nat.toDigits 16 n).length ≤ 4 :=
      (Nat.length_toDigits_le_iff (by decide) (by decide)).2 h
    simp only [Text.hex, List.length_append, List.length_replicate]
    omega
  match Text.hex 4 n, hlength with
  | [h₁, h₂, h₃, h₄], _ => exact ⟨h₁, h₂, h₃, h₄, rfl⟩

/-- An escape of four digits is read as its unit where the text goes on. -/
theorem readUnits_escapeUnit {n : Nat} (h : n < 0x10000) (opening : Nat) {rest : List Char}
    (hrest : rest ≠ []) :
    readUnits opening (escapeUnit n ++ rest) =
      (readUnits opening rest).map fun (s, r) => (n :: s, r) := by
  obtain ⟨h₁, h₂, h₃, h₄, hhex⟩ := exists_hex h
  obtain ⟨next, rest, rfl⟩ := List.exists_cons_of_ne_nil hrest
  have hvalue : hexValue? [h₁, h₂, h₃, h₄] = some n := hhex ▸ hexValue?_hex 4 n
  simp [escapeUnit, hhex, readUnits, hvalue]

theorem readUnits_pair {high low : Nat} (hhigh : high < 0x10000) (hlow : low < 0x10000)
    (opening : Nat) {rest : List Char} (hrest : rest ≠ []) :
    readUnits opening (escapeUnit high ++ escapeUnit low ++ rest) =
      (readUnits opening rest).map fun (s, r) => (high :: low :: s, r) := by
  rw [List.append_assoc, readUnits_escapeUnit hhigh opening (by simp [escapeUnit]),
    readUnits_escapeUnit hlow opening hrest]
  cases readUnits opening rest <;> rfl

/-! ## Characters and their units -/

/-- The UTF-16 units of a character. -/
def units (c : Char) : List Nat :=
  if c.toNat < 0x10000 then [c.toNat]
  else [0xD800 + (c.toNat - 0x10000) / 0x400, 0xDC00 + (c.toNat - 0x10000) % 0x400]

/-- No character is half of a surrogate pair. -/
theorem toNat_bounds (c : Char) :
    c.toNat < 0xD800 ∨ 0xDFFF < c.toNat ∧ c.toNat < 0x110000 :=
  c.valid

theorem ofUnits_units (c : Char) (rest : List Nat) :
    ofUnits (units c ++ rest) = c :: ofUnits rest := by
  have hbounds := toNat_bounds c
  unfold units
  split
  · next hsmall =>
    have hhigh : isHighSurrogate c.toNat = false := by
      simp only [isHighSurrogate, Bool.and_eq_false_iff, decide_eq_false_iff_not]
      omega
    have hlow : isLowSurrogate c.toNat = false := by
      simp only [isLowSurrogate, Bool.and_eq_false_iff, decide_eq_false_iff_not]
      omega
    have hchar : unitChar c.toNat = c := by
      rw [unitChar, hhigh, hlow]
      exact Char.ofNat_toNat c
    cases rest with
    | nil => simp [ofUnits, hchar]
    | cons m rest => simp [ofUnits, hhigh, hchar]
  · next hlarge =>
    have hhigh : isHighSurrogate (0xD800 + (c.toNat - 0x10000) / 0x400) = true := by
      simp only [isHighSurrogate, Bool.and_eq_true, decide_eq_true_eq]
      omega
    have hlow : isLowSurrogate (0xDC00 + (c.toNat - 0x10000) % 0x400) = true := by
      simp only [isLowSurrogate, Bool.and_eq_true, decide_eq_true_eq]
      omega
    have hchar : pairChar (0xD800 + (c.toNat - 0x10000) / 0x400)
        (0xDC00 + (c.toNat - 0x10000) % 0x400) = c := by
      have hcode : 0x10000 + (0xD800 + (c.toNat - 0x10000) / 0x400 - 0xD800) * 0x400 +
          (0xDC00 + (c.toNat - 0x10000) % 0x400 - 0xDC00) = c.toNat := by omega
      rw [pairChar, hcode, Char.ofNat_toNat]
    simp [ofUnits, hhigh, hlow, hchar]

theorem readUnits_escaped {c d : Char} (h : escaped? c = some d) (opening : Nat)
    (rest : List Char) : readUnits opening ('\\' :: c :: rest) =
      (readUnits opening rest).map fun (s, r) => (units d ++ s, r) := by
  unfold escaped? at h
  split at h <;> cases h <;> rfl

/-- A character inside a literal is read as its units. -/
theorem readUnits_encodeChar (c : Char) (opening : Nat) {rest : List Char} (hrest : rest ≠ []) :
    readUnits opening (encodeChar c ++ rest) =
      (readUnits opening rest).map fun (s, r) => (units c ++ s, r) := by
  have hbounds := toNat_bounds c
  unfold encodeChar
  split_ifs with hquote hback hfeed hreturn htab hbackspace hform hshown hsmall
  -- the escapes of two characters
  iterate 7 subst c; exact readUnits_escaped rfl opening rest
  · have hcode : c.toNat < 0x10000 := by omega
    have hplain : ¬ c.toNat < 0x20 := by omega
    simp [readUnits, hback, units, hcode, hplain]
  · rw [readUnits_escapeUnit hsmall opening hrest, units, if_pos hsmall]
    rfl
  · rw [units, if_neg hsmall]
    exact readUnits_pair (by omega) (by omega) opening hrest

theorem readUnits_flatMap (text : List Char) (opening : Nat) (rest : List Char) :
    readUnits opening (text.flatMap encodeChar ++ '"' :: rest) =
      .ok (text.flatMap units, rest) := by
  induction text with
  | nil => simp [readUnits]
  | cons c cs ih =>
    rw [List.flatMap_cons, List.append_assoc, readUnits_encodeChar c opening (by simp), ih]
    rfl

theorem ofUnits_flatMap (text : List Char) : ofUnits (text.flatMap units) = text := by
  induction text with
  | nil => rfl
  | cons c cs ih => rw [List.flatMap_cons, ofUnits_units, ih]

/-- **Reading back what was encoded.** The literal of a text is read as the text. -/
theorem decode?_encode (text : List Char) : decode? (encode text) = some text := by
  simp [decode?, encode, readBody, readUnits_flatMap, ofUnits_flatMap, Except.map]

end ApiContract.Json
