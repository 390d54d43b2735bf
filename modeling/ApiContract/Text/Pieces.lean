/-!
# Cutting and joining texts

Texts are handled as lists of characters. `pieces` cuts a text at every character of a class and
`join` puts pieces together again; `replaceAll` replaces one pattern, from left to right and
without looking at what it has just written.

Main facts: `pieces_ne_nil` (cutting always leaves a piece), `not_mem_of_mem_pieces` (no piece holds
a separator), `pieces_append_cons` (a separator parts the pieces before it from those after it),
`piecesAt_join` (cutting undoes joining where no piece holds the separator), `exists_dropEndWhile`
(what is dropped at the end), `replaceAll_singleton` (one character is replaced wherever it stands),
`mem_of_mem_replaceAll` and `mem_of_mem_join` (where the characters of a text put together come
from).
-/

namespace ApiContract.Text

/-- The pieces of a text between the characters of the class `p`; there is always at least one. -/
def pieces (p : Char → Bool) : List Char → List (List Char)
  | [] => [[]]
  | c :: cs => if p c then [] :: pieces p cs else (pieces p cs).modifyHead (c :: ·)

/-- The pieces of a text between the occurrences of one character. -/
def piecesAt (sep : Char) (text : List Char) : List (List Char) :=
  pieces (· == sep) text

/-- The pieces in order, with `sep` between each two neighbours. -/
def join (sep : List Char) : List (List Char) → List Char
  | [] => []
  | [w] => w
  | w :: ws => w ++ sep ++ join sep ws

/-- Replacing inside a text of which the next `skip` characters belong to an occurrence that is
already written anew. -/
def replaceFrom (old new : List Char) : Nat → List Char → List Char
  | _, [] => []
  | skip + 1, _ :: cs => replaceFrom old new skip cs
  | 0, c :: cs =>
    if old ≠ [] ∧ old.isPrefixOf (c :: cs) then new ++ replaceFrom old new (old.length - 1) cs
    else c :: replaceFrom old new 0 cs

/-- The text with every occurrence of `old` replaced by `new`, scanning from the left; an empty
pattern occurs nowhere. -/
def replaceAll (old new text : List Char) : List Char :=
  replaceFrom old new 0 text

/-- The text without the characters of the class `p` at its end. -/
def dropEndWhile (p : Char → Bool) (text : List Char) : List Char :=
  (text.reverse.dropWhile p).reverse

/-- Whether a text occurs inside another. -/
def occursIn (pattern : List Char) : List Char → Bool
  | [] => pattern.isEmpty
  | c :: cs => pattern.isPrefixOf (c :: cs) || occursIn pattern cs

/-- The texts joined with a comma and a blank. -/
def commaSeparated (words : List String) : String :=
  ", ".intercalate words

theorem pieces_ne_nil (p : Char → Bool) (text : List Char) : pieces p text ≠ [] := by
  induction text with
  | nil => simp [pieces]
  | cons c cs ih =>
    cases h : pieces p cs with
    | nil => exact absurd h ih
    | cons w ws => by_cases hp : p c <;> simp [pieces, hp, h]

theorem not_mem_of_mem_pieces {p : Char → Bool} {text w : List Char} (hw : w ∈ pieces p text) :
    ∀ c ∈ w, p c = false := by
  induction text generalizing w with
  | nil => simp [pieces] at hw; simp [hw]
  | cons c cs ih =>
    cases h : pieces p cs with
    | nil => exact absurd h (pieces_ne_nil p cs)
    | cons v vs =>
      by_cases hp : p c
      · simp only [pieces, hp, if_true, List.mem_cons] at hw
        rcases hw with rfl | hw
        · simp
        · exact ih hw
      · simp only [pieces, hp, h, List.modifyHead_cons] at hw
        rcases List.mem_cons.1 hw with rfl | hw
        · intro d hd
          rcases List.mem_cons.1 hd with rfl | hd
          · simpa using hp
          · exact ih (by simp [h]) d hd
        · exact ih (by simp [h, hw])

theorem mem_of_mem_pieces {p : Char → Bool} {text w : List Char} (hw : w ∈ pieces p text) :
    ∀ c ∈ w, c ∈ text := by
  induction text generalizing w with
  | nil =>
    rw [pieces, List.mem_singleton] at hw
    simp [hw]
  | cons c cs ih =>
    intro d hd
    cases h : pieces p cs with
    | nil => exact absurd h (pieces_ne_nil p cs)
    | cons v vs =>
      rw [h] at ih
      by_cases hp : p c
      · simp only [pieces, hp, if_true, h, List.mem_cons] at hw
        rcases hw with rfl | hw
        · cases hd
        · exact List.mem_cons_of_mem _ (ih (List.mem_cons.2 hw) d hd)
      · simp only [pieces, hp, h, List.modifyHead_cons] at hw
        rcases List.mem_cons.1 hw with rfl | hw
        · rcases List.mem_cons.1 hd with rfl | hd
          · exact List.mem_cons_self
          · exact List.mem_cons_of_mem _ (ih List.mem_cons_self d hd)
        · exact List.mem_cons_of_mem _ (ih (List.mem_cons_of_mem _ hw) d hd)

/-- A text without separators is one piece. -/
theorem pieces_of_forall {p : Char → Bool} {text : List Char} (h : ∀ c ∈ text, p c = false) :
    pieces p text = [text] := by
  induction text with
  | nil => rfl
  | cons c cs ih =>
    obtain ⟨hc, hcs⟩ := List.forall_mem_cons.1 h
    simp [pieces, hc, ih hcs]

/-- A separator parts the pieces before it from those after it. -/
theorem pieces_append_cons {p : Char → Bool} {sep : Char} (h : p sep) (before after : List Char) :
    pieces p (before ++ sep :: after) = pieces p before ++ pieces p after := by
  induction before with
  | nil => simp [pieces, h]
  | cons c cs ih =>
    by_cases hc : p c
    · simp [pieces, hc, ih]
    · cases hcs : pieces p cs with
      | nil => exact absurd hcs (pieces_ne_nil p cs)
      | cons w ws => simp [pieces, hc, ih, hcs]

/-- Pieces without the separator are found again when they were joined by it. -/
theorem piecesAt_join {sep : Char} {words : List (List Char)} (hne : words ≠ [])
    (h : ∀ w ∈ words, sep ∉ w) : piecesAt sep (join [sep] words) = words := by
  have hplain : ∀ w ∈ words, ∀ c ∈ w, (c == sep) = false := by
    intro w hw c hc
    rw [beq_eq_false_iff_ne]
    intro heq
    exact h w hw (heq ▸ hc)
  fun_induction join [sep] words with
  | case1 => exact absurd rfl hne
  | case2 w => exact pieces_of_forall (hplain w List.mem_cons_self)
  | case3 w ws hws ih =>
    obtain ⟨hw, hothers⟩ := List.forall_mem_cons.1 hplain
    have hrest : pieces (· == sep) (join [sep] ws) = ws :=
      ih hws (fun v hv => h v (List.mem_cons_of_mem w hv)) hothers
    rw [piecesAt, List.append_assoc, List.singleton_append,
      pieces_append_cons (p := (· == sep)) (by simp), pieces_of_forall hw, hrest]
    rfl

theorem dropEndWhile_eq_self {p : Char → Bool} {text : List Char}
    (h : ∀ c ∈ text.getLast?, p c = false) : dropEndWhile p text = text := by
  rcases List.eq_nil_or_concat text with rfl | ⟨front, c, rfl⟩
  · rfl
  · have hc : p c = false := h c (by simp)
    rw [dropEndWhile, List.concat_eq_append, List.reverse_append, List.reverse_singleton,
      List.singleton_append, List.dropWhile_cons, hc]
    simp

theorem dropEndWhile_concat {p : Char → Bool} {c : Char} (h : p c) (text : List Char) :
    dropEndWhile p (text ++ [c]) = dropEndWhile p text := by
  rw [dropEndWhile, List.reverse_append, List.reverse_singleton, List.singleton_append,
    List.dropWhile_cons_of_pos h, dropEndWhile]

/-- What is dropped at the end are characters of the class. -/
theorem exists_dropEndWhile (p : Char → Bool) (text : List Char) :
    ∃ back, text = dropEndWhile p text ++ back ∧ ∀ c ∈ back, p c := by
  refine ⟨(text.reverse.takeWhile p).reverse, ?_, fun c hc => ?_⟩
  · rw [dropEndWhile, ← List.reverse_append, List.takeWhile_append_dropWhile, List.reverse_reverse]
  · exact List.all_eq_true.1 List.all_takeWhile c (List.mem_reverse.1 hc)

/-- One character is replaced character by character. -/
theorem replaceAll_singleton (a : Char) (new text : List Char) :
    replaceAll [a] new text = text.flatMap (fun c => if c = a then new else [c]) := by
  unfold replaceAll
  induction text with
  | nil => rfl
  | cons c cs ih =>
    by_cases h : c = a
    · subst h; simp [replaceFrom, ih]
    · simp [replaceFrom, h, Ne.symm h, ih]

theorem mem_of_mem_replaceFrom {old new text : List Char} {skip : Nat} {c : Char}
    (h : c ∈ replaceFrom old new skip text) : c ∈ text ∨ c ∈ new := by
  fun_induction replaceFrom old new skip text with
  | case1 => cases h
  | case2 skip d text ih => exact (ih h).imp_left (List.mem_cons_of_mem d)
  | case3 d text hold ih =>
    rcases List.mem_append.1 h with h | h
    · exact .inr h
    · exact (ih h).imp_left (List.mem_cons_of_mem d)
  | case4 d text hold ih =>
    rcases List.mem_cons.1 h with rfl | h
    · exact .inl List.mem_cons_self
    · exact (ih h).imp_left (List.mem_cons_of_mem d)

/-- Replacing brings in no characters but those of the new text. -/
theorem mem_of_mem_replaceAll {old new text : List Char} {c : Char}
    (h : c ∈ replaceAll old new text) : c ∈ text ∨ c ∈ new :=
  mem_of_mem_replaceFrom h

theorem mem_of_mem_join {sep : List Char} {texts : List (List Char)} {c : Char}
    (h : c ∈ join sep texts) : c ∈ sep ∨ ∃ w ∈ texts, c ∈ w := by
  fun_induction join sep texts with
  | case1 => cases h
  | case2 w => exact .inr ⟨w, List.mem_cons_self, h⟩
  | case3 w texts hne ih =>
    rw [List.append_assoc, List.mem_append, List.mem_append] at h
    rcases h with h | h | h
    · exact .inr ⟨w, List.mem_cons_self, h⟩
    · exact .inl h
    · exact (ih h).imp_right fun ⟨v, hv, hc⟩ => ⟨v, List.mem_cons_of_mem w hv, hc⟩

end ApiContract.Text
