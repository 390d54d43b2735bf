import ApiContract.Text.Pieces

/-!
# Blank characters

Which characters separate words: the control characters that move the writing position or part
records, and the Unicode spaces. `trim` takes them off both ends, `words` cuts a text at them.

Main facts: `ne_nil_of_mem_words` and `not_isBlank_of_mem_words` (what a word is).
-/

namespace ApiContract.Text

/-- A blank: the control characters 9 to 13 and 28 to 31, the blank, the next-line control, the
no-break space, or a space or separator of Unicode. -/
def isBlank (c : Char) : Bool :=
  let n := c.toNat
  (9 ≤ n && n ≤ 13) || (28 ≤ n && n ≤ 32) || n == 0x85 || n == 0xA0 || n == 0x1680 ||
    (0x2000 ≤ n && n ≤ 0x200A) || n == 0x2028 || n == 0x2029 || n == 0x202F || n == 0x205F ||
    n == 0x3000

/-- The text without the blanks at either end. -/
def trim (text : List Char) : List Char :=
  dropEndWhile isBlank (text.dropWhile isBlank)

/-- The words of a text: its longest runs without a blank. -/
def words (text : List Char) : List (List Char) :=
  (pieces isBlank text).filter (· ≠ [])

/-- A text with nothing but blanks in it. -/
def allBlank (text : List Char) : Bool :=
  text.all isBlank

theorem ne_nil_of_mem_words {text w : List Char} (h : w ∈ words text) : w ≠ [] := by
  simpa using (List.mem_filter.1 h).2

theorem not_isBlank_of_mem_words {text w : List Char} (h : w ∈ words text) :
    ∀ c ∈ w, isBlank c = false :=
  not_mem_of_mem_pieces (List.mem_filter.1 h).1

end ApiContract.Text
