import ApiContract.Text.Case.Table

/-!
# Letter case

`upperChar` gives the capital form of one character, which may be several letters; `lower` gives
the small form of a text, in which a capital sigma at the end of a word becomes the final sigma.
-/

namespace ApiContract.Text

namespace Case

/-- The image of a code point under the first run that holds it. -/
def shifted (runs : List Run) (n : Nat) : Nat :=
  match runs.find? fun r => r.first ≤ n && n ≤ r.last && (n - r.first) % r.step == 0 with
  | some r => ((n : Int) + r.shift).toNat
  | none => n

/-- The image of a character: a listed word, else the shifted character. -/
def image (runs : List Run) (wordsOf : List (Nat × List Nat)) (c : Char) : List Char :=
  match wordsOf.lookup c.toNat with
  | some ns => ns.map Char.ofNat
  | none => [Char.ofNat (shifted runs c.toNat)]

/-- Whether a code point lies in one of the ranges. -/
def inRanges (ranges : List (Nat × Nat)) (c : Char) : Bool :=
  ranges.any fun (first, last) => first ≤ c.toNat && c.toNat ≤ last

/-- Whether the nearest character that counts is a letter with a case. -/
def meetsLetter (text : List Char) : Bool :=
  match text.find? fun c => !inRanges passedOver c with
  | some c => inRanges cased c
  | none => false

end Case

/-- The capital form of a character. -/
def upperChar (c : Char) : List Char :=
  if c.toNat < 128 then [c.toUpper] else Case.image Case.toCapital Case.toCapitals c

/-- The small form of a text whose characters before it are `before`, the nearest first. -/
def lowerFrom : (before text : List Char) → List Char
  | _, [] => []
  | before, c :: cs =>
    let small :=
      if c.toNat < 128 then [c.toLower]
      else if c = 'Σ' then
        [if Case.meetsLetter before && !Case.meetsLetter cs then 'ς' else 'σ']
      else Case.image Case.toSmall Case.toSmalls c
    small ++ lowerFrom (c :: before) cs

/-- The small form of a text. -/
def lower (text : List Char) : List Char :=
  lowerFrom [] text

/-- The text with the first character in its capital form. -/
def upperFirst : List Char → List Char
  | [] => []
  | c :: cs => upperChar c ++ cs

example : upperChar 'ß' = ['S', 'S'] := by decide +kernel
example : lower "ΟΔΟΣ Σ".toList = "οδος σ".toList := by decide +kernel

end ApiContract.Text
