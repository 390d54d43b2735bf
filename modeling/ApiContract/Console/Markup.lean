import ApiContract.Text.Blank
import ApiContract.Text.Case

/-!
# Markup of messages

On a terminal with colours a message is markup: a word in brackets is a tag that opens a style, and
one with a slash closes it. Tags do not show. A backslash before a bracket keeps it as text; of a
run of backslashes before a tag every two show as one.

`render` gives the text that shows. It refuses a closing tag that closes nothing; tags of one style
have one name, and what a style is called does not matter otherwise. A run may find another console
(`World.render`), and what is proved of runs holds of any.

Main facts: `piecesFrom_of_no_bracket` and `show?_map_char`, that a text without brackets has no tag
and shows as it is.
-/

namespace ApiContract.Markup

/-- A piece of markup. -/
inductive Piece
  /-- A character outside every tag. -/
  | char (c : Char)
  /-- A text that shows as it is, brackets included. -/
  | verbatim (text : List Char)
  /-- A tag with the text up to an equals sign. -/
  | tag (name : List Char)
  deriving DecidableEq, Repr

/-- A character with which a tag begins: a small letter, a slash, a number sign or an at sign. -/
def beginsTag (c : Char) : Bool :=
  ('a' ≤ c && c ≤ 'z') || c == '#' || c == '/' || c == '@'

/-- The inside of the tag that a text begins with, if it begins with one. -/
def tagInside? (text : List Char) : Option (List Char) :=
  match text with
  | '[' :: c :: rest =>
    let inside := rest.takeWhile fun d => d != '[' && d != ']'
    if beginsTag c && (rest.drop inside.length).head? == some ']' then some (c :: inside) else none
  | _ => none

/-- The pieces of a text whose next `skip` characters belong to a piece already found. -/
def piecesFrom : Nat → List Char → List Piece
  | _, [] => []
  | skip + 1, _ :: cs => piecesFrom skip cs
  | 0, c :: cs =>
    let slashes := ((c :: cs).takeWhile (· == '\\')).length
    match tagInside? ((c :: cs).drop slashes) with
    | none => .char c :: piecesFrom 0 cs
    | some inside =>
      let shown := if slashes < 2 then [] else [.verbatim (List.replicate (slashes / 2) '\\')]
      let piece := if slashes % 2 = 1 then .verbatim ('[' :: inside ++ [']'])
        else .tag (inside.takeWhile (· ≠ '='))
      shown ++ piece :: piecesFrom (slashes + inside.length + 1) cs

/-- The names of the attributes of a style, and their short forms. -/
def attributes : List (String × String) := [
  ("bold", "bold"), ("b", "bold"), ("dim", "dim"), ("d", "dim"), ("italic", "italic"),
  ("i", "italic"), ("underline", "underline"), ("u", "underline"), ("blink", "blink"),
  ("blink2", "blink2"), ("reverse", "reverse"), ("r", "reverse"), ("conceal", "conceal"),
  ("c", "conceal"), ("strike", "strike"), ("s", "strike"), ("underline2", "underline2"),
  ("uu", "underline2"), ("frame", "frame"), ("encircle", "encircle"), ("overline", "overline"),
  ("o", "overline")]

/-- The order in which a style lists its attributes. -/
def attributeOrder : List String :=
  ["bold", "dim", "italic", "underline", "blink", "blink2", "reverse", "conceal", "strike",
    "underline2", "frame", "encircle", "overline"]

/-- The colours with names of their own. -/
def colours : List String :=
  ["default", "black", "red", "green", "yellow", "blue", "magenta", "cyan", "white", "bright_black",
    "bright_red", "bright_green", "bright_yellow", "bright_blue", "bright_magenta", "bright_cyan",
    "bright_white"]

/-- The name of a style under which tags find each other: attributes in a fixed order and then the
last colour, if it consists of these; any other name in small letters. -/
def styleName (name : List Char) : String :=
  let words := (Text.words name).map fun w => String.ofList (Text.lower w)
  let known := words.filterMap fun w => attributes.lookup w
  let chosen := words.filter fun w => w ∈ colours
  if words ≠ [] ∧ known.length + chosen.length = words.length then
    " ".intercalate (attributeOrder.filter (· ∈ known) ++ chosen.getLast?.toList)
  else String.ofList (Text.lower (Text.trim name))

/-- The open styles without the last one of a name, if there is one. -/
def close? (name : String) : List String → Option (List String)
  | [] => none
  | s :: open' => if s = name then some open' else (close? name open').map (s :: ·)

/-- The text that pieces show, with styles open, the last one first. -/
def show? (styles : List String) : List Piece → Option (List Char)
  | [] => some []
  | .char '\\' :: .char '[' :: rest => (show? styles rest).map ('[' :: ·)
  | .char c :: rest => (show? styles rest).map (c :: ·)
  | .verbatim text :: rest => (show? styles rest).map (text ++ ·)
  | .tag ('/' :: name) :: rest =>
    if Text.trim name = [] then
      match styles with
      | [] => none
      | _ :: styles => show? styles rest
    else (close? (styleName name) styles).bind fun styles => show? styles rest
  | .tag name :: rest => show? (styleName name :: styles) rest

/-- Control characters that never show: bell, backspace, vertical tab, form feed, return. -/
def isSilent (c : Char) : Bool :=
  c.toNat == 7 || c.toNat == 8 || c.toNat == 11 || c.toNat == 12 || c.toNat == 13

/-- The text that markup shows, unless a closing tag closes nothing. -/
def render (markup : List Char) : Option (List Char) :=
  (show? [] (piecesFrom 0 markup)).map fun text => text.filter fun c => !isSilent c

theorem tagInside?_eq_none {text : List Char} (h : '[' ∉ text) : tagInside? text = none := by
  unfold tagInside?
  split
  · simp at h
  · rfl

theorem piecesFrom_of_no_bracket {text : List Char} (h : '[' ∉ text) :
    piecesFrom 0 text = text.map .char := by
  induction text with
  | nil => rfl
  | cons c cs ih =>
    have hd : tagInside? ((c :: cs).drop ((c :: cs).takeWhile (· == '\\')).length) = none :=
      tagInside?_eq_none fun hm => h (List.mem_of_mem_drop hm)
    simp only [piecesFrom, hd, List.map_cons]
    rw [ih fun hm => h (List.mem_cons_of_mem _ hm)]

theorem show?_map_char {text : List Char} (h : '[' ∉ text) (styles : List String) :
    show? styles (text.map .char) = some text := by
  induction text with
  | nil => rfl
  | cons c cs ih =>
    have hcs : '[' ∉ cs := fun hm => h (List.mem_cons_of_mem _ hm)
    cases cs with
    | nil => simp [show?]
    | cons d ds =>
      have hd : d ≠ '[' := fun e => hcs (e ▸ List.mem_cons_self)
      simp only [List.map_cons] at ih ⊢
      rw [show?]
      · simp [ih hcs]
      · intro _ h2 _
        exact hd (by simpa using (List.cons.inj h2).1)

example : render "[bold]x[/b] [1]".toList = some "x [1]".toList := by decide +kernel
example : render "\\[debug] a\\\\[red]b".toList = some "[debug] a\\b".toList := by decide +kernel
example : render "[/nope]".toList = none := by decide +kernel

end ApiContract.Markup
