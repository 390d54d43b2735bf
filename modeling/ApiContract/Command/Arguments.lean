/-!
# Arguments of a command line

Options have a long spelling or one of a single letter; letters can be joined behind one hyphen, and
a value follows its option as the next argument, after an equals sign, or right behind its letter.
Two hyphens end the options. What is no option is left over, and may end the options too.
-/

namespace ApiContract.Arguments

/-- A spelling of an option. -/
structure Spelling (κ : Type) where
  text : String
  option : κ
  takesValue : Bool := false

/-- Why arguments are not understood. -/
inductive Fault
  | unknown (option : String)
  | needsValue (option : String)
  | takesNoValue (option : String)
  deriving DecidableEq, Repr

/-- The options of a command line in order, and the arguments that are none. -/
structure Parsed (κ : Type) where
  options : List (κ × Option String)
  others : List String
  deriving Repr

variable {κ : Type}

/-- Whether an argument has the form of options. -/
def isOption (arg : String) : Bool :=
  match arg.toList with
  | '-' :: _ :: _ => true
  | _ => false

/-- Whether an argument has the form of a long option. -/
def isLong (arg : String) : Bool :=
  "--".toList.isPrefixOf arg.toList

/-- The option of a spelling. -/
def find? (table : List (Spelling κ)) (text : String) : Option (Spelling κ) :=
  table.find? fun s => s.text == text

/-- The options of letters; the last one may wait for its value. -/
def letters (table : List (Spelling κ)) :
    List Char → Except Fault (List (κ × Option String) × Option (Spelling κ))
  | [] => .ok ([], none)
  | c :: rest =>
    let text := String.ofList ['-', c]
    match find? table text with
    | none => .error (.unknown text)
    | some s =>
      if s.takesValue then
        if rest = [] then .ok ([], some s) else .ok ([(s.option, some (String.ofList rest))], none)
      else (letters table rest).map fun (options, waiting) => ((s.option, none) :: options, waiting)

/-- The part of a long option before an equals sign, and the value after it. -/
def cut (arg : String) : String × Option String :=
  let name := arg.toList.takeWhile (· ≠ '=')
  match arg.toList.drop name.length with
  | _ :: value => (String.ofList name, some (String.ofList value))
  | [] => (arg, none)

/-- The options of one argument; the last one may wait for its value. -/
def readOption (table : List (Spelling κ)) (arg : String) :
    Except Fault (List (κ × Option String) × Option (Spelling κ)) :=
  let (name, value) := cut arg
  match find? (table.filter fun s => isLong s.text) name, value with
  | some s, value =>
    if s.takesValue then
      match value with
      | some v => .ok ([(s.option, some v)], none)
      | none => .ok ([], some s)
    else if value.isSome then .error (.takesNoValue name)
    else .ok ([(s.option, none)], none)
  | none, _ => if isLong arg then .error (.unknown name) else letters table (arg.toList.drop 1)

/-- Reads the arguments of a command. If others may not come between the options, the first one
ends them. -/
def read (table : List (Spelling κ)) (between : Bool) : List String → Except Fault (Parsed κ)
  | [] => .ok ⟨[], []⟩
  | arg :: rest =>
    if arg = "--" then .ok ⟨[], rest⟩
    else if isOption arg then
      match readOption table arg with
      | .error fault => .error fault
      | .ok (options, none) => (read table between rest).map fun p =>
        { p with options := options ++ p.options }
      | .ok (options, some s) =>
        match rest with
        | [] => .error (.needsValue s.text)
        | value :: rest => (read table between rest).map fun p =>
          { p with options := options ++ (s.option, some value) :: p.options }
    else if between then (read table between rest).map fun p => { p with others := arg :: p.others }
    else .ok ⟨[], arg :: rest⟩

namespace Parsed

/-- Whether an option is given. -/
def has [DecidableEq κ] (p : Parsed κ) (option : κ) : Bool :=
  p.options.any fun o => o.1 = option

/-- The value of an option; the last one given counts. -/
def value? [DecidableEq κ] (p : Parsed κ) (option : κ) : Option String :=
  (p.options.reverse.find? fun o => o.1 = option).bind (·.2)

end Parsed

end ApiContract.Arguments
