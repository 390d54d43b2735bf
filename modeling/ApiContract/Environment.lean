/-!
# Variables of the surroundings

Variables by their names, each with a text.
-/

namespace ApiContract

/-- Variables of the surroundings. -/
abbrev Environment := List (String × String)

namespace Environment

/-- The value of a variable. -/
def get? (env : Environment) (name : String) : Option String :=
  env.lookup name

/-- Whether the surroundings ask for plain text. -/
def asksForPlain (env : Environment) : Bool :=
  (env.get? "NO_COLOR").isSome || env.get? "TERM" == some "dumb"

/-- The value of a variable, unless it is empty. -/
def filled? (env : Environment) (name : String) : Option String :=
  (env.get? name).filter (· ≠ "")

end Environment

end ApiContract
