/-!
# Request methods

The methods for which functions are generated, in the order in which they are emitted for a path.
-/

namespace ApiContract

/-- A request method. -/
inductive Method
  | get
  | post
  | put
  | patch
  | delete
  deriving DecidableEq, Repr

namespace Method

/-- All methods, in the order of emission. -/
def all : List Method := [get, post, put, patch, delete]

/-- The name of a method in a description. -/
def name : Method → String
  | get => "get"
  | post => "post"
  | put => "put"
  | patch => "patch"
  | delete => "delete"

/-- The method with a name. -/
def ofName? (name : String) : Option Method :=
  all.find? fun m => m.name == name

/-- The name of a method in a request. -/
def wireName : Method → String
  | get => "GET"
  | post => "POST"
  | put => "PUT"
  | patch => "PATCH"
  | delete => "DELETE"

/-- Whether a request by the method carries a body. -/
def hasBody : Method → Bool
  | post | put | patch => true
  | get | delete => false

/-- The function of the client that sends a request by the method. -/
def clientName : Method → String
  | delete => "del"
  | m => m.name

theorem mem_all (m : Method) : m ∈ all := by
  cases m <;> simp [all]

end Method

end ApiContract
