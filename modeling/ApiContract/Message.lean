/-!
# What a run says

A run says two sorts of things, and says them in order: a `Message.report` is meant for the user and
goes through a channel, a `Message.note` belongs to the log of one of the library's activities.
-/

namespace ApiContract

/-- What a report to the user is about. -/
inductive Channel
  | info
  | progress
  | success
  | warning
  | error
  | suggestion
  | debug
  deriving DecidableEq, Repr

/-- The activities that keep a log. -/
inductive Topic
  | loading
  | schemas
  | ordering
  | operations
  | generation
  | command
  deriving DecidableEq, Repr

/-- The name under which an activity keeps its log. -/
def Topic.name : Topic → String
  | loading => "zodgen.parser.loader"
  | schemas => "zodgen.parser.document"
  | ordering => "zodgen.compiler.ordering"
  | operations => "zodgen.compiler.operations"
  | generation => "zodgen.pipeline"
  | command => "zodgen.app"

/-- Something that a run says. -/
inductive Message
  | report (channel : Channel) (text : String)
  | note (topic : Topic) (text : String)
  deriving DecidableEq, Repr

end ApiContract
