import ApiContract.Complaint
import ApiContract.Decoding
import ApiContract.Files

/-!
# Failures of a run

A run fails with a complaint, which has a text and an exit code of its own, or with something that
nobody foresaw: a description that is broken in a way that is not reported, a value that cannot be
read, a file that is not UTF-8, a refusal of the system, or a message that cannot be shown.
-/

namespace ApiContract

/-- Why a run fails. -/
inductive Failure
  | complaint (c : Complaint)
  | description (fault : Description.Fault)
  | value (fault : Yaml.Fault)
  | encoding
  | system (fault : Files.Fault)
  | markup
  deriving DecidableEq, Repr

namespace Failure

/-- The exit code of a failure. -/
def exitCode : Failure → Int
  | complaint c => c.exitCode
  | _ => Category.general.exitCode

/-- What is said about a failure that nobody foresaw. -/
def unforeseenText : Failure → String
  | complaint c => c.text
  | description _ => "the description is broken"
  | value (.failed text) => text
  | value _ => "a value cannot be read"
  | encoding => "a file is not UTF-8"
  | system fault => fault.text
  | markup => "a message cannot be shown"

/-- The failure for a fault in the structure of a description. A pointer that leads nowhere is
complained about. -/
def ofDescription : Description.Fault → Failure
  | .pointer fault => complaint (.description fault.message)
  | fault => description fault

/-- The failure for a fault in generating. -/
def ofGeneration : Generation.Fault → Failure
  | .circular names => complaint (.circular names)
  | .unresolved names => complaint (.unresolved names)
  | .description fault => ofDescription fault

/-- The failure for a fault in decoding `text`. -/
def ofDecoding (text : List Char) (fault : Decoding.Fault) : Failure :=
  match fault, fault.message? text with
  | _, some message => complaint (.description message)
  | .value fault, none => value fault
  | _, none => value .malformed

end Failure

end ApiContract
