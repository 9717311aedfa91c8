import PathQuery.Error
import PathQuery.Json.Printer

/-!
# Instructions

A query is a list of instructions: a step, which is a string or a number, or an object tagged by
its `kind`. Fields are read by name, and what is wrong with one is reported with the instruction
as it was received.
-/

set_option autoImplicit false

namespace PathQuery

namespace Instruction

def kind? (instruction : Json) : Option String :=
  (instruction.member? "kind").bind Json.string?

def invalid (key : String) (received : Json) (reason : String) : Error :=
  .invalidQuery key received.text reason

/-- A field that is a list of instructions, if it is there. -/
def instructions? (key : String) (instruction : Json) (field : String) :
    Except Error (Option (List Json)) :=
  match instruction.member? field with
  | none => .ok none
  | some (.array items) => .ok (some items)
  | some _ => .error (invalid key instruction s!"'{field}' must be a list of instructions")

def positive (key : String) (instruction : Json) (field : String) : Except Error Nat :=
  match (instruction.member? field).bind Json.unsigned? with
  | some (n + 1) => .ok (n + 1)
  | _ => .error (invalid key instruction s!"'{field}' must be a positive integer")

end Instruction

end PathQuery
