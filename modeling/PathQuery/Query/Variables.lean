import PathQuery.Query.Instruction

/-!
# Query variables

An object of kind `variable` stands for one of the values supplied with a query. What is put in
its place is taken as it is and not searched for further variables.
-/

set_option autoImplicit false

namespace PathQuery

namespace Variables

/-- The value that a variable object stands for. -/
def referent (key : String) (values : List Json) (reference : Json) : Except Error Json :=
  match ((reference.member? "index").bind Json.unsigned?).bind fun index => values[index]? with
  | some value => .ok value
  | none => .error (Instruction.invalid key reference
      s!"variable index out of range, {values.length} variables were supplied")

mutual

def substitute (key : String) (values : List Json) : Json → Except Error Json
  | .array items => (substituteItems key values items).map .array
  | .object members =>
    if Instruction.kind? (.object members) = some "variable" then
      referent key values (.object members)
    else (substituteMembers key values members).map .object
  | query => .ok query

def substituteItems (key : String) (values : List Json) : List Json → Except Error (List Json)
  | [] => .ok []
  | item :: rest => do
    let item ← substitute key values item
    let rest ← substituteItems key values rest
    return item :: rest

def substituteMembers (key : String) (values : List Json) :
    List (String × Json) → Except Error (List (String × Json))
  | [] => .ok []
  | (name, value) :: rest => do
    let value ← substitute key values value
    let rest ← substituteMembers key values rest
    return (name, value) :: rest

end

end Variables

end PathQuery
