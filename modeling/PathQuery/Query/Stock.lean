import PathQuery.Query.Operator

/-!
# Stock operators

Operators for hosts and fixtures. Each applies to an instruction of its own kind.
-/

set_option autoImplicit false

namespace PathQuery.Operator

/-- Sets the value to the one of the instruction; the resolvers of the node do not run. -/
def const : Operator := ofKind "const" fun _ _ head _ =>
  return some fun context next => next (context.setValue (some ((head.member? "value").getD .null)))

def count : Operator := ofKind "count" fun position node _ _ =>
  match node.kind with
  | .array => return some <| position.enclose node none <| position.onSettled node fun _ value =>
      return match value with
        | .array items => some (.ofNat items.length)
        | _ => none
  | _ => return none

/-- Takes the value that the resolvers leave as it is, and gives them the input of the
instruction. -/
def raw : Operator := ofKind "raw" fun position node head _ =>
  return some <| position.enclose node (head.member? "input") fun context => return context.value?

/-- Lets the node stay undefined. -/
def maybe : Operator := ofKind "maybe" fun position node _ rest => do
  return some (← position.compile true node rest)

/-- Describes the position at which it is compiled. -/
def info : Operator := ofKind "info" fun position node _ rest =>
  let execution := position.setting.execution
  let report := Json.object [("key", .string node.key), ("kind", .string node.kind.name),
    ("optional", .bool position.optional), ("entry", .string position.setting.entry),
    ("rest", .ofNat rest.length), ("parallel", .bool execution.parallel),
    ("recursionLimit", .ofNat execution.recursionLimit),
    ("maxPageSize", (execution.maxPageSize.map Json.ofNat).getD .null)]
  return some fun context next => next (context.setValue (some report))

def reject : Operator := ofKind "reject" fun _ node _ _ =>
  Traced.fail (.invalidQuery node.key "reject" "rejected by the host")

/-- Navigates by the name given in place of the fields. -/
def pick : Operator := ofKind "select" fun position node head rest =>
  match (head.member? "fields").bind Json.string? with
  | some name => do
    let child ← node.named position.setting.reach name
    return some (← position.compile position.optional child rest)
  | none => return none

end PathQuery.Operator
