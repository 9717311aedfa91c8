import PathQuery.Graph.Walk
import PathQuery.Json.Printer

/-!
# Matching values against structures

A value fits a structure when its shape is compatible with it. Of an object only the members that
are present are looked at: a missing one never disqualifies, an undeclared one always does. The
member of a union that a value stands for is the only one that it fits.
-/

set_option autoImplicit false

namespace PathQuery

namespace Matching

/-- Whether a value fits a node. The bound counts wrappers, union members and levels of the
value. -/
def fits : Nat → Node → Json → Walk Bool
  | 0, node, _ => node.endless
  | reach + 1, node, value =>
    match node.shape with
    | .root _ => return false
    | .ref .. => do fits reach (← node.step .target) value
    | .typeAlias .. => do fits reach (← node.step .body) value
    | .primitive _ type => return type.admits value
    | .literal _ constant => return constant == value
    | .nullable .. => do
      if value.isNull then return true else fits reach (← node.step .inner) value
    | .array .. =>
      match value with
      | .array items => do
        let item ← node.step .items
        Traced.allM (fits reach item) items
      | _ => return false
    | .union .. => do
      let members ← node.allMembers
      Traced.anyM (fun member => fits reach member value) members
    | .object .. | .arguments .. =>
      match value with
      | .object members =>
        Traced.allM (fun (name, value) =>
          match node.child? (.field name) with
          | .ok _ => do fits reach (← node.step (.field name)) value
          | .error _ => return false) members
      | _ => return false
    | .function .. => return true

/-- A value as messages show it. -/
def shown : Option Json → String
  | some value => value.text
  | none => "undefined"

/-- The member of a union that a value stands for, among all that it fits. -/
def choose (union : Node) (value : Json) : List Node → Except Error Node
  | [] => .error (.noUnionMatch union.key value.text)
  | [member] => .ok member
  | candidates => .error (.ambiguousUnionMatch union.key value.text
      (", ".intercalate (candidates.map fun member => s!"'{member.key}'")))

/-- Selects a member of a union: the one named by the hint, else the one that the value fits. -/
def selectMember (reach : Nat) (union : Node) (value : Option Json) :
    Option String → Walk Node
  | some hint =>
    Traced.catchError (union.memberNamed hint) fun _ => Traced.fail (.invalidUnionHint union.key hint)
  | none =>
    match value with
    | none => Traced.fail (.noUnionMatch union.key (shown none))
    | some value => do
      let members ← union.allMembers
      let candidates ← Traced.filterM (fun member => fits reach member value) members
      Traced.ofExcept (choose union value candidates)

/-- The first item that must be given and is not. -/
def missingArgument? (declared : List (Property Structure)) (given : List (String × Json)) :
    Option String :=
  (declared.find? fun item => !item.optional && (given.lookup item.name).isNone).map Property.name

/-- Checks the arguments of a call: every required item is present, every present one is declared
and fits its structure. -/
def checkCall (reach : Nat) (function : Node) (given : Json) : Walk Unit := do
  let arguments ← function.step .arguments
  let invalid (reason : String) : Walk Unit :=
    Traced.fail (.invalidArguments function.key given.text reason)
  match arguments.shape with
  | .arguments _ declared =>
    match given with
    | .object members =>
      if let some name := missingArgument? declared members then
        invalid s!"missing required argument '{name}'"
      else
        members.forM fun (name, value) =>
          match arguments.child? (.field name) with
          | .error _ => invalid s!"unknown argument '{name}'"
          | .ok item => do
            let _ ← arguments.step (.field name)
            if ← fits reach item value then return ()
            else invalid s!"argument '{name}' does not match '{item.key}'"
    | _ => invalid s!"arguments must be an object, received {given.typeName}"
  | other => invalid s!"expected an argument list, found '{other.kind.name}'"

end Matching

end PathQuery
