import PathQuery.Graph.Node
import PathQuery.Traced

/-!
# Navigation

A walk takes steps and leaves the trail of the nodes that it came to. Chains of wrappers are
followed at most `reach` steps; longer ones are given up.
-/

set_option autoImplicit false

namespace PathQuery

/-- A computation that visits nodes. -/
abbrev Walk (α : Type) := Traced Node α

/-- The longest chain of wrappers that is followed by default. -/
def defaultReach : Nat := 100000

namespace Node

def step (node : Node) (step : Step) : Walk Node :=
  match node.child? step with
  | .ok next => ⟨[next], .ok next⟩
  | .error error => Traced.fail error

/-- How many members a union has; nothing else has any. -/
def memberCount (node : Node) : Nat :=
  match node.shape with
  | .union _ members => members.length
  | _ => 0

/-- Every member of a union, in declaration order. -/
def allMembers (node : Node) : Walk (List Node) :=
  (List.range node.memberCount).mapM fun index => node.step (.member index)

/-- The first of the members at these positions that goes by `name`. -/
def memberAmong (node : Node) (name : String) : List Nat → Walk Node
  | [] => Traced.fail (.invalidUnionAccess node.key name)
  | index :: rest => do
    let member ← node.step (.member index)
    if member.shape.memberName? = some name then return member else node.memberAmong name rest

def memberNamed (node : Node) (name : String) : Walk Node :=
  node.memberAmong name (List.range node.memberCount)

def endless {α : Type} (node : Node) : Walk α :=
  Traced.fail (.endlessChain node.key)

/-- The first node below references and aliases. -/
def dereferenced : Nat → Node → Walk Node
  | 0, node => node.endless
  | reach + 1, node =>
    match node.kind with
    | .ref => do dereferenced reach (← node.step .target)
    | .typeAlias => do dereferenced reach (← node.step .body)
    | _ => return node

/-- Navigates by name: a declaration on the root, a property on objects and argument lists, a
member on unions, `items` on arrays, `arguments` and `returns` on functions. Wrappers are stepped
through first. -/
def named : Nat → Node → String → Walk Node
  | 0, node, _ => node.endless
  | reach + 1, node, name =>
    match node.kind with
    | .root => node.step (.entry name)
    | .object | .arguments => node.step (.field name)
    | .typeAlias => do named reach (← node.step .body) name
    | .ref => do named reach (← node.step .target) name
    | .nullable => do named reach (← node.step .inner) name
    | .union => node.memberNamed name
    | .array =>
      if name = "items" then node.step .items else Traced.fail (.unknownProperty node.key name)
    | .function =>
      if name = "arguments" then node.step .arguments
      else if name = "returns" then node.step .returns
      else Traced.fail (.unknownProperty node.key name)
    | .primitive | .literal => Traced.fail (.noPropertiesOnLeaf node.key name)

def follow (reach : Nat) (node : Node) (path : List String) : Walk Node :=
  path.foldlM (named reach) node

end Node

end PathQuery
