import PathQuery.Json.Printer
import PathQuery.Resolver

/-!
# Descents

Resolving a node makes it the active node, runs its resolvers, and hands what they leave to the
descent: the innermost step, which produces the value of the node. Most descents first settle the
value: an undefined one may be replaced by a default or stay undefined where that is allowed, and
a defined one must fit the structure of the node.
-/

set_option autoImplicit false

namespace PathQuery

/-- Produces the value of a node, undefined being `none`. -/
abbrev Descent := Context → Run (Option Json)

namespace Descent

/-- Attaches the input of the query to a node. -/
def attach (node : Node) (input : Option Json) (context : Context) : Context :=
  match input with
  | some input => context.push .input input (some node)
  | none => context

/-- The middleware of a node: its resolvers around the descent. -/
def enclose (resolvers : Resolvers) (node : Node) (input : Option Json) (descent : Descent) :
    Middleware := fun context next => do
  let chain := Middleware.compose (resolvers.atShape node.shape)
  let context ← chain (attach node input (context.enter node)) fun context => do
    return context.setValue (← descent context)
  next context

/-- What a structure expects of a value that does not fit it. -/
def expected? (shape : Structure) (value : Json) : Option String :=
  match shape with
  | .object .. => if value.isObject then none else some "object"
  | .array .. => if value.isArray then none else some "array"
  | .primitive _ type => if type.admits value then none else some type.name
  | .literal _ constant => if constant == value then none else some constant.text
  | _ => none

def checkShape (node : Node) (value : Json) : Except Error Unit :=
  match expected? node.shape value with
  | some expected => .error (.invalidResolvedValue node.key expected value.text)
  | none => .ok ()

def emptyValue? : Structure → Option Json
  | .object .. => some (.object [])
  | .array .. => some (.array [])
  | _ => none

/-- The value that the resolvers left for a node; none if it may stay undefined. -/
def settle (optional : Bool) (node : Node) (context : Context) : Except Error (Option Json) :=
  let checked (value : Json) := (checkShape node value).map fun _ => some value
  match context.value? with
  | some value => checked value
  | none =>
    match if context.fillsEmpty node then emptyValue? node.shape else none with
    | some value => checked value
    | none => if optional then .ok none else .error (.couldNotResolve node.key)

/-- Settles the value and goes on with it if it is defined. -/
def onSettled (optional : Bool) (node : Node) (go : Context → Json → Run (Option Json)) :
    Descent := fun context => do
  match ← Traced.ofExcept (settle optional node context) with
  | some value => go context value
  | none => return none

/-- Passes the marks of a wrapping node on to the wrapped one. -/
def passMarks (outer inner : Node) (context : Context) : Context :=
  let context := if context.fillsEmpty outer then context.push .fillEmpty () (some inner)
    else context
  if context.isSliced outer then context.push .sliced () (some inner) else context

/-- The descent of a node that only wraps another one; a nullable left with null ends there. -/
def through (node child : Node) (inner : Middleware) : Descent := fun context =>
  if node.kind = .nullable ∧ context.value? = some .null then return some .null
  else inner.evaluate (passMarks node child context)

end Descent

end PathQuery
