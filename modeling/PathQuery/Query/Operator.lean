import PathQuery.Configuration.Basic
import PathQuery.Query.Descent
import PathQuery.Query.Instruction

/-!
# Operators

An operator recognises the head of a query and compiles it. It works at a position: the engine it
belongs to, whether the node may stay undefined, and the means to compile one level deeper. The
built-in operators are `path`, which starts again at the root, and `select`, which projects an
object.
-/

set_option autoImplicit false

namespace PathQuery

/-- What is the same for every query of an engine, operators apart. -/
structure Setting where
  graph : Graph
  entry : String
  resolvers : Resolvers
  execution : Execution
  reach : Nat

/-- Where a query is compiled. `compile` compiles a query at a node one level deeper; the flag
says whether that node may stay undefined. -/
structure Position where
  setting : Setting
  optional : Bool
  compile : Bool → Node → List Json → Walk Middleware

namespace Position

def enclose (position : Position) (node : Node) (input : Option Json) (descent : Descent) :
    Middleware :=
  Descent.enclose position.setting.resolvers node input descent

def onSettled (position : Position) (node : Node) (go : Context → Json → Run (Option Json)) :
    Descent :=
  Descent.onSettled position.optional node go

end Position

/-- Gives no middleware for a query that is not its own. -/
abbrev Operator := Position → Node → List Json → Walk (Option Middleware)

namespace Operator

/-- Nothing may follow an instruction that ends a query. -/
def requireLast (node : Node) (head : Json) : List Json → Except Error Unit
  | [] => .ok ()
  | next :: _ =>
    let kind := (Instruction.kind? head).getD ""
    .error (Instruction.invalid node.key next s!"'{kind}' must be the last instruction")

/-- An operator for queries that begin with an instruction of one kind. -/
def ofKind (kind : String) (apply : Position → Node → Json → List Json → Walk (Option Middleware)) :
    Operator := fun position node query =>
  match query with
  | head :: rest =>
    if Instruction.kind? head = some kind then apply position node head rest else return none
  | [] => return none

/-- Navigates anew from the root, with nothing in hand. -/
def path : Operator := ofKind "path" fun position node head rest => do
  Traced.ofExcept (requireLast node head rest)
  let path ← match ← Traced.ofExcept (Instruction.instructions? node.key head "path") with
    | some path => pure path
    | none => Traced.fail (Instruction.invalid node.key head "'path' is required")
  let query ← Traced.ofExcept (Instruction.instructions? node.key head "query")
  let inner ← position.compile false position.setting.graph.root (path ++ query.getD [])
  return some fun context next => do
    let value ← inner.evaluate (context.setValue none)
    next (context.setValue value)

/-- A selected member, with the middleware that resolves it. -/
abbrev Selection := String × Middleware

/-- Compiles the requested members of an object one after another. -/
def compileFields (position : Position) (node : Node) (head : Json)
    (properties : List (Property Structure)) :
    List (String × Json) → Walk (List Selection)
  | [] => return []
  | (name, .array query) :: rest => do
    let optional := ((Property.find? name properties).map Property.optional).getD false
    let child ← node.step (.field name)
    let inner ← position.compile optional child query
    let others ← compileFields position node head properties rest
    return (name, inner) :: others
  | (name, _) :: _ => Traced.fail (Instruction.invalid node.key head
      s!"the query for '{name}' must be a list")

/-- Runs the query of one selected member, which sees its object. -/
def runMember (context : Context) (members : List (String × Json)) (selection : Selection) :
    Run (Option Json) :=
  selection.2.evaluate (context.setValue (members.lookup selection.1))

/-- The named values; undefined ones are left out. -/
def gather (names : List String) (values : List (Option Json)) : List (String × Json) :=
  (names.zip values).filterMap fun (name, value) => value.map fun value => (name, value)

/-- The members of an object in the order of their selection. -/
def project (parallel : Bool) (context : Context) (members : List (String × Json))
    (selections : List Selection) : Run (List (String × Json)) := do
  let values ← Run.all parallel (selections.map (runMember context members))
  return gather (selections.map Prod.fst) values

/-- Projects an object; any other structure reports the instruction by itself. -/
def select : Operator := ofKind "select" fun position node head rest =>
  match node.shape with
  | .object _ _ _ properties => do
    Traced.ofExcept (requireLast node head rest)
    match head.member? "fields" with
    | some (.object requested) => do
      let fields ← compileFields position node head properties requested
      return some <| position.enclose node none <| position.onSettled node fun context value =>
        match value with
        | .object members => do
          let parallel := position.setting.execution.parallel
          return some (.object (← project parallel (context.push .parent value) members fields))
        | other => return some other
    | _ => Traced.fail (Instruction.invalid node.key head
        "'fields' must map property names to queries")
  | _ => return none

def builtin : List Operator := [path, select]

def tryAll (position : Position) (node : Node) (query : List Json) :
    List Operator → Walk (Option Middleware)
  | [] => return none
  | operator :: rest => do
    match ← operator position node query with
    | some middleware => return some middleware
    | none => tryAll position node query rest

end Operator

end PathQuery
