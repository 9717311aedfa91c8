import PathQuery.Matching
import PathQuery.Query.Excerpt

/-!
# Compilation

A query is compiled against a node into one middleware. Operators are tried first, except at
wrappers; then the structure of the node decides. Every level uses up one of the levels that the
recursion limit allows, also for the members of unions, which are compiled when their value is
known.
-/

set_option autoImplicit false

namespace PathQuery

namespace Position

/-- Compiles a query at the wrapped node, which may stay undefined if the wrapping one may. -/
def through (position : Position) (node : Node) (input : Option Json) (child : Node)
    (query : List Json) : Walk Middleware := do
  let inner ← position.compile position.optional child query
  return position.enclose node input (Descent.through node child inner)

/-- A node whose value is the settled one. -/
def settledValue (position : Position) (node : Node) : Middleware :=
  position.enclose node none (position.onSettled node fun _ value => return some value)

def unexpected (node : Node) (head : Json) : Error :=
  Instruction.invalid node.key head <|
    match Instruction.kind? head with
    | some kind => s!"unknown instruction '{kind}' for '{node.kind.name}'"
    | none => s!"unexpected step for '{node.kind.name}'"

/-- Queries start at the entry. -/
def atRoot (position : Position) (node : Node) (query : List Json) : Walk Middleware :=
  let entry := position.setting.entry
  match query with
  | [] => Traced.fail (.invalidEntry entry "[]")
  | head :: rest => do
    if head.string? = some entry then
      let child ← node.step (.entry entry)
      position.through node none child rest
    else Traced.fail (.invalidEntry entry head.text)

/-- The whole object, or one of its properties. -/
def atObject (position : Position) (node : Node) (properties : List (Property Structure)) :
    List Json → Walk Middleware
  | [] => return position.settledValue node
  | .string name :: rest => do
    let optional := ((Property.find? name properties).map Property.optional).getD false
    let child ← node.step (.field name)
    let inner ← position.compile optional child rest
    return position.enclose node none <| position.onSettled node fun context value =>
      inner.evaluate ((context.push .parent value).setValue (value.member? name))
  | head :: _ => Traced.fail (unexpected node head)

/-- What the head of a query asks of a list. -/
def excerpt (position : Position) (node : Node) (head : Json) :
    Except Error Excerpt :=
  match head with
  | .number value =>
    match value.unsigned? with
    | some index => .ok (.nth index)
    | none => .error (Instruction.invalid node.key head
        "list indexes must be non negative integers")
  | head =>
    match Instruction.kind? head with
    | some "all" => .ok .all
    | some "first" => .ok .first
    | some "paginate" =>
      Excerpt.readPage position.setting.execution.maxPageSize node head
    | _ => .error (unexpected node head)

def atList (position : Position) (node : Node) (query : List Json) : Walk Middleware := do
  let (excerpt, rest) ← match query with
    | [] => pure (Excerpt.all, [])
    | head :: rest => do
      let excerpt ← Traced.ofExcept (position.excerpt node head)
      pure (excerpt, rest)
  let items ← node.step .items
  let inner ← position.compile false items rest
  return position.enclose node excerpt.input?
    (position.onSettled node (excerpt.run position.setting.execution.parallel node inner))

/-- A function is called before anything else. -/
def atFunction (position : Position) (node : Node) (query : List Json) :
    Walk Middleware :=
  match query with
  | [] => Traced.fail (.invalidQuery node.key "[]" "functions must be called")
  | head :: rest => do
    if Instruction.kind? head = some "call" then
      let given := (head.member? "args").getD (.object [])
      Matching.checkCall position.setting.reach node given
      position.through node (some given) (← node.step .returns) rest
    else Traced.fail (Instruction.invalid node.key head
      "functions must be called before anything else")

/-- The member that the value turns out to be, compiled when the value is known. -/
def atMatched (position : Position) (node : Node) (query : List Json) : Middleware :=
  position.enclose node none <| position.onSettled node fun context value => do
    let inner ← Walk.run do
      let member ← Matching.selectMember position.setting.reach node (some value) none
      position.compile position.optional member query
    inner.evaluate (context.setValue (some value))

/-- A member named by the query, or the one that the value matches. -/
def atUnion (position : Position) (node : Node) (query : List Json) : Walk Middleware :=
  match query with
  | [] => return position.atMatched node []
  | head :: rest =>
    if Instruction.kind? head = some "as" then
      match (head.member? "type").bind Json.string? with
      | some hint => do
        let member ← Matching.selectMember position.setting.reach node none (some hint)
        position.through node none member rest
      | none => Traced.fail (Instruction.invalid node.key head
          "'type' must name a member of the union")
    else return position.atMatched node query

def atLeaf (position : Position) (node : Node) (query : List Json) : Walk Middleware :=
  match query with
  | [] => return position.settledValue node
  | head :: _ => Traced.fail (Instruction.invalid node.key head
      s!"'{node.kind.name}' values take no further instructions")

/-- Compiles a query that no operator took. -/
def byStructure (position : Position) (node : Node) (query : List Json) : Walk Middleware :=
  match node.shape with
  | .root _ => position.atRoot node query
  | .ref .. => do position.through node none (← node.step .target) query
  | .typeAlias .. => do position.through node none (← node.step .body) query
  | .nullable .. => do position.through node none (← node.step .inner) query
  | .object _ _ _ properties => position.atObject node properties query
  | .array .. => position.atList node query
  | .function .. => position.atFunction node query
  | .union .. => position.atUnion node query
  | .primitive .. | .literal .. => position.atLeaf node query
  | .arguments .. => Traced.fail (Instruction.invalid node.key (.array query)
      "argument lists are not queried directly, use 'call'")

end Position

/-- Compiles a query at a node, with this many levels left. -/
def Setting.compile (setting : Setting) (operators : List Operator) :
    Nat → Bool → Node → List Json → Walk Middleware
  | 0, _, _, _ => Traced.fail (.recursionLimitExceeded setting.execution.recursionLimit)
  | remaining + 1, optional, node, query => do
    let position : Position := ⟨setting, optional, setting.compile operators remaining⟩
    if node.shape.isWrapper then position.byStructure node query
    else match ← Operator.tryAll position node query operators with
      | some middleware => return middleware
      | none => position.byStructure node query

end PathQuery
