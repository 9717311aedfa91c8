import PathQuery.Engine
import PathQuery.Proofs.Located.Descent
import PathQuery.Proofs.Located.Matching

/-!
# Compilation on an arena

A query that is compiled against a position enters what it asks for into the arena, and gives a
middleware that works on positions (`Located.Setting.compile`). Nothing but the arena says where a
position leads; the member of a union that a value turns out to be is entered during the run.
-/

set_option autoImplicit false

namespace PathQuery

namespace Visit

def ofExcept {α : Type} (result : Except Error α) : Visit α := fun arena => (result, arena)

theorem Mirrors.ofExcept_self {α : Type} {arena : Arena} {nodes : List Node}
    (h : arena.Faithful nodes) (x : Except Error α) :
    Mirrors (fun _ => (· = ·)) arena nodes (Visit.ofExcept x) (Traced.ofExcept x) :=
  ⟨nodes, .refl h, .eq_self x⟩

end Visit

namespace Located

open Visit (Stands Mirrors)

/-- What is the same for every query of an engine; the graph is the one of the arena. -/
structure Setting where
  entry : String
  resolvers : Resolvers
  execution : Execution
  reach : Nat

structure Position where
  setting : Setting
  optional : Bool
  compile : Bool → Nat → List Json → Visit Middleware

abbrev Operator := Position → Handle → List Json → Visit (Option Middleware)

/-! ## Operators -/

namespace Position

def enclose (position : Position) (handle : Handle) (input : Option Json) (descent : Descent) :
    Middleware :=
  Descent.enclose position.setting.resolvers handle input descent

def onSettled (position : Position) (handle : Handle) (go : Context → Json → Run (Option Json)) :
    Descent :=
  Descent.onSettled position.optional handle go

end Position

namespace Operator

def requireLast (handle : Handle) (head : Json) : List Json → Except Error Unit
  | [] => .ok ()
  | next :: _ =>
    let kind := (Instruction.kind? head).getD ""
    .error (Instruction.invalid handle.key next s!"'{kind}' must be the last instruction")

def ofKind (kind : String)
    (apply : Position → Handle → Json → List Json → Visit (Option Middleware)) : Operator :=
  fun position handle query =>
    match query with
    | head :: rest =>
      if Instruction.kind? head = some kind then apply position handle head rest else return none
    | [] => return none

/-- Navigates anew from position zero. -/
def path : Operator := ofKind "path" fun position handle head rest => do
  Visit.ofExcept (requireLast handle head rest)
  let path ← match ← Visit.ofExcept (Instruction.instructions? handle.key head "path") with
    | some path => pure path
    | none => throw (Instruction.invalid handle.key head "'path' is required")
  let query ← Visit.ofExcept (Instruction.instructions? handle.key head "query")
  let inner ← position.compile false 0 (path ++ query.getD [])
  return some fun context next => do
    let value ← inner.evaluate (context.setValue none)
    next (context.setValue value)

abbrev Selection := String × Middleware

def compileFields (position : Position) (handle : Handle) (head : Json)
    (properties : List (Property Structure)) :
    List (String × Json) → Visit (List Selection)
  | [] => return []
  | (name, .array query) :: rest => do
    let optional := ((Property.find? name properties).map Property.optional).getD false
    let child ← Visit.step handle.id (.field name)
    let inner ← position.compile optional child query
    let others ← compileFields position handle head properties rest
    return (name, inner) :: others
  | (name, _) :: _ => throw (Instruction.invalid handle.key head
      s!"the query for '{name}' must be a list")

def runMember (context : Context) (members : List (String × Json)) (selection : Selection) :
    Run (Option Json) :=
  selection.2.evaluate (context.setValue (members.lookup selection.1))

def project (parallel : Bool) (context : Context) (members : List (String × Json))
    (selections : List Selection) : Run (List (String × Json)) := do
  let values ← Run.all parallel (selections.map (runMember context members))
  return PathQuery.Operator.gather (selections.map Prod.fst) values

def select : Operator := ofKind "select" fun position handle head rest =>
  match handle.shape with
  | .object _ _ _ properties => do
    Visit.ofExcept (requireLast handle head rest)
    match head.member? "fields" with
    | some (.object requested) => do
      let fields ← compileFields position handle head properties requested
      return some <| position.enclose handle none <| position.onSettled handle fun context value =>
        match value with
        | .object members => do
          let parallel := position.setting.execution.parallel
          return some (.object (← project parallel (context.push .parent value) members fields))
        | other => return some other
    | _ => throw (Instruction.invalid handle.key head
        "'fields' must map property names to queries")
  | _ => return none

def builtin : List Operator := [path, select]

def tryAll (position : Position) (handle : Handle) (query : List Json) :
    List Operator → Visit (Option Middleware)
  | [] => return none
  | operator :: rest => do
    match ← operator position handle query with
    | some middleware => return some middleware
    | none => tryAll position handle query rest

end Operator

/-! ## Structures -/

namespace Position

def through (position : Position) (handle : Handle) (input : Option Json) (child : Nat)
    (query : List Json) : Visit Middleware := do
  let inner ← position.compile position.optional child query
  return position.enclose handle input (Descent.through handle child inner)

def settledValue (position : Position) (handle : Handle) : Middleware :=
  position.enclose handle none (position.onSettled handle fun _ value => return some value)

def unexpected (handle : Handle) (head : Json) : Error :=
  Instruction.invalid handle.key head <|
    match Instruction.kind? head with
    | some kind => s!"unknown instruction '{kind}' for '{handle.shape.kind.name}'"
    | none => s!"unexpected step for '{handle.shape.kind.name}'"

def atRoot (position : Position) (handle : Handle) (query : List Json) : Visit Middleware :=
  let entry := position.setting.entry
  match query with
  | [] => throw (.invalidEntry entry "[]")
  | head :: rest => do
    if head.string? = some entry then
      let child ← Visit.step handle.id (.entry entry)
      position.through handle none child rest
    else throw (.invalidEntry entry head.text)

def atObject (position : Position) (handle : Handle) (properties : List (Property Structure)) :
    List Json → Visit Middleware
  | [] => return position.settledValue handle
  | .string name :: rest => do
    let optional := ((Property.find? name properties).map Property.optional).getD false
    let child ← Visit.step handle.id (.field name)
    let inner ← position.compile optional child rest
    return position.enclose handle none <| position.onSettled handle fun context value =>
      inner.evaluate ((context.push .parent value).setValue (value.member? name))
  | head :: _ => throw (unexpected handle head)

def readPage (maxSize : Option Nat) (handle : Handle) (instruction : Json) :
    Except Error Excerpt := do
  let number ← Instruction.positive handle.key instruction "page"
  let size ← Instruction.positive handle.key instruction "pageSize"
  if let some max := maxSize then
    if max < size then
      throw (Instruction.invalid handle.key instruction s!"'pageSize' may not exceed {max}")
  return .page number size

def excerpt (position : Position) (handle : Handle) (head : Json) : Except Error Excerpt :=
  match head with
  | .number value =>
    match value.unsigned? with
    | some index => .ok (.nth index)
    | none => .error (Instruction.invalid handle.key head
        "list indexes must be non negative integers")
  | head =>
    match Instruction.kind? head with
    | some "all" => .ok .all
    | some "first" => .ok .first
    | some "paginate" => readPage position.setting.execution.maxPageSize handle head
    | _ => .error (unexpected handle head)

def atList (position : Position) (handle : Handle) (query : List Json) : Visit Middleware := do
  let (excerpt, rest) ← match query with
    | [] => pure (PathQuery.Excerpt.all, [])
    | head :: rest => do
      let excerpt ← Visit.ofExcept (position.excerpt handle head)
      pure (excerpt, rest)
  let items ← Visit.step handle.id .items
  let inner ← position.compile false items rest
  return position.enclose handle excerpt.input?
    (position.onSettled handle
      (Excerpt.run excerpt position.setting.execution.parallel handle.id inner))

def atFunction (position : Position) (handle : Handle) (query : List Json) : Visit Middleware :=
  match query with
  | [] => throw (.invalidQuery handle.key "[]" "functions must be called")
  | head :: rest => do
    if Instruction.kind? head = some "call" then
      let given := (head.member? "args").getD (.object [])
      Visit.checkCall position.setting.reach handle.id given
      position.through handle (some given) (← Visit.step handle.id .returns) rest
    else throw (Instruction.invalid handle.key head
      "functions must be called before anything else")

/-- The member is selected and compiled in the arena that the run has then. -/
def atMatched (position : Position) (handle : Handle) (query : List Json) : Middleware :=
  position.enclose handle none <| position.onSettled handle fun context value => do
    let inner ← Run.visit do
      let member ← Visit.selectMember position.setting.reach handle.id (some value) none
      position.compile position.optional member query
    inner.evaluate (context.setValue (some value))

def atUnion (position : Position) (handle : Handle) (query : List Json) : Visit Middleware :=
  match query with
  | [] => return position.atMatched handle []
  | head :: rest =>
    if Instruction.kind? head = some "as" then
      match (head.member? "type").bind Json.string? with
      | some hint => do
        let member ← Visit.selectMember position.setting.reach handle.id none (some hint)
        position.through handle none member rest
      | none => throw (Instruction.invalid handle.key head
          "'type' must name a member of the union")
    else return position.atMatched handle query

def atLeaf (position : Position) (handle : Handle) (query : List Json) : Visit Middleware :=
  match query with
  | [] => return position.settledValue handle
  | head :: _ => throw (Instruction.invalid handle.key head
      s!"'{handle.shape.kind.name}' values take no further instructions")

def byStructure (position : Position) (handle : Handle) (query : List Json) : Visit Middleware :=
  match handle.shape with
  | .root _ => position.atRoot handle query
  | .ref .. => do position.through handle none (← Visit.step handle.id .target) query
  | .typeAlias .. => do position.through handle none (← Visit.step handle.id .body) query
  | .nullable .. => do position.through handle none (← Visit.step handle.id .inner) query
  | .object _ _ _ properties => position.atObject handle properties query
  | .array .. => position.atList handle query
  | .function .. => position.atFunction handle query
  | .union .. => position.atUnion handle query
  | .primitive .. | .literal .. => position.atLeaf handle query
  | .arguments .. => throw (Instruction.invalid handle.key (.array query)
      "argument lists are not queried directly, use 'call'")

end Position

def Setting.compile (setting : Setting) (operators : List Operator) :
    Nat → Bool → Nat → List Json → Visit Middleware
  | 0, _, _, _ => throw (.recursionLimitExceeded setting.execution.recursionLimit)
  | remaining + 1, optional, id, query => do
    let handle : Handle := ⟨id, ← Visit.shape id⟩
    let position : Position := ⟨setting, optional, setting.compile operators remaining⟩
    if handle.shape.isWrapper then position.byStructure handle query
    else match ← Operator.tryAll position handle query operators with
      | some middleware => return middleware
      | none => position.byStructure handle query

end Located

end PathQuery
