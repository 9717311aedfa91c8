import PathQuery.Engine
import PathQuery.Proofs.Graph.Ascent

/-!
# Fences

A fence is open for some nodes. At any other node something else is done in place of compiling a query
and of matching a value, whatever that is; the resolvers of a node run in nothing but what is compiled
for it, so they are left out there as well. `Engine.runWithin` is a run inside a fence. Each step of it
is the one of a free run, told what to do one level deeper (`Matching.fits_succ`,
`Setting.compile_eq_compileBy`).
-/

set_option autoImplicit false

namespace PathQuery

/-- Whether a node is inside, and what is done at the nodes outside. -/
structure Fence where
  opens : Node → Bool
  compile : Bool → Node → List Json → Walk Middleware
  fits : Node → Json → Walk Bool

/-! ## One level of matching -/

namespace Matching

/-- Matches a value against a node, given how it is matched one level deeper. -/
def fitsBy (test : Node → Json → Walk Bool) (node : Node) (value : Json) : Walk Bool :=
  match node.shape with
  | .root _ => return false
  | .ref .. => do test (← node.step .target) value
  | .typeAlias .. => do test (← node.step .body) value
  | .primitive _ type => return type.admits value
  | .literal _ constant => return constant == value
  | .nullable .. => do
    if value.isNull then return true else test (← node.step .inner) value
  | .array .. =>
    match value with
    | .array items => do
      let item ← node.step .items
      Traced.allM (test item) items
    | _ => return false
  | .union .. => do
    let members ← node.allMembers
    Traced.anyM (fun member => test member value) members
  | .object .. | .arguments .. =>
    match value with
    | .object members =>
      Traced.allM (fun (name, value) =>
        match node.child? (.field name) with
        | .ok _ => do test (← node.step (.field name)) value
        | .error _ => return false) members
    | _ => return false
  | .function .. => return true

/-- The member that a value stands for, given how it is matched against each. -/
def selectBy (test : Node → Json → Walk Bool) (union : Node) (value : Json) : Walk Node := do
  let members ← union.allMembers
  let candidates ← Traced.filterM (fun member => test member value) members
  Traced.ofExcept (choose union value candidates)

def checkCallBy (test : Node → Json → Walk Bool) (function : Node) (given : Json) : Walk Unit := do
  let arguments ← function.step .arguments
  let invalid (reason : String) : Walk Unit :=
    Traced.fail (.invalidArguments function.key given.text reason)
  match arguments.shape with
  | .arguments _ declared =>
    match given with
    | .object members =>
      if let some name := missingArgument? declared members then
        invalid s!"missing required argument '{name}'"
      else
        members.forM fun (name, value) =>
          match arguments.child? (.field name) with
          | .error _ => invalid s!"unknown argument '{name}'"
          | .ok item => do
            let _ ← arguments.step (.field name)
            if ← test item value then return ()
            else invalid s!"argument '{name}' does not match '{item.key}'"
    | _ => invalid s!"arguments must be an object, received {given.typeName}"
  | other => invalid s!"expected an argument list, found '{other.kind.name}'"

theorem fits_succ (reach : Nat) (node : Node) (value : Json) :
    fits (reach + 1) node value = fitsBy (fits reach) node value := rfl

end Matching

/-! ## One level of compilation -/

namespace Position

def atFunctionBy (position : Position) (test : Node → Json → Walk Bool) (node : Node) :
    List Json → Walk Middleware
  | [] => position.atFunction node []
  | head :: rest =>
    if Instruction.kind? head = some "call" then do
      let given := (head.member? "args").getD (.object [])
      Matching.checkCallBy test node given
      position.through node (some given) (← node.step .returns) rest
    else position.atFunction node (head :: rest)

def atMatchedBy (position : Position) (test : Node → Json → Walk Bool) (node : Node)
    (query : List Json) : Middleware :=
  position.enclose node none <| position.onSettled node fun context value => do
    let inner ← Walk.run do
      let member ← Matching.selectBy test node value
      position.compile position.optional member query
    inner.evaluate (context.setValue (some value))

def atUnionBy (position : Position) (test : Node → Json → Walk Bool) (node : Node) :
    List Json → Walk Middleware
  | [] => return position.atMatchedBy test node []
  | head :: rest =>
    if Instruction.kind? head = some "as" then position.atUnion node (head :: rest)
    else return position.atMatchedBy test node (head :: rest)

/-- Values are matched at functions and at unions only. -/
def byStructureBy (position : Position) (test : Node → Json → Walk Bool) (node : Node)
    (query : List Json) : Walk Middleware :=
  match node.shape with
  | .function .. => position.atFunctionBy test node query
  | .union .. => position.atUnionBy test node query
  | _ => position.byStructure node query

/-- Compiles a query at a node, given how values are matched and how it goes on one level deeper. -/
def compileBy (position : Position) (operators : List Operator) (test : Node → Json → Walk Bool)
    (node : Node) (query : List Json) : Walk Middleware := do
  if node.shape.isWrapper then position.byStructureBy test node query
  else match ← Operator.tryAll position node query operators with
    | some middleware => return middleware
    | none => position.byStructureBy test node query

variable (position : Position) (node : Node) (query : List Json)

theorem atFunction_eq_atFunctionBy :
    position.atFunction node query =
      position.atFunctionBy (Matching.fits position.setting.reach) node query := by
  cases query with
  | nil => rfl
  | cons head rest =>
    by_cases hcall : Instruction.kind? head = some "call"
    · simp only [atFunction, atFunctionBy, if_pos hcall]
      rfl
    · simp only [atFunction, atFunctionBy, if_neg hcall]

theorem atUnion_eq_atUnionBy :
    position.atUnion node query =
      position.atUnionBy (Matching.fits position.setting.reach) node query := by
  cases query with
  | nil => rfl
  | cons head rest =>
    by_cases has : Instruction.kind? head = some "as"
    · simp only [atUnionBy, if_pos has]
    · simp only [atUnion, atUnionBy, if_neg has]
      rfl

theorem byStructure_eq_byStructureBy :
    position.byStructure node query =
      position.byStructureBy (Matching.fits position.setting.reach) node query := by
  unfold byStructureBy
  split
  · next hshape =>
    rw [byStructure, hshape]
    exact position.atFunction_eq_atFunctionBy node query
  · next hshape =>
    rw [byStructure, hshape]
    exact position.atUnion_eq_atUnionBy node query
  · rfl

end Position

theorem Setting.compile_eq_compileBy (setting : Setting) (operators : List Operator)
    (remaining : Nat) (optional : Bool) (node : Node) (query : List Json) :
    setting.compile operators (remaining + 1) optional node query =
      Position.compileBy ⟨setting, optional, setting.compile operators remaining⟩ operators
        (Matching.fits setting.reach) node query := by
  rw [Position.compileBy, ← Position.byStructure_eq_byStructureBy]
  rfl

/-! ## Runs inside a fence -/

namespace Fence

variable (fence : Fence)

def fitsWithin : Nat → Node → Json → Walk Bool
  | 0, node, value => if fence.opens node then node.endless else fence.fits node value
  | reach + 1, node, value =>
    if fence.opens node then Matching.fitsBy (fitsWithin reach) node value else fence.fits node value

def compileWithin (setting : Setting) (operators : List Operator) :
    Nat → Bool → Node → List Json → Walk Middleware
  | 0, optional, node, query =>
    if fence.opens node then setting.compile operators 0 optional node query
    else fence.compile optional node query
  | remaining + 1, optional, node, query =>
    if fence.opens node then
      Position.compileBy ⟨setting, optional, compileWithin setting operators remaining⟩ operators
        (fence.fitsWithin setting.reach) node query
    else fence.compile optional node query

end Fence

/-- A run in which every node is compiled and matched against inside the fence. -/
def Engine.runWithin (engine : Engine) (fence : Fence) (query : Json) (values : List Json)
    (context : Context) : Run Json := do
  let setting := engine.setting
  let instructions ← Traced.ofExcept (engine.instructions query values)
  let middleware ← Walk.run (fence.compileWithin setting engine.operators
    setting.execution.recursionLimit false setting.graph.root instructions)
  return (← middleware.evaluate context).getD .null

end PathQuery
