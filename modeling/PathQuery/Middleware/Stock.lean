import PathQuery.Middleware.Basic
import PathQuery.Json.Basic

/-!
# Stock middlewares

Resolvers for fixtures: constant values, short cuts, failures, logging, and access to everything
that a context holds. `rows` is the key under which hosts keep their own data.
-/

set_option autoImplicit false

namespace PathQuery.Middleware

def rows : Key := .host "rows"

/-- Fails when the outcome is an error. -/
def lift {α : Type} (result : Except Error α) : Run α := Traced.ofExcept result

def activeNode (context : Context) : Run Node := lift context.activeNode

/-! ## Values -/

def set (value : Json) : Middleware := fun context next => next (context.setValue (some value))

def undefine : Middleware := fun context next => next (context.setValue none)

def stop (value : Json) : Middleware := fun context _ => return context.setValue (some value)

def stopUndefined : Middleware := fun context _ => return context.setValue none

def stopUnchanged : Middleware := fun context _ => return context

def raise (error : Error) : Middleware := fun _ _ => Traced.fail error

def after (value : Option Json) : Middleware := fun context next => do
  return (← next context).setValue value

/-- Wraps the value that the rest left in an object with one member. -/
def afterWrap (name : String) : Middleware := fun context next => do
  let context ← next context
  return context.setValue (some (.object [(name, context.value?.getD .null)]))

/-- Replaces an object by one of its members, if it has it. -/
def pluck (name : String) : Middleware := fun context next =>
  match context.value?.bind (Json.member? name) with
  | some value => next (context.setValue (some value))
  | none => next context

/-- Waits for something outside before it goes on. -/
def pause : Middleware := fun context next => do
  Run.wait
  next context

/-! ## Logging -/

def trace (label : String) : Middleware := fun context next => do
  Traced.note (.enter label)
  let context ← next context
  Traced.note (.leave label)
  return context

def peek (label : String) : Middleware := fun context next => do
  Traced.note (.peek label context.snapshot)
  next context

def peekAfter (label : String) : Middleware := fun context next => do
  let context ← next context
  Traced.note (.peek label context.snapshot)
  return context

/-! ## Context -/

def pushRows (value : Json) : Middleware := fun context next => next (context.push rows value)

def pushRowsHere (value : Json) : Middleware := fun context next => do
  let node ← activeNode context
  next (context.push rows value (some node))

def readRows : Middleware := fun context next => do
  next (context.setValue (some (← lift (context.require rows))))

def readRowsHere : Middleware := fun context next => do
  let node ← activeNode context
  next (context.setValue (some (← lift (context.require rows (some node)))))

def readRowsIfAny : Middleware := fun context next =>
  match context.get? rows with
  | some value => next (context.setValue (some value))
  | none => next context

def parent : Middleware := fun context next => do
  next (context.setValue (some (← lift (context.require .parent))))

def index : Middleware := fun context next => do
  next (context.setValue (some (Json.ofNat (← lift (context.require .index)))))

/-- Sets the value to the input of a node, if it has one. -/
def inputOf (node : Node) : Middleware := fun context next =>
  match context.inputOf? node with
  | some value => next (context.setValue (some value))
  | none => next context

def input : Middleware := fun context next => do
  inputOf (← activeNode context) context next

def nodeKey : Middleware := fun context next => do
  let node ← activeNode context
  next (context.setValue (some (.string node.key)))

/-! ## Pages -/

def setSliced (value : Json) : Middleware := fun context next => do
  next (← lift (context.setSliced value))

/-- The items of a page, counted from one. -/
def pageOf (items : List Json) (page size : Nat) : List Json :=
  (items.drop ((page - 1) * size)).take size

/-- A positive number given by a member of the input; one if there is none. -/
def pageNumber (input : Json) (name : String) : Nat :=
  ((input.member? name).bind Json.unsigned?).getD 1

/-- Slices a list by the input of the active node; without input the list is left whole. -/
def slicePage (list : Json) : Middleware := fun context next => do
  let node ← activeNode context
  match context.inputOf? node with
  | some input =>
    let items := match list with
      | .array items => items
      | _ => []
    let page := pageOf items (pageNumber input "page") (pageNumber input "pageSize")
    next (← lift (context.setSliced (.array page)))
  | none => next (context.setValue (some list))

/-! ## Choice -/

/-- Runs a middleware in front of the rest for the item at one position only. -/
def ifIndex (position : Json) (middleware : Middleware) : Middleware := fun context next =>
  match context.get? .index with
  | some index => if Json.ofNat index == position then middleware context next else next context
  | none => next context

/-- Runs a middleware in front of the rest for one current value only. -/
def ifValue (value : Json) (middleware : Middleware) : Middleware := fun context next =>
  match context.value? with
  | some current => if current == value then middleware context next else next context
  | none => next context

end PathQuery.Middleware
