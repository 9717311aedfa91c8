import PathQuery.Context
import PathQuery.Together

/-!
# Middleware

A middleware receives a context and the rest of its chain. It may change the context before it
goes on, look at or change what the rest gives back, or give a context back without going on.
What happens on the way is noted: the nodes that are visited, what middlewares log, and where they
wait for something outside, so that the runs of siblings may go on in the meantime.
-/

set_option autoImplicit false

namespace PathQuery

/-- What can be seen of a context. -/
structure Snapshot where
  nodeKey : Option String
  value : Option Json
  parent : Option Json
  index : Option Nat
  input : Option Json
  depth : Nat

/-- The active node's key and input, the current value, and the enclosing value and position. -/
def Context.snapshot (context : Context) : Snapshot :=
  let node := context.get? .node
  { nodeKey := node.map Node.key
    value := context.value?
    parent := context.get? .parent
    index := context.get? .index
    input := node.bind context.inputOf?
    depth := context.depth }

/-- A stopover of a run: at a node, or outside of the graph, where it waits. -/
inductive Stopover where
  | node (node : Node)
  | outside

inductive Event where
  | visit (stopover : Stopover)
  | enter (label : String)
  | leave (label : String)
  | peek (label : String) (seen : Snapshot)

/-- The node that was visited, if the event is a visit of one. -/
def Event.visited? : Event → Option Node
  | visit (.node node) => some node
  | _ => none

def Event.waits : Event → Bool
  | visit .outside => true
  | _ => false

/-- A computation of a run. -/
abbrev Run (α : Type) := Traced Event α

/-- The nodes visited by a run. -/
def Run.visited {α : Type} (run : Run α) : List Node :=
  run.trail.filterMap Event.visited?

/-- The walk as a part of a run. -/
def Walk.run {α : Type} (walk : Walk α) : Run α :=
  walk.mapTrail fun node => .visit (.node node)

namespace Run

/-- Waits for something outside. -/
def wait : Run Unit := Traced.note (.visit .outside)

/-- Runs siblings one after another; or, in parallel, together, where they take turns at their
waits. -/
def all {α : Type} (parallel : Bool) (runs : List (Run α)) : Run (List α) :=
  if parallel then Traced.together Event.waits runs else runs.mapM id

end Run

/-- The rest of a chain. -/
abbrev Continuation := Context → Run Context

abbrev Middleware := Context → Continuation → Run Context

namespace Middleware

/-- Leaves everything to the rest of the chain. -/
def pass : Middleware := fun context next => next context

/-- Runs the second as the rest of the first. -/
def andThen (outer inner : Middleware) : Middleware := fun context next =>
  outer context fun context => inner context next

/-- The first is the outermost. -/
def compose (middlewares : List Middleware) : Middleware :=
  middlewares.foldr andThen pass

/-- Runs a middleware with nothing behind it. -/
def complete (middleware : Middleware) (context : Context) : Run Context :=
  middleware context pure

/-- The value that a middleware leaves, undefined being `none`. -/
def evaluate (middleware : Middleware) (context : Context) : Run (Option Json) := do
  return (← middleware.complete context).value?

@[simp] theorem compose_nil : compose [] = pass := rfl

@[simp] theorem compose_cons (first : Middleware) (rest : List Middleware) :
    compose (first :: rest) = andThen first (compose rest) := rfl

theorem andThen_assoc (a b c : Middleware) :
    andThen (andThen a b) c = andThen a (andThen b c) := rfl

theorem compose_append (as bs : List Middleware) :
    compose (as ++ bs) = andThen (compose as) (compose bs) := by
  induction as with
  | nil => rfl
  | cons a as ih => simp [ih, andThen_assoc]

/-- Marks the active node, so that its undefined value is replaced by an empty one. -/
def fillEmpty : Middleware := fun context next => do
  let node ← Traced.ofExcept context.activeNode
  next (context.push .fillEmpty () (some node))

end Middleware

end PathQuery
