import PathQuery.Graph.Walk
import PathQuery.Json.Basic

/-!
# Resolution contexts

A context is a stack of layers, each a value stored under a key, for all to see or for one node
only. Looking up a key for a scope finds the latest layer with exactly that key and scope.
-/

set_option autoImplicit false

namespace PathQuery

inductive Key where
  /-- The value being resolved for the active node, where `none` is undefined. -/
  | value
  /-- The node whose resolvers are running. -/
  | node
  /-- Input that the query attached to a node. -/
  | input
  /-- The value of the enclosing object or list. -/
  | parent
  /-- The position of the list item being resolved. -/
  | index
  /-- Marks a list node whose value is already sliced. -/
  | sliced
  /-- Marks a node whose undefined value is replaced by an empty one. -/
  | fillEmpty
  | host (name : String)
deriving DecidableEq

namespace Key

/-- The type of what is stored under a key. -/
abbrev Value : Key → Type
  | value => Option Json
  | node => Node
  | input => Json
  | parent => Json
  | index => Nat
  | sliced => Unit
  | fillEmpty => Unit
  | host _ => Json

def name : Key → String
  | value => "value"
  | node => "node"
  | input => "input"
  | parent => "parent"
  | index => "index"
  | sliced => "paginated"
  | fillEmpty => "use_default"
  | host name => name

end Key

structure Layer where
  key : Key
  scope : Option Node
  value : key.Value

/-- What a layer holds under a key for a scope. -/
def Layer.value? (layer : Layer) (key : Key) (scope : Option Node) : Option key.Value :=
  if h : layer.key = key then
    if layer.scope == scope then some (h ▸ layer.value) else none
  else none

structure Context where
  layers : List Layer

namespace Context

def empty : Context := ⟨[]⟩

/-- Stores a value for all to see, or only for lookups with the node given as its scope. -/
def push (context : Context) (key : Key) (value : key.Value) (scope : Option Node := none) :
    Context :=
  ⟨⟨key, scope, value⟩ :: context.layers⟩

/-- The latest value with exactly that key and scope. -/
def get? (context : Context) (key : Key) (scope : Option Node := none) : Option key.Value :=
  context.layers.findSome? fun layer => layer.value? key scope

def require (context : Context) (key : Key) (scope : Option Node := none) :
    Except Error key.Value :=
  match context.get? key scope with
  | some value => .ok value
  | none => .error (.missingContextKey key.name)

def depth (context : Context) : Nat := context.layers.length

/-! ## The current value -/

/-- Makes a value the current one, or leaves it undefined. -/
def setValue (context : Context) (value : Option Json) : Context :=
  context.push .value value

def value? (context : Context) : Option Json :=
  (context.get? .value).join

/-! ## The active node -/

def enter (context : Context) (node : Node) : Context :=
  context.push .node node

def activeNode (context : Context) : Except Error Node :=
  context.require .node

def inputOf? (context : Context) (node : Node) : Option Json :=
  context.get? .input (some node)

/-- Sets an already sliced list as the value of the active node. -/
def setSliced (context : Context) (value : Json) : Except Error Context := do
  let node ← context.activeNode
  return (context.push .sliced () (some node)).setValue (some value)

def isSliced (context : Context) (node : Node) : Bool :=
  (context.get? .sliced (some node)).isSome

def fillsEmpty (context : Context) (node : Node) : Bool :=
  (context.get? .fillEmpty (some node)).isSome

/-! ## Lookups after a push -/

theorem get?_push (context : Context) (key other : Key) (value : key.Value)
    (scope scope' : Option Node) :
    (context.push key value scope).get? other scope' =
      ((⟨key, scope, value⟩ : Layer).value? other scope').orElse
        fun _ => context.get? other scope' := by
  simp only [get?, push, List.findSome?_cons]
  cases (⟨key, scope, value⟩ : Layer).value? other scope' <;> rfl

theorem get?_push_self (context : Context) (key : Key) (value : key.Value) :
    (context.push key value).get? key = some value := by
  simp [get?_push, Layer.value?]

theorem get?_push_of_ne (context : Context) {key other : Key} (h : key ≠ other)
    (value : key.Value) (scope scope' : Option Node) :
    (context.push key value scope).get? other scope' = context.get? other scope' := by
  simp [get?_push, Layer.value?, h]

@[simp] theorem value?_setValue (context : Context) (value : Option Json) :
    (context.setValue value).value? = value := by
  simp [setValue, value?, get?_push_self]

end Context

end PathQuery
