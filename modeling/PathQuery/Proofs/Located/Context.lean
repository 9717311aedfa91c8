import PathQuery.Context
import PathQuery.Proofs.Graph.Visit

/-!
# Contexts that hold positions

The engine works on a shared arena: a handle is the number of a position, and what is stored for one
node only is found again by that number. `Located.Context` is a context with numbers in place of
nodes. It is like a context of nodes where the numbers stand for the nodes, and then every lookup
finds the like (`Located.Context.Like.get?`).
-/

set_option autoImplicit false

namespace PathQuery.Located

open Visit (Stands)

/-- The type of what is stored under a key; the active node is known by its number. -/
abbrev Value : Key → Type
  | .node => Nat
  | key => key.Value

structure Layer where
  key : Key
  scope : Option Nat
  value : Value key

def Layer.value? (layer : Layer) (key : Key) (scope : Option Nat) : Option (Value key) :=
  if h : layer.key = key then
    if layer.scope == scope then some (h ▸ layer.value) else none
  else none

structure Context where
  layers : List Layer

namespace Context

def push (context : Context) (key : Key) (value : Value key) (scope : Option Nat := none) :
    Context :=
  ⟨⟨key, scope, value⟩ :: context.layers⟩

def get? (context : Context) (key : Key) (scope : Option Nat := none) : Option (Value key) :=
  context.layers.findSome? fun layer => layer.value? key scope

def depth (context : Context) : Nat := context.layers.length

def setValue (context : Context) (value : Option Json) : Context :=
  context.push .value value

def value? (context : Context) : Option Json :=
  (context.get? .value).join

def enter (context : Context) (id : Nat) : Context :=
  context.push .node id

def activeNode (context : Context) : Except Error Nat :=
  match context.get? .node with
  | some id => .ok id
  | none => .error (.missingContextKey Key.node.name)

def inputOf? (context : Context) (id : Nat) : Option Json :=
  context.get? .input (some id)

def isSliced (context : Context) (id : Nat) : Bool :=
  (context.get? .sliced (some id)).isSome

def fillsEmpty (context : Context) (id : Nat) : Bool :=
  (context.get? .fillEmpty (some id)).isSome

end Context

/-! ## Contexts that are alike -/

variable {nodes nodes' : List Node} {arena : Arena}

/-- Values under a key that are alike: equal ones, or a number and the node that it stands for. -/
def Value.Like (nodes : List Node) : (key : Key) → Value key → key.Value → Prop
  | .node, id, node => Stands nodes id node
  | .value, value, value' => value = value'
  | .input, value, value' => value = value'
  | .parent, value, value' => value = value'
  | .index, value, value' => value = value'
  | .sliced, value, value' => value = value'
  | .fillEmpty, value, value' => value = value'
  | .host _, value, value' => value = value'

inductive Layer.Like (nodes : List Node) : Layer → PathQuery.Layer → Prop where
  | mk {key : Key} {scope : Option Nat} {scope' : Option Node} {value : Value key}
      {value' : key.Value} (scopes : Option.Rel (Stands nodes) scope scope')
      (values : value.Like nodes key value') : Like nodes ⟨key, scope, value⟩ ⟨key, scope', value'⟩

/-- A context with numbers that stand for the nodes of the other one. -/
structure Context.Like (nodes : List Node) (context : Context) (context' : PathQuery.Context) :
    Prop where
  layers : List.Forall₂ (Layer.Like nodes) context.layers context'.layers

theorem Value.Like.mono (h : nodes <+: nodes') {key : Key} {value : Value key} {value' : key.Value}
    (hlike : value.Like nodes key value') : value.Like nodes' key value' := by
  cases key with
  | node => exact Stands.mono h hlike
  | _ => exact hlike

/-- The numbers of a faithful arena are equal where the nodes are. -/
theorem stands_beq (h : arena.Faithful nodes) {id id' : Nat} {node node' : Node}
    (hid : Stands nodes id node) (hid' : Stands nodes id' node') : (id == id') = (node == node') := by
  rw [Bool.eq_iff_iff, (h.below_of hid).beq_iff (h.below_of hid'), beq_iff_eq]
  constructor
  · rintro rfl
    exact Option.some.inj (hid.symm.trans hid')
  · rintro rfl
    exact h.id_inj hid hid'

theorem scope_beq (h : arena.Faithful nodes) {asked scope : Option Nat} {asked' scope' : Option Node}
    (hscope : Option.Rel (Stands nodes) scope scope')
    (hasked : Option.Rel (Stands nodes) asked asked') : (scope == asked) = (scope' == asked') := by
  cases hscope with
  | none =>
    cases hasked with
    | none => rfl
    | some => rfl
  | some hscope =>
    cases hasked with
    | none => rfl
    | some hasked => exact stands_beq h hscope hasked

theorem Layer.Like.value? (h : arena.Faithful nodes) {layer : Layer} {layer' : PathQuery.Layer}
    (hlike : layer.Like nodes layer') (key : Key) {scope : Option Nat} {scope' : Option Node}
    (hscope : Option.Rel (Stands nodes) scope scope') :
    Option.Rel (Value.Like nodes key) (layer.value? key scope) (layer'.value? key scope') := by
  cases hlike with
  | @mk held _ _ value value' scopes values =>
    unfold Layer.value? PathQuery.Layer.value?
    -- the keys are the same, so it is only the scopes that are compared by number or by node
    by_cases hkey : held = key
    · subst hkey
      simp only [dite_true, scope_beq h scopes hscope]
      split
      · exact .some values
      · exact .none
    · simp only [dif_neg hkey]
      exact .none

namespace Context.Like

variable {context : Context} {context' : PathQuery.Context}

theorem mono (hgrown : nodes <+: nodes') (hlike : context.Like nodes context') :
    context.Like nodes' context' where
  layers := hlike.layers.imp fun _ _ hlayer => by
    cases hlayer with
    | mk scopes values =>
      refine .mk ?_ (values.mono hgrown)
      cases scopes with
      | none => exact .none
      | some hscope => exact .some (Stands.mono hgrown hscope)

/-- A lookup in contexts that are alike finds the like. -/
theorem get? (h : arena.Faithful nodes) (hlike : context.Like nodes context') (key : Key)
    {scope : Option Nat} {scope' : Option Node} (hscope : Option.Rel (Stands nodes) scope scope') :
    Option.Rel (Value.Like nodes key) (context.get? key scope) (context'.get? key scope') := by
  obtain ⟨layers⟩ := context
  obtain ⟨layers'⟩ := context'
  obtain ⟨hlayers⟩ := hlike
  unfold Context.get? PathQuery.Context.get?
  dsimp only at hlayers ⊢
  induction hlayers with
  | nil => exact .none
  | cons hfirst _ ih =>
    rw [List.findSome?_cons, List.findSome?_cons]
    have hvalue := hfirst.value? h key hscope
    revert hvalue
    generalize Layer.value? _ key scope = found
    generalize PathQuery.Layer.value? _ key scope' = found'
    intro hvalue
    cases hvalue with
    | none => exact ih
    | some hvalue => exact .some hvalue

theorem push (hlike : context.Like nodes context') {key : Key} {value : Value key}
    {value' : key.Value} (hvalue : value.Like nodes key value') {scope : Option Nat}
    {scope' : Option Node} (hscope : Option.Rel (Stands nodes) scope scope') :
    (context.push key value scope).Like nodes (context'.push key value' scope') where
  layers := .cons (.mk hscope hvalue) hlike.layers

theorem setValue (hlike : context.Like nodes context') (value : Option Json) :
    (context.setValue value).Like nodes (context'.setValue value) :=
  hlike.push (show Value.Like nodes .value value value from rfl) .none

theorem enter (hlike : context.Like nodes context') {id : Nat} {node : Node}
    (hid : Stands nodes id node) : (context.enter id).Like nodes (context'.enter node) :=
  hlike.push (show Value.Like nodes .node id node from hid) .none

/-! What the engine looks up is the same in both, or stands for the same. -/

theorem eq_of_rel {α : Type} {found found' : Option α} (h : Option.Rel (· = ·) found found') :
    found = found' := by
  cases h with
  | none => rfl
  | some heq => exact congrArg some heq

theorem value?_eq (h : arena.Faithful nodes) (hlike : context.Like nodes context') :
    context.value? = context'.value? := by
  have hvalue := hlike.get? h .value .none
  unfold Context.value? PathQuery.Context.value?
  generalize context.get? .value = found at hvalue
  generalize context'.get? .value = found' at hvalue
  cases hvalue with
  | none => rfl
  | some hvalue => exact hvalue

theorem activeNode (h : arena.Faithful nodes) (hlike : context.Like nodes context') :
    Except.Agree (Stands nodes) context.activeNode context'.activeNode := by
  have hnode := hlike.get? h .node .none
  unfold Context.activeNode PathQuery.Context.activeNode PathQuery.Context.require
  generalize context.get? .node = found at hnode
  generalize context'.get? .node = found' at hnode
  cases hnode with
  | none => exact .error _
  | some hnode => exact .ok hnode

section Scoped

variable (h : arena.Faithful nodes) (hlike : context.Like nodes context') {id : Nat} {node : Node}
  (hid : Stands nodes id node)

include h hlike hid

theorem inputOf?_eq : context.inputOf? id = context'.inputOf? node :=
  eq_of_rel (hlike.get? h .input (.some hid))

theorem isSliced_eq : context.isSliced id = context'.isSliced node :=
  congrArg Option.isSome (eq_of_rel (hlike.get? h .sliced (.some hid)))

theorem fillsEmpty_eq : context.fillsEmpty id = context'.fillsEmpty node :=
  congrArg Option.isSome (eq_of_rel (hlike.get? h .fillEmpty (.some hid)))

end Scoped

theorem depth_eq (hlike : context.Like nodes context') : context.depth = context'.depth :=
  hlike.layers.length_eq

end Context.Like

end PathQuery.Located
