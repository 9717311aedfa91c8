import PathQuery.Proofs.Query.Assembly
import PathQuery.Proofs.Query.Enclosure

/-!
# Hosts

A host is a middleware that keeps to what a context offers to it. It looks at the context, and hands it
on or back with layers of its own on top: a value, data under the keys of the host, a list that is
sliced already, or the mark of a default. Once the rest of the chain has run, it does so again with the
context that it got back, or with the one that it had received.
-/

set_option autoImplicit false

namespace PathQuery

/-- The keys that tell where in a run something is resolved. -/
def Key.positional : Key → Bool
  | .node | .parent | .index => true
  | _ => false

theorem Context.get?_append {layers rest : List Layer} {key : Key} {scope : Option Node}
    (h : ∀ layer ∈ layers, layer.key ≠ key) :
    (⟨layers ++ rest⟩ : Context).get? key scope = (⟨rest⟩ : Context).get? key scope := by
  have hnone : layers.findSome? (fun layer => layer.value? key scope) = none := by
    rw [List.findSome?_eq_none_iff]
    intro layer hlayer
    rw [Layer.value?, dif_neg (h layer hlayer)]
  rw [get?, get?, List.findSome?_append, hnone]
  rfl

inductive Contribution where
  | set (value : Option Json)
  | data (name : String) (value : Json) (scope : Option Node)
  | sliced (list : Json)
  | fillEmpty

namespace Contribution

variable {context : Context} {node : Node}

/-- What is pushed while a node is active, the latest first. -/
def layers (node : Node) : Contribution → List Layer
  | set value => [⟨.value, none, value⟩]
  | data name value scope => [⟨.host name, scope, value⟩]
  | sliced list => [⟨.value, none, some list⟩, ⟨.sliced, some node, ()⟩]
  | fillEmpty => [⟨.fillEmpty, some node, ()⟩]

def apply (context : Context) : Contribution → Except Error Context
  | set value => .ok (context.setValue value)
  | data name value scope => .ok (context.push (.host name) value scope)
  | sliced list => context.setSliced list
  | fillEmpty => do
    let node ← context.activeNode
    return context.push .fillEmpty () (some node)

theorem apply_eq (h : context.get? .node = some node) (contribution : Contribution) :
    contribution.apply context = .ok ⟨contribution.layers node ++ context.layers⟩ := by
  have hactive := Context.activeNode_of_get? h
  cases contribution with
  | set | data => rfl
  | sliced list =>
    rw [apply, Context.setSliced, hactive]
    rfl
  | fillEmpty =>
    rw [apply, hactive]
    rfl

theorem get?_layers {key : Key} (h : key.positional = true) (contribution : Contribution) :
    (⟨contribution.layers node ++ context.layers⟩ : Context).get? key = context.get? key := by
  refine Context.get?_append fun layer hlayer heq => ?_
  rw [← heq] at h
  cases contribution with
  | set | data | fillEmpty =>
    cases List.mem_singleton.mp hlayer
    cases h
  | sliced list =>
    rcases List.mem_cons.mp hlayer with rfl | hlayer
    · cases h
    · cases List.mem_singleton.mp hlayer
      cases h

end Contribution

/-- The context that is built on once the rest of the chain has run. -/
inductive Basis where
  | received
  | returned

def Basis.pick {α : Type} (received returned : α) : Basis → α
  | .received => received
  | .returned => returned

/-- What a host does with a context: it hands it back, or on, with something added, and says what it
will then make of the context that it gets back, or of a failure. -/
inductive Course where
  | stop (added : List Contribution)
  | goOn (added : List Contribution) (returned : Context → Run (Basis × List Contribution))
      (failed : Error → Run (List Contribution))

abbrev Host := Context → Run Course

namespace Host

/-- The context with everything on top that a host adds. -/
def extend (context : Context) (added : List Contribution) : Run Context :=
  Traced.ofExcept (added.foldlM Contribution.apply context)

def middleware (host : Host) : Middleware := fun context next => do
  match ← host context with
  | .stop added => extend context added
  | .goOn added returned failed => do
    let inner ← extend context added
    match ← (next inner).attempt with
    | .ok last => do
      let (basis, added) ← returned last
      extend (basis.pick context last) added
    | .error error => do extend context (← failed error)

/-- Goes on with something added, and hands back what it gets back. -/
def relay (added : Context → List Contribution) : Host := fun context =>
  return .goOn (added context) (fun _ => return (.returned, [])) fun error => Traced.fail error

end Host

structure HostedResolver where
  node : Node
  hosts : List Host

namespace HostedResolver

def resolver (hosted : HostedResolver) : Resolver :=
  ⟨hosted.node, hosted.hosts.map Host.middleware⟩

def hostsAt (resolvers : List HostedResolver) (shape : Structure) : List Host :=
  resolvers.flatMap fun hosted =>
    if hosted.node.shape.identity? = shape.identity? then hosted.hosts else []

theorem atShape_hosted (resolvers : List HostedResolver) (shape : Structure) :
    (Resolvers.bind (resolvers.map resolver)).atShape shape =
      (hostsAt resolvers shape).map Host.middleware :=
  Resolvers.atShape_bind_map node hosts Host.middleware resolvers shape

end HostedResolver

end PathQuery
