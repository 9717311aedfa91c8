import PathQuery.Graph.Site
import PathQuery.Schema.Basic

/-!
# Graph nodes

A node is a position: the steps that lead to it from the root of its graph, with the site met after
each of them. Two nodes are the same if they stand at the end of the same steps in the same graph.
-/

set_option autoImplicit false

namespace PathQuery

/-- A schema to navigate; graphs of equal schemas are told apart by their identity. -/
structure Graph where
  identity : Nat
  schema : Schema

inductive Node where
  | root (graph : Graph)
  | child (parent : Node) (step : Step) (site : Site)

namespace Graph

def root (graph : Graph) : Node := .root graph

def rootSite (graph : Graph) : Site :=
  .declared graph.schema.root []

end Graph

namespace Node

def graph : Node → Graph
  | root graph => graph
  | child parent _ _ => parent.graph

def site : Node → Site
  | root graph => graph.rootSite
  | child _ _ site => site

def shape (node : Node) : Structure := node.site.shape

def kind (node : Node) : Kind := node.shape.kind

def key (node : Node) : String := node.shape.key

def bindings (node : Node) : Bindings := node.site.bindings

/-- The steps from the root, the last one first. -/
def trace : Node → List Step
  | root _ => []
  | child parent step _ => step :: parent.trace

instance : BEq Node :=
  ⟨fun a b => decide (a.graph.identity = b.graph.identity ∧ a.trace = b.trace)⟩

theorem beq_iff (a b : Node) :
    (a == b) = true ↔ a.graph.identity = b.graph.identity ∧ a.trace = b.trace := by
  simp [BEq.beq]

def parent? : Node → Option Node
  | root _ => none
  | child parent _ _ => some parent

def isRoot : Node → Bool
  | root _ => true
  | child .. => false

def top : Node → Node
  | root graph => root graph
  | child parent _ _ => parent.top

/-- The structures crossed since the last root level declaration was entered. -/
def lineage : Node → List Structure
  | root _ => []
  | child parent _ site =>
    if site.declaration then [site.shape] else parent.lineage ++ [site.shape]

def child? (node : Node) (step : Step) : Except Error Node :=
  (node.site.child node.graph.schema.entries step).map (child node step)

end Node

end PathQuery
