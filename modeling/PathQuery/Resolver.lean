import PathQuery.Middleware.Basic

/-!
# Resolvers

A resolver binds middlewares to a node. They are found again by the identity of the node's
structure, whichever way the structure was reached, in the order of registration.
-/

set_option autoImplicit false

namespace PathQuery

structure Resolver where
  node : Node
  middlewares : List Middleware

/-- Replaces the undefined value of each node by an empty object or list. -/
def Resolver.emptyDefaults (nodes : List Node) : List Resolver :=
  nodes.map fun node => ⟨node, [Middleware.fillEmpty]⟩

/-- Middlewares by the identity of the structure that they resolve. -/
structure Resolvers where
  bound : List (Option Nat × List Middleware)

namespace Resolvers

/-- Refuses the first resolver whose node belongs to another graph. -/
def ofList (graph : Graph) (resolvers : List Resolver) : Except Error Resolvers :=
  match resolvers.find? fun resolver => resolver.node.top != graph.root with
  | some resolver => .error (.invalidResolverPath resolver.node.key)
  | none => .ok ⟨resolvers.map fun resolver =>
      (resolver.node.shape.identity?, resolver.middlewares)⟩

/-- All middlewares of a structure, the first registered outermost. -/
def atShape (resolvers : Resolvers) (shape : Structure) : List Middleware :=
  resolvers.bound.flatMap fun (identity, middlewares) =>
    if identity = shape.identity? then middlewares else []

end Resolvers

end PathQuery
