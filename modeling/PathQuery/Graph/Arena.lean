import PathQuery.Graph.Walk

/-!
# Arenas

An arena numbers the positions of a graph that were visited. Number zero is the root; a child is
entered once for each parent and step, after its parent, and its parent remembers it.
-/

set_option autoImplicit false

namespace PathQuery

/-- A visited position: how it was reached, the site found there, and the children entered so
far. -/
structure Cell where
  origin : Option (Nat × Step)
  site : Site
  children : List (Step × Nat)

structure Arena where
  graph : Graph
  cells : Array Cell

namespace Arena

def ofGraph (graph : Graph) : Arena :=
  { graph, cells := #[⟨none, graph.rootSite, []⟩] }

def size (arena : Arena) : Nat := arena.cells.size

def site (arena : Arena) (id : Nat) : Site :=
  (arena.cells[id]?.map Cell.site).getD arena.graph.rootSite

def known? (arena : Arena) (id : Nat) (step : Step) : Option Nat :=
  arena.cells[id]?.bind fun cell => cell.children.lookup step

def insert (arena : Arena) (id : Nat) (step : Step) (site : Site) : Arena :=
  let cells := arena.cells.modify id fun cell =>
    { cell with children := (step, arena.size) :: cell.children }
  { arena with cells := cells.push ⟨some (id, step), site, []⟩ }

/-- The child of a position, which is entered if it is new. A failing step leaves the arena as it
is. -/
def child (arena : Arena) (id : Nat) (step : Step) : Except Error Nat × Arena :=
  match arena.known? id step with
  | some known => (.ok known, arena)
  | none =>
    match (arena.site id).child arena.graph.schema.entries step with
    | .error error => (.error error, arena)
    | .ok site => (.ok arena.size, arena.insert id step site)

/-- Takes steps one after another, the last one of the list first. -/
def descend (arena : Arena) : List Step → Except Error Nat × Arena
  | [] => (.ok 0, arena)
  | step :: before =>
    match arena.descend before with
    | (.ok id, arena) => arena.child id step
    | (.error error, arena) => (.error error, arena)

def enter (arena : Arena) (node : Node) : Except Error Nat × Arena :=
  arena.descend node.trace

/-- Enters the nodes of a trail that belong to this graph. -/
def absorb (arena : Arena) (trail : List Node) : Arena :=
  trail.foldl (fun arena node =>
    if node.graph.identity = arena.graph.identity then (arena.enter node).2 else arena) arena

/-- The outcome of a walk, and the arena with everything it visited. -/
def perform {α : Type} (arena : Arena) (walk : Walk α) : Except Error α × Arena :=
  (walk.result, arena.absorb walk.trail)

/-! ## Upward walks -/

/-- The position that a position was reached from; it has the smaller number. -/
def parent? (arena : Arena) (id : Nat) : Option Nat :=
  match arena.cells[id]? with
  | some ⟨some (parent, _), _, _⟩ => some parent
  | _ => none

/-- The last position on the way up. -/
def top (arena : Arena) (id : Nat) : Nat :=
  match arena.parent? id with
  | some parent => if _h : parent < id then arena.top parent else id
  | none => id
termination_by id

/-- The structures crossed since the last root level declaration was entered. -/
def lineage (arena : Arena) (id : Nat) : List Structure :=
  match arena.parent? id with
  | none => []
  | some parent =>
    let site := arena.site id
    if site.declaration then [site.shape]
    else if _h : parent < id then arena.lineage parent ++ [site.shape] else []
termination_by id

end Arena

end PathQuery
