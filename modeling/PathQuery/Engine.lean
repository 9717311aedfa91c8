import PathQuery.Graph.Arena
import PathQuery.Query.Compilation
import PathQuery.Query.Variables

/-!
# Engines

An engine answers queries against one graph, starting from one root level declaration. A failure
anywhere fails the whole run; an undefined result is written as null.
-/

set_option autoImplicit false

namespace PathQuery

structure Engine where
  setting : Setting
  /-- They are tried in this order. -/
  operators : List Operator

namespace Engine

/-- Every resolver is registered on a node of the graph, and the entry is one of its root level
declarations. Operators of the host are tried before the built-in ones. -/
def assemble (graph : Graph) (entry : String) (resolvers : List Resolver)
    (operators : List Operator) (configuration : Configuration) : Except Error Engine := do
  if (graph.schema.entry? entry).isNone then
    throw (.invalidSchema s!"entry '{entry}' is not a root level declaration")
  let resolvers ← Resolvers.ofList graph resolvers
  if let .error fault := configuration.validate then
    throw (.invalidConfiguration fault)
  let setting : Setting :=
    { graph, entry, resolvers, execution := configuration.execution, reach := defaultReach }
  return ⟨setting, operators ++ Operator.builtin⟩

/-- The instructions of a query, once its variables are replaced. -/
def instructions (engine : Engine) (query : Json) (values : List Json) :
    Except Error (List Json) := do
  match ← Variables.substitute engine.setting.entry values query with
  | .array instructions => return instructions
  | other => throw (Instruction.invalid engine.setting.entry other
      "a query must be a list of instructions")

/-- Compiles a whole query, starting at the root. -/
def plan (engine : Engine) (query : List Json) : Walk Middleware :=
  let setting := engine.setting
  setting.compile engine.operators setting.execution.recursionLimit false setting.graph.root query

/-- Compiles and runs a query; resolvers see what the context was seeded with. -/
def run (engine : Engine) (query : Json) (values : List Json) (context : Context) :
    Run Json := do
  let instructions ← Traced.ofExcept (engine.instructions query values)
  let middleware ← Walk.run (engine.plan instructions)
  return (← middleware.evaluate context).getD .null

/-- A run on a graph that was navigated before, and the arena with what the run visited. -/
def runOn (engine : Engine) (arena : Arena) (query : Json) (values : List Json)
    (context : Context) : Run Json × Arena :=
  let run := engine.run query values context
  (run, arena.absorb run.visited)

end Engine

end PathQuery
