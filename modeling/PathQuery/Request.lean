import PathQuery.Engine
import PathQuery.Json.Reader

/-!
# Requests and responses

A request is an object with a query and optional variables, or a list of the two; other members
are ignored, and a request member may not be repeated. The response to a request holds the data,
or the error as far as clients may see it.
-/

set_option autoImplicit false

namespace PathQuery

structure Request where
  query : Json
  /-- What the variables of the query stand for. -/
  values : List Json

namespace Request

def onlyMember? (name : String) (members : List (String × Json)) : Option (Option Json) :=
  match members.filter fun member => member.1 == name with
  | [] => some none
  | [(_, value)] => some (some value)
  | _ => none

def ofParts? (query : Json) (values : Option Json) : Option Request :=
  match values with
  | none => some ⟨query.normalize, []⟩
  | some (.array values) => some ⟨query.normalize, Json.normalizeItems values⟩
  | some _ => none

/-- Reads a request in which members may be repeated. -/
def ofJson? : Json → Option Request
  | .object members => do
    let query ← onlyMember? "query" members
    let values ← onlyMember? "variables" members
    ofParts? (← query) values
  | .array [query] => ofParts? query none
  | .array [query, values] => ofParts? query (some values)
  | _ => none

def read? (text : String) : Option Request :=
  (Json.readRaw Json.maxDepth text).bind ofJson?

def toJson (request : Request) : Json :=
  .object [("query", request.query), ("variables", .array request.values)]

end Request

/-- What is sent back: the data, or an error. -/
abbrev Response := Except PublicError Json

namespace Response

def ofResult : Except Error Json → Response
  | .ok data => .ok data
  | .error error => .error error.disclosed

def toJson : Response → Json
  | .ok data => .object [("data", data)]
  | .error error => error.toJson

end Response

/-- Answers a request on a graph that was navigated before; what happened on the way is kept. -/
def Engine.answer (engine : Engine) (arena : Arena) (request : Request) (context : Context) :
    List Event × Response × Arena :=
  let (run, arena) := engine.runOn arena request.query request.values context
  (run.trail, Response.ofResult run.result, arena)

end PathQuery
