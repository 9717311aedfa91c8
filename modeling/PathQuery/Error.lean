import PathQuery.Json.Basic

/-!
# Errors

Each constructor is one cause, with the texts that its message names. `Error.category` says who
caused it; that alone decides how much a client is shown (`Error.disclosed`).
-/

set_option autoImplicit false

namespace PathQuery

/-- Why a configuration was refused: what is invalid, and the reason. -/
structure ConfigurationFault where
  subject : String
  reason : String
deriving DecidableEq

def ConfigurationFault.message (fault : ConfigurationFault) : String :=
  s!"{fault.subject}: {fault.reason}"

inductive Error where
  | invalidQuery (key received reason : String)
  | invalidEntry (expected received : String)
  | invalidUnionHint (key hint : String)
  | noUnionMatch (key received : String)
  | ambiguousUnionMatch (key received candidates : String)
  | invalidArguments (key received reason : String)
  | invalidResolvedValue (key expected received : String)
  | unresolvedReference (key target reason : String)
  | invalidResolverPath (key : String)
  | unknownStructureKind (kind : String)
  | couldNotResolve (key : String)
  | invalidUnionAccess (key member : String)
  | noPropertiesOnLeaf (key property : String)
  | unknownProperty (key property : String)
  | missingContextKey (name : String)
  | recursionLimitExceeded (limit : Nat)
  | invalidSchema (reason : String)
  | invalidConfiguration (fault : ConfigurationFault)
  | resolverFailed (message : String)
  /-- A chain of references, aliases and nullables was given up as endless. -/
  | endlessChain (key : String)
deriving DecidableEq

/-- Who caused an error: the query, a resolver, or the set-up of the engine. -/
inductive Category where
  | client
  | server
  | internal
deriving DecidableEq

def Category.name : Category → String
  | .client => "client"
  | .server => "server"
  | .internal => "internal"

namespace Error

def category : Error → Category
  | .invalidQuery .. | .invalidEntry .. | .invalidUnionHint .. | .noUnionMatch ..
  | .ambiguousUnionMatch .. | .invalidArguments .. | .invalidUnionAccess ..
  | .noPropertiesOnLeaf .. | .unknownProperty .. | .recursionLimitExceeded .. => .client
  | .invalidResolvedValue .. | .resolverFailed .. => .server
  | .unresolvedReference .. | .invalidResolverPath .. | .unknownStructureKind ..
  | .couldNotResolve .. | .missingContextKey .. | .invalidSchema .. | .invalidConfiguration ..
  | .endlessChain .. => .internal

/-- The stable code of the cause. -/
def code : Error → String
  | .invalidQuery .. => "INVALID_QUERY"
  | .invalidEntry .. => "INVALID_ENTRY"
  | .invalidUnionHint .. => "INVALID_UNION_HINT"
  | .noUnionMatch .. => "NO_UNION_MATCH"
  | .ambiguousUnionMatch .. => "AMBIGUOUS_UNION_MATCH"
  | .invalidArguments .. => "INVALID_ARGUMENTS"
  | .invalidResolvedValue .. => "INVALID_RESOLVED_VALUE"
  | .unresolvedReference .. => "UNRESOLVED_REFERENCE"
  | .invalidResolverPath .. => "INVALID_RESOLVER_PATH"
  | .unknownStructureKind .. => "UNKNOWN_STRUCTURE_KIND"
  | .couldNotResolve .. => "COULD_NOT_RESOLVE"
  | .invalidUnionAccess .. => "INVALID_UNION_ACCESS"
  | .noPropertiesOnLeaf .. => "NO_PROPERTIES_ON_LEAF"
  | .unknownProperty .. => "UNKNOWN_PROPERTY"
  | .missingContextKey .. => "MISSING_CONTEXT_KEY"
  | .recursionLimitExceeded .. => "RECURSION_LIMIT_EXCEEDED"
  | .invalidSchema .. => "INVALID_SCHEMA"
  | .invalidConfiguration .. => "INVALID_CONFIGURATION"
  | .resolverFailed .. => "RESOLVER_FAILED"
  | .endlessChain .. => "ENDLESS_CHAIN"

def message : Error → String
  | .invalidQuery key received reason =>
    s!"invalid query at '{key}': {reason} (received {received})"
  | .invalidEntry expected received =>
    s!"queries must start at entry '{expected}', received {received}"
  | .invalidUnionHint key hint => s!"'{hint}' is not a member of union '{key}'"
  | .noUnionMatch key received =>
    s!"no member of union '{key}' matches {received}; supply an explicit `as` hint"
  | .ambiguousUnionMatch key received candidates =>
    s!"members {candidates} of union '{key}' all match {received}; supply an explicit `as` hint"
  | .invalidArguments key received reason =>
    s!"invalid arguments for '{key}': {reason} (received {received})"
  | .invalidResolvedValue key expected received =>
    s!"resolver for '{key}' produced {received} where {expected} was expected"
  | .unresolvedReference key target reason =>
    s!"could not resolve reference '{target}' from '{key}': {reason}"
  | .invalidResolverPath key =>
    s!"resolver registered on '{key}' is not reachable from this engine's root"
  | .unknownStructureKind kind => s!"unknown structure kind '{kind}'"
  | .couldNotResolve key => s!"could not resolve a value for '{key}'"
  | .invalidUnionAccess key member => s!"'{member}' is not a member of union '{key}'"
  | .noPropertiesOnLeaf key property => s!"'{key}' has no properties, cannot access '{property}'"
  | .unknownProperty key property => s!"'{key}' has no property '{property}'"
  | .missingContextKey name => s!"context has no value for '{name}'"
  | .recursionLimitExceeded limit => s!"query nesting exceeds the recursion limit of {limit}"
  | .invalidSchema reason => s!"invalid schema: {reason}"
  | .invalidConfiguration fault => s!"invalid configuration: {fault.message}"
  | .resolverFailed message => s!"resolver failed: {message}"
  | .endlessChain key => s!"the chain of wrappers at '{key}' does not end"

/-- The key of the node that the error is about. -/
def key? : Error → Option String
  | .invalidQuery key _ _ | .invalidUnionHint key _ | .noUnionMatch key _
  | .ambiguousUnionMatch key _ _ | .invalidArguments key _ _ | .invalidResolvedValue key _ _
  | .unresolvedReference key _ _ | .invalidResolverPath key | .couldNotResolve key
  | .invalidUnionAccess key _ | .noPropertiesOnLeaf key _ | .unknownProperty key _
  | .endlessChain key => some key
  | .invalidEntry expected _ => some expected
  | .unknownStructureKind _ | .missingContextKey _ | .recursionLimitExceeded _
  | .invalidSchema _ | .invalidConfiguration _ | .resolverFailed _ => none

end Error

/-- What a client is shown of an error. -/
structure PublicError where
  message : String
  code : String
  key? : Option String
deriving DecidableEq

/-- Text and key are shown only where the client is to blame. -/
def Error.disclosed (error : Error) : PublicError :=
  match error.category with
  | .client => { message := error.message, code := error.code, key? := error.key? }
  | .server | .internal =>
    { message := "internal error while resolving the query", code := error.code, key? := none }

def PublicError.toJson (shown : PublicError) : Json :=
  let key := shown.key?.toList.map fun key => ("key", Json.string key)
  .object [("message", .string shown.message),
    ("extensions", .object (("code", .string shown.code) :: key))]

end PathQuery
