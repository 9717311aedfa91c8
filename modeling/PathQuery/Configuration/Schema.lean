import PathQuery.Configuration.Reader

/-!
# The JSON schema of configurations

Draft 7; the default of the only section is the default configuration itself.
-/

set_option autoImplicit false

namespace PathQuery.Configuration

/-- What a configuration field accepts, with its default. -/
def schemaField (type description : String) (default : Json) (more : List (String × Json)) : Json :=
  .object ([("description", .string description), ("default", default), ("type", .string type)] ++
    more)

/-- Unsigned integers. -/
def unsignedFormat : List (String × Json) :=
  [("format", .string "uint"), ("minimum", .number (.float 0))]

def executionSchema : Json :=
  let standard : Execution := {}
  .object [
    ("max_page_size", schemaField "integer"
      "Largest `pageSize` a `paginate` instruction may ask for default: unlimited"
      ((standard.maxPageSize.map Json.ofNat).getD .null)
      (unsignedFormat ++ [("nullable", .bool true)])),
    ("parallel", schemaField "boolean"
      ("Resolve sibling selections and list items concurrently. Results keep the order of the " ++
        "query. default: false")
      (.bool standard.parallel) []),
    ("recursion_limit", schemaField "integer" "Maximum nesting of a compiled query default: 512"
      (.ofNat standard.recursionLimit) unsignedFormat)]

def schema : Json :=
  let standard : Configuration := {}
  .object [
    ("$schema", .string "http://json-schema.org/draft-07/schema#"),
    ("title", .string "Configuration"),
    ("description", .string "The configuration for the engine."),
    ("type", .string "object"),
    ("properties", .object [
      ("execution", schemaField "object" "Query execution"
        ((standard.toJson.member? "execution").getD .null)
        [("properties", executionSchema), ("additionalProperties", .bool false)])]),
    ("additionalProperties", .bool false)]

end PathQuery.Configuration
