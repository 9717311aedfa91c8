import PathQuery.Structure.Basic

/-!
# Structures as JSON

Each structure is an object with its kind first and its fields in declaration order. An absent
name, no parameters of an object and no type arguments are left out.
-/

set_option autoImplicit false

namespace PathQuery.Structure

def nameList (parameters : List String) : Json :=
  .array (parameters.map .string)

/-- A field that is left out when it holds nothing. -/
def unlessEmpty (field : String) (items : List Json) : List (String × Json) :=
  if items.isEmpty then [] else [(field, .array items)]

def tagged (kind : Kind) (fields : List (String × Json)) : Json :=
  .object (("kind", .string kind.name) :: fields)

mutual

def encode : Structure → Json
  | root entries => tagged .root [("entries", .object (encodeEntries entries))]
  | object label name parameters properties =>
    tagged .object <|
      ("key", .string label.key) ::
        (name.toList.map fun name => ("name", .string name)) ++
        unlessEmpty "parameters" (parameters.map .string) ++
        [("properties", .array (encodeProperties properties))]
  | typeAlias label name parameters body =>
    tagged .typeAlias [("key", .string label.key), ("name", .string name),
      ("parameters", nameList parameters), ("type", encode body)]
  | ref label target typeArguments =>
    tagged .ref <| ("key", .string label.key) :: ("target", .string target) ::
      unlessEmpty "typeArguments" (encodeAll typeArguments)
  | union label members =>
    tagged .union [("key", .string label.key), ("members", .array (encodeAll members))]
  | array label items => tagged .array [("key", .string label.key), ("items", encode items)]
  | nullable label inner => tagged .nullable [("key", .string label.key), ("inner", encode inner)]
  | function label args returns =>
    tagged .function [("key", .string label.key), ("arguments", encode args),
      ("returns", encode returns)]
  | arguments label items =>
    tagged .arguments [("key", .string label.key), ("items", .array (encodeProperties items))]
  | primitive label type =>
    tagged .primitive [("key", .string label.key), ("type", .string type.name)]
  | literal label value => tagged .literal [("key", .string label.key), ("value", value)]

def encodeAll : List Structure → List Json
  | [] => []
  | s :: rest => encode s :: encodeAll rest

def encodeProperties : List (Property Structure) → List Json
  | [] => []
  | ⟨name, shape, optional⟩ :: rest =>
    .object [("name", .string name), ("structure", encode shape), ("optional", .bool optional)] ::
      encodeProperties rest

def encodeEntries : List (String × Structure) → List (String × Json)
  | [] => []
  | (name, s) :: rest => (name, encode s) :: encodeEntries rest

end

end PathQuery.Structure
