import PathQuery.Schema.Chain
import PathQuery.Structure.Decode
import PathQuery.Structure.Encode

/-!
# Schemas

A schema is a list of root level declarations that was accepted: names are distinct, every
declaration is well formed, and no reference chain is endless.
-/

set_option autoImplicit false

namespace PathQuery

namespace Declarations

/-- All declarations are well formed, each in the scope of its own parameters; then the chains. -/
def validate (declarations : Declarations) : Except Error Unit := do
  declarations.forM fun (_, declaration) =>
    declarations.check declaration.parameters declaration
  let anonymous : Declarations := Structure.anonymousEntries declarations
  anonymous.forM fun (name, declaration) => anonymous.checkChainFrom name declaration

end Declarations

structure Schema where
  entries : Declarations
  nodup_names : (Keyed.names entries).Nodup
  accepted : Declarations.validate entries = .ok ()

namespace Schema

/-- Builds a schema. A repeated name keeps its first place and takes the last declaration. -/
def ofEntries (declarations : Declarations) : Except Error Schema :=
  let entries : Declarations := Keyed.ofList declarations
  match h : entries.validate with
  | .ok () => .ok ⟨entries, Keyed.nodup_ofList declarations, h⟩
  | .error error => .error error

def entry? (schema : Schema) (name : String) : Option Structure :=
  schema.entries.lookup name

def root (schema : Schema) : Structure :=
  .root schema.entries

/-! ## Documents -/

mutual

/-- The first unknown kind of a document: an object's own before those of its members. -/
def unknownKind? : Json → Option String
  | .object members =>
    match members.lookup "kind" with
    | some (.string name) =>
      if (Kind.ofName? name).isNone then some name else unknownKindAmongMembers? members
    | _ => unknownKindAmongMembers? members
  | .array items => unknownKindAmong? items
  | _ => none

def unknownKindAmong? : List Json → Option String
  | [] => none
  | item :: rest => (unknownKind? item).orElse fun _ => unknownKindAmong? rest

def unknownKindAmongMembers? : List (String × Json) → Option String
  | [] => none
  | (_, value) :: rest => (unknownKind? value).orElse fun _ => unknownKindAmongMembers? rest

end

/-- A document without a kind is taken for the root. -/
def withKind : Json → Json
  | .object members =>
    if (members.lookup "kind").isSome then .object members
    else .object (members ++ [("kind", .string Kind.root.name)])
  | document => document

/-- The kind of the document itself is given by its name. -/
def checkTag (document : Json) : Except String Unit :=
  let tag := match document with
    | .object members => members.lookup "kind"
    | .array items => items.head?
    | _ => none
  match tag with
  | some (.number value) => .error (Decode.mismatch (.number value) "variant identifier")
  | _ => .ok ()

def ofJson (document : Json) : Except Error Schema := do
  if let some kind := unknownKind? document then
    throw (.unknownStructureKind kind)
  let document := withKind document
  let decoded := do
    checkTag document
    Structure.decode document
  match decoded with
  | .error reason => throw (.invalidSchema reason)
  | .ok tree =>
    match (tree.number 1).1 with
    | .root entries => ofEntries entries
    | other => throw (.invalidSchema s!"expected a root structure, found '{other.kind.name}'")

def toJson (schema : Schema) : Json :=
  schema.root.encode

end Schema

end PathQuery
