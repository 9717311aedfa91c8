import PathQuery.Json.Printer
import PathQuery.Structure.Basic
import PathQuery.Text.Quoted

/-!
# Structures from JSON

A structure is written as an object, its kind anywhere among the members, or as a list: the kind,
then every field in declaration order. Members are read in the order of the document and the first
bad one is reported; then the first field that is required and absent. `Decode.read` follows what
is expected of a value; `Decode.assemble` builds a structure from the fields of its kind.
-/

set_option autoImplicit false

namespace PathQuery

/-- What a value of the document should be. -/
inductive Expected where
  | text
  | optionalText
  | flag
  | primitive
  | value
  | shape
  | property
  | entries
  | list (item : Expected)

/-- A value of the document, read as it was expected. -/
inductive Part where
  | text (text : String)
  | optionalText (text : Option String)
  | flag (flag : Bool)
  | primitive (type : Primitive)
  | value (value : Json)
  | shape (shape : Structure)
  | property (property : Property Structure)
  | entries (entries : List (String × Structure))
  | list (items : List Part)

/-- A field of a structure or property; one that is not required may be absent. -/
structure Field where
  name : String
  expected : Expected
  required : Bool

/-- The fields of a record and the name that messages give it. -/
structure Record where
  name : String
  fields : List Field

namespace Record

def key : Field := ⟨"key", .text, true⟩

def ofKind : Kind → Record
  | .root => ⟨"RootStructure", [⟨"entries", .entries, true⟩]⟩
  | .object => ⟨"ObjectStructure", [key, ⟨"name", .optionalText, false⟩,
      ⟨"parameters", .list .text, false⟩, ⟨"properties", .list .property, true⟩]⟩
  | .typeAlias => ⟨"AliasStructure", [key, ⟨"name", .text, true⟩,
      ⟨"parameters", .list .text, false⟩, ⟨"type", .shape, true⟩]⟩
  | .ref => ⟨"RefStructure", [key, ⟨"target", .text, true⟩,
      ⟨"typeArguments", .list .shape, false⟩]⟩
  | .union => ⟨"UnionStructure", [key, ⟨"members", .list .shape, true⟩]⟩
  | .array => ⟨"ArrayStructure", [key, ⟨"items", .shape, true⟩]⟩
  | .nullable => ⟨"NullableStructure", [key, ⟨"inner", .shape, true⟩]⟩
  | .function => ⟨"FunctionStructure", [key, ⟨"arguments", .shape, true⟩,
      ⟨"returns", .shape, true⟩]⟩
  | .arguments => ⟨"ArgumentsStructure", [key, ⟨"items", .list .property, true⟩]⟩
  | .primitive => ⟨"PrimitiveStructure", [key, ⟨"type", .primitive, true⟩]⟩
  | .literal => ⟨"LiteralStructure", [key, ⟨"value", .value, true⟩]⟩

def property : Record :=
  ⟨"Property", [⟨"name", .text, true⟩, ⟨"structure", .shape, true⟩, ⟨"optional", .flag, false⟩]⟩

/-- What is expected of the member called `name`. -/
def expected? (record : Record) (name : String) : Option Expected :=
  (record.fields.find? fun field => field.name == name).map Field.expected

end Record

/-! ## Reasons -/

/-- A value as messages describe it. -/
def Json.described : Json → String
  | .null => "null"
  | .bool value => s!"boolean `{value}`"
  | .number (.int value) => s!"integer `{value}`"
  | .number (.float bits) => s!"floating point `{Number.layout.text bits}`"
  | .string text => s!"string {Text.quoted text}"
  | .array _ => "sequence"
  | .object _ => "map"

def Expected.described : Expected → String
  | .text | .optionalText => "a string"
  | .flag => "a boolean"
  | .primitive => "string or map"
  | .value => "any value"
  | .shape => "internally tagged enum Structure"
  | .property => "struct Property"
  | .entries => "a map"
  | .list _ => "a sequence"

namespace Decode

def mismatch (found : Json) (expected : String) : String :=
  s!"invalid type: {found.described}, expected {expected}"

def missing (field : String) : String :=
  s!"missing field `{field}`"

def unknownVariant (found : String) (known : List String) : String :=
  s!"unknown variant `{found}`, expected one of " ++
    ", ".intercalate (known.map fun name => s!"`{name}`")

/-- `n elements`, or `1 element`. -/
def elements (n : Nat) : String :=
  if n = 1 then "1 element" else s!"{n} elements"

/-- A list ended before the required field at `position`. -/
def tooShort (record : Record) (position : Nat) : String :=
  s!"invalid length {position}, expected struct {record.name} with " ++
    elements record.fields.length

def tooLong (record : Record) (received : Nat) : String :=
  s!"invalid length {received}, expected {elements record.fields.length} in sequence"

/-! ## Kinds -/

/-- A kind by its name, or inside the tree by its position. -/
def kind : Option Json → Except String Kind
  | none => .error (missing "kind")
  | some (.string name) =>
    match Kind.ofName? name with
    | some kind => .ok kind
    | none => .error (unknownVariant name (Kind.all.map Kind.name))
  | some (.number (.int (.ofNat n))) =>
    match Kind.all[n]? with
    | some kind => .ok kind
    | none => .error s!"invalid value: integer `{n}`, expected variant index 0 <= i < 11"
  | some found => .error (mismatch found "variant identifier")

def primitiveNamed (name : String) : Except String Primitive :=
  match Primitive.ofName? name with
  | some type => .ok type
  | none => .error (unknownVariant name (Primitive.all.map Primitive.name))

/-- A primitive type by its name, also as the only member of an object without content. -/
def primitive : Json → Except String Primitive
  | .string name => primitiveNamed name
  | .object [(name, content)] => do
    let type ← primitiveNamed name
    match content with
    | .null | .object [] => return type
    | found => throw (mismatch found "unit")
  | .object _ => .error "invalid value: map, expected map with a single key"
  | found => .error (mismatch found Expected.primitive.described)

/-! ## Assembly -/

/-- The fields of a record that were present. -/
abbrev Parts := List (String × Part)

def Parts.shape (parts : Parts) (field : String) : Except String Structure :=
  match parts.lookup field with
  | some (.shape shape) => .ok shape
  | _ => .error (missing field)

def Parts.text (parts : Parts) (field : String) : Except String String :=
  match parts.lookup field with
  | some (.text text) => .ok text
  | _ => .error (missing field)

def Parts.optionalText (parts : Parts) (field : String) : Option String :=
  match parts.lookup field with
  | some (.optionalText text) => text
  | _ => none

def Parts.items (parts : Parts) (field : String) : Except String (List Part) :=
  match parts.lookup field with
  | some (.list items) => .ok items
  | _ => .error (missing field)

def texts (items : List Part) : List String :=
  items.filterMap fun
    | .text text => some text
    | _ => none

def structures (items : List Part) : List Structure :=
  items.filterMap fun
    | .shape shape => some shape
    | _ => none

def properties (items : List Part) : List (Property Structure) :=
  items.filterMap fun
    | .property property => some property
    | _ => none

/-- Items of a field that may be absent. -/
def Parts.itemsOrNone (parts : Parts) (field : String) : List Part :=
  match parts.lookup field with
  | some (.list items) => items
  | _ => []

def label (key : String) : Label := ⟨0, key⟩

def assemble (parts : Parts) : Kind → Except String Structure
  | .root =>
    match parts.lookup "entries" with
    | some (.entries entries) => .ok (.root entries)
    | _ => .error (missing "entries")
  | .object => do
    let key ← parts.text "key"
    let members ← parts.items "properties"
    return .object (label key) (parts.optionalText "name") (texts (parts.itemsOrNone "parameters"))
      (properties members)
  | .typeAlias => do
    let key ← parts.text "key"
    let name ← parts.text "name"
    let body ← parts.shape "type"
    return .typeAlias (label key) name (texts (parts.itemsOrNone "parameters")) body
  | .ref => do
    let key ← parts.text "key"
    let target ← parts.text "target"
    return .ref (label key) target (structures (parts.itemsOrNone "typeArguments"))
  | .union => do
    let key ← parts.text "key"
    let members ← parts.items "members"
    return .union (label key) (structures members)
  | .array => do
    let key ← parts.text "key"
    return .array (label key) (← parts.shape "items")
  | .nullable => do
    let key ← parts.text "key"
    return .nullable (label key) (← parts.shape "inner")
  | .function => do
    let key ← parts.text "key"
    let arguments ← parts.shape "arguments"
    return .function (label key) arguments (← parts.shape "returns")
  | .arguments => do
    let key ← parts.text "key"
    let items ← parts.items "items"
    return .arguments (label key) (properties items)
  | .primitive => do
    let key ← parts.text "key"
    match parts.lookup "type" with
    | some (.primitive type) => return .primitive (label key) type
    | _ => throw (missing "type")
  | .literal => do
    let key ← parts.text "key"
    match parts.lookup "value" with
    | some (.value value) => return .literal (label key) value
    | _ => throw (missing "value")

def assembleProperty (parts : Parts) : Except String (Property Structure) := do
  let name ← parts.text "name"
  let shape ← parts.shape "structure"
  let optional := match parts.lookup "optional" with
    | some (.flag flag) => flag
    | _ => false
  return ⟨name, shape, optional⟩

/-! ## Reading -/

mutual

def read : Expected → Json → Except String Part
  | .text, .string text => .ok (.text text)
  | .optionalText, .string text => .ok (.optionalText (some text))
  | .optionalText, .null => .ok (.optionalText none)
  | .flag, .bool flag => .ok (.flag flag)
  | .primitive, found => (primitive found).map .primitive
  | .value, found => .ok (.value found)
  | .list item, .array items => (readItems item items).map .list
  | .entries, .object members => (readEntries members).map .entries
  | .shape, .object members => do
    let kind ← kind (members.lookup "kind")
    let parts ← readMembers (Record.ofKind kind) members
    (assemble parts kind).map .shape
  | .shape, .array (tag :: items) => do
    let kind ← kind (some tag)
    let record := Record.ofKind kind
    let parts ← readPositions record items.length 0 record.fields items
    (assemble parts kind).map .shape
  | .shape, .array [] => .error (missing "kind")
  | .property, .object members => do
    let parts ← readMembers Record.property members
    (assembleProperty parts).map .property
  | .property, .array items => do
    let parts ← readPositions Record.property items.length 0 Record.property.fields items
    (assembleProperty parts).map .property
  | expected, found => .error (mismatch found expected.described)

def readItems (item : Expected) : List Json → Except String (List Part)
  | [] => .ok []
  | value :: rest => do
    let part ← read item value
    let parts ← readItems item rest
    return part :: parts

/-- The members of an object that name a field; all others are ignored. -/
def readMembers (record : Record) : List (String × Json) → Except String Parts
  | [] => .ok []
  | (name, value) :: rest =>
    match record.expected? name with
    | none => readMembers record rest
    | some expected => do
      let part ← read expected value
      let parts ← readMembers record rest
      return (name, part) :: parts

/-- One value for each field, from `position` on; fields at the end that are not required may be
left out. -/
def readPositions (record : Record) (received position : Nat) :
    List Field → List Json → Except String Parts
  | [], [] => .ok []
  | [], _ :: _ => .error (tooLong record received)
  | field :: fields, value :: rest => do
    let part ← read field.expected value
    let parts ← readPositions record received (position + 1) fields rest
    return (field.name, part) :: parts
  | field :: fields, [] =>
    match (field :: fields).findIdx? Field.required with
    | some ahead => .error (tooShort record (position + ahead))
    | none => .ok []

def readEntries : List (String × Json) → Except String (List (String × Structure))
  | [] => .ok []
  | (name, value) :: rest => do
    match ← read .shape value with
    | .shape shape =>
      let entries ← readEntries rest
      return (name, shape) :: entries
    | _ => throw (mismatch value Expected.shape.described)

end

end Decode

/-- Reads a structure; identities are still to be given. -/
def Structure.decode (value : Json) : Except String Structure := do
  match ← Decode.read .shape value with
  | .shape shape => return shape
  | _ => throw (Decode.mismatch value Expected.shape.described)

end PathQuery
