import PathQuery.Json.Basic

/-!
# Structures

A structure describes the shape of one type. Every structure but the root carries a label: the
dotted key it was declared under, for diagnostics, and its identity, which two structures share
only if they are one declaration.
-/

set_option autoImplicit false

namespace PathQuery

inductive Kind where
  | root
  | object
  | typeAlias
  | ref
  | union
  | array
  | nullable
  | function
  | arguments
  | primitive
  | literal
deriving DecidableEq

namespace Kind

def all : List Kind :=
  [root, object, typeAlias, ref, union, array, nullable, function, arguments, primitive, literal]

def name : Kind → String
  | root => "root"
  | object => "object"
  | typeAlias => "alias"
  | ref => "ref"
  | union => "union"
  | array => "array"
  | nullable => "nullable"
  | function => "function"
  | arguments => "arguments"
  | primitive => "primitive"
  | literal => "literal"

def ofName? (name : String) : Option Kind :=
  all.find? fun kind => kind.name == name

@[simp] theorem ofName?_name (kind : Kind) : ofName? kind.name = some kind := by
  cases kind <;> decide

end Kind

inductive Primitive where
  | string
  | number
  | boolean
deriving DecidableEq

namespace Primitive

def all : List Primitive := [string, number, boolean]

def name : Primitive → String
  | string => "string"
  | number => "number"
  | boolean => "boolean"

def ofName? (name : String) : Option Primitive :=
  all.find? fun primitive => primitive.name == name

@[simp] theorem ofName?_name (primitive : Primitive) : ofName? primitive.name = some primitive := by
  cases primitive <;> decide

def admits : Primitive → Json → Bool
  | string, .string _ => true
  | number, .number _ => true
  | boolean, .bool _ => true
  | _, _ => false

end Primitive

structure Label where
  identity : Nat
  key : String
deriving DecidableEq

/-- A named member of an object or of an argument list. -/
structure Property (σ : Type) where
  name : String
  shape : σ
  optional : Bool

/-- A node of the schema tree. -/
inductive Structure where
  /-- The entry point; it has no value of its own. -/
  | root (entries : List (String × Structure))
  /-- An object literal, or a named and possibly generic interface. -/
  | object (label : Label) (name : Option String) (parameters : List String)
      (properties : List (Property Structure))
  /-- A named, possibly generic, type. -/
  | typeAlias (label : Label) (name : String) (parameters : List String) (body : Structure)
  /-- A root entry applied to type arguments, or a type parameter in scope. -/
  | ref (label : Label) (target : String) (typeArguments : List Structure)
  | union (label : Label) (members : List Structure)
  | array (label : Label) (items : Structure)
  | nullable (label : Label) (inner : Structure)
  /-- A callable; its arguments are an argument list. -/
  | function (label : Label) (arguments returns : Structure)
  | arguments (label : Label) (items : List (Property Structure))
  | primitive (label : Label) (type : Primitive)
  /-- A single constant. -/
  | literal (label : Label) (value : Json)
deriving Inhabited

namespace Structure

def kind : Structure → Kind
  | root .. => .root
  | object .. => .object
  | typeAlias .. => .typeAlias
  | ref .. => .ref
  | union .. => .union
  | array .. => .array
  | nullable .. => .nullable
  | function .. => .function
  | arguments .. => .arguments
  | primitive .. => .primitive
  | literal .. => .literal

def label? : Structure → Option Label
  | root _ => none
  | object label .. | typeAlias label .. | ref label .. | union label .. | array label ..
  | nullable label .. | function label .. | arguments label .. | primitive label ..
  | literal label .. => some label

/-- The root has the empty key. -/
def key (s : Structure) : String :=
  (s.label?.map Label.key).getD ""

/-- What tells one declaration from another; the root needs none. -/
def identity? (s : Structure) : Option Nat :=
  s.label?.map Label.identity

/-- The type parameters of a generic declaration. -/
def parameters : Structure → List String
  | object _ _ parameters _ => parameters
  | typeAlias _ _ parameters _ => parameters
  | _ => []

/-- The name by which a union addresses this member. -/
def memberName? : Structure → Option String
  | ref _ target _ => some target
  | object _ name _ _ => name
  | typeAlias _ name _ _ => some name
  | primitive _ type => some type.name
  | _ => none

/-- References, aliases and nullables only wrap another structure. -/
def isWrapper : Structure → Bool
  | ref .. | typeAlias .. | nullable .. => true
  | _ => false

end Structure

def Property.find? (name : String) (properties : List (Property Structure)) :
    Option (Property Structure) :=
  properties.find? fun property => property.name == name

/-! ## Identities -/

namespace Structure

mutual

/-- Gives every structure of a tree an identity of its own, counting on from `next`. -/
def number (next : Nat) : Structure → Structure × Nat
  | root entries =>
    let (entries, next) := numberEntries next entries
    (root entries, next)
  | object label name parameters properties =>
    let (properties, after) := numberProperties (next + 1) properties
    (object { label with identity := next } name parameters properties, after)
  | typeAlias label name parameters body =>
    let (body, after) := number (next + 1) body
    (typeAlias { label with identity := next } name parameters body, after)
  | ref label target typeArguments =>
    let (typeArguments, after) := numberAll (next + 1) typeArguments
    (ref { label with identity := next } target typeArguments, after)
  | union label members =>
    let (members, after) := numberAll (next + 1) members
    (union { label with identity := next } members, after)
  | array label items =>
    let (items, after) := number (next + 1) items
    (array { label with identity := next } items, after)
  | nullable label inner =>
    let (inner, after) := number (next + 1) inner
    (nullable { label with identity := next } inner, after)
  | function label args returns =>
    let (args, after) := number (next + 1) args
    let (returns, after) := number after returns
    (function { label with identity := next } args returns, after)
  | arguments label items =>
    let (items, after) := numberProperties (next + 1) items
    (arguments { label with identity := next } items, after)
  | primitive label type => (primitive { label with identity := next } type, next + 1)
  | literal label value => (literal { label with identity := next } value, next + 1)

def numberAll (next : Nat) : List Structure → List Structure × Nat
  | [] => ([], next)
  | s :: rest =>
    let (s, next) := number next s
    let (rest, next) := numberAll next rest
    (s :: rest, next)

def numberProperties (next : Nat) : List (Property Structure) → List (Property Structure) × Nat
  | [] => ([], next)
  | ⟨name, shape, optional⟩ :: rest =>
    let (shape, next) := number next shape
    let (rest, next) := numberProperties next rest
    (⟨name, shape, optional⟩ :: rest, next)

def numberEntries (next : Nat) : List (String × Structure) → List (String × Structure) × Nat
  | [] => ([], next)
  | (name, s) :: rest =>
    let (s, next) := number next s
    let (rest, next) := numberEntries next rest
    ((name, s) :: rest, next)

end

end Structure

end PathQuery
