import PathQuery.Error
import PathQuery.Structure.Basic

/-!
# Well formed declarations

Every reference names a type parameter of its declaration, without type arguments, or an entry that
declares as many parameters as the reference has type arguments. A root stands only at the top, the
arguments of a function are an argument list, and literals are scalars.
-/

set_option autoImplicit false

namespace PathQuery

/-- Root level declarations, by name. -/
abbrev Declarations := List (String × Structure)

namespace Declarations

def brokenReference (label : Label) (target reason : String) : Error :=
  .unresolvedReference label.key target reason

/-- The declaration a reference applies, if it takes that many type arguments. -/
def applied (declarations : Declarations) (label : Label) (target : String) (count : Nat) :
    Except Error Structure :=
  match declarations.lookup target with
  | none => .error (brokenReference label target "no such declaration")
  | some declaration =>
    let expected := declaration.parameters.length
    if expected = count then .ok declaration
    else .error (brokenReference label target s!"expected {expected} type arguments, received {count}")

/-- A reference with a number of type arguments is in order in the scope of some parameters. -/
def checkApplication (declarations : Declarations) (scope : List String) (label : Label)
    (target : String) (count : Nat) : Except Error Unit :=
  if target ∈ scope then
    if count = 0 then .ok ()
    else .error (brokenReference label target "type parameters take no type arguments")
  else
    (declarations.applied label target count).map fun _ => ()

mutual

/-- The first fault of a structure, from the outside in and from left to right. -/
def check (declarations : Declarations) (scope : List String) : Structure → Except Error Unit
  | .root _ => .error (.invalidSchema "a root structure can only appear at the top of the tree")
  | .object _ _ _ properties => checkProperties declarations scope properties
  | .typeAlias _ _ _ body => check declarations scope body
  | .ref label target typeArguments => do
    declarations.checkApplication scope label target typeArguments.length
    checkAll declarations scope typeArguments
  | .union _ members => checkAll declarations scope members
  | .array _ items => check declarations scope items
  | .nullable _ inner => check declarations scope inner
  | .function label args returns => do
    if args.kind ≠ .arguments then
      throw (.invalidSchema
        s!"arguments of '{label.key}' must be an arguments structure, found '{args.kind.name}'")
    check declarations scope args
    check declarations scope returns
  | .arguments _ items => checkProperties declarations scope items
  | .primitive .. => .ok ()
  | .literal label value =>
    if value.isScalar then .ok ()
    else .error (.invalidSchema s!"literal '{label.key}' must be a scalar or null")

def checkAll (declarations : Declarations) (scope : List String) :
    List Structure → Except Error Unit
  | [] => .ok ()
  | s :: rest => do
    check declarations scope s
    checkAll declarations scope rest

def checkProperties (declarations : Declarations) (scope : List String) :
    List (Property Structure) → Except Error Unit
  | [] => .ok ()
  | ⟨_, shape, _⟩ :: rest => do
    check declarations scope shape
    checkProperties declarations scope rest

end

end Declarations

end PathQuery
