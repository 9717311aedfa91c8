import PathQuery.Keyed
import PathQuery.Schema.Formation

/-!
# Steps and sites

A step leads from one structure to one below it. A site is a structure together with the type
arguments that its parameters are bound to; each argument keeps the bindings of the place where it
was written. `Site.child` takes one step and depends on nothing but the declarations.
-/

set_option autoImplicit false

namespace PathQuery

inductive Step where
  | entry (name : String)
  /-- A property of an object or an item of an argument list. -/
  | field (name : String)
  | items
  | arguments
  | returns
  /-- A union member, by position. -/
  | member (index : Nat)
  /-- The side of a nullable that is not null. -/
  | inner
  | target
  | body
deriving DecidableEq

def Step.name : Step → String
  | entry name => name
  | field name => name
  | items => "items"
  | arguments => "arguments"
  | returns => "returns"
  | member index => s!"[{index}]"
  | inner => "inner"
  | target => "target"
  | body => "body"

/-- A type argument with the bindings of the scope in which it was written. -/
inductive Binding where
  | mk (shape : Structure) (scope : List (String × Binding))

/-- The type arguments in force, by parameter. -/
abbrev Bindings := List (String × Binding)

namespace Binding

def shape : Binding → Structure
  | mk shape _ => shape

def scope : Binding → Bindings
  | mk _ scope => scope

/-- A structure read under bindings: a bound parameter stands for its argument. -/
def close (bindings : Bindings) : Structure → Binding
  | .ref label target typeArguments =>
    (bindings.lookup target).getD (mk (.ref label target typeArguments) bindings)
  | s => mk s bindings

/-- The parameters of a declaration, bound to type arguments written under `bindings`. -/
def bind (bindings : Bindings) (parameters : List String) (typeArguments : List Structure) :
    Bindings :=
  Keyed.ofList (parameters.zip (typeArguments.map (close bindings)))

end Binding

structure Site where
  shape : Structure
  bindings : Bindings
  /-- Whether a root level declaration was entered here. -/
  declaration : Bool

namespace Site

/-- A declaration, with its parameters bound. -/
def declared (shape : Structure) (bindings : Bindings) : Site :=
  ⟨shape, bindings, true⟩

/-- A structure below a site, under the bindings of the site. -/
def nested (bindings : Bindings) (shape : Structure) : Site :=
  let closed := Binding.close bindings shape
  ⟨closed.shape, closed.scope, false⟩

def unknown (shape : Structure) (step : Step) : Error :=
  .unknownProperty shape.key step.name

/-- The site one step further. -/
def child (declarations : Declarations) (site : Site) (step : Step) : Except Error Site :=
  match site.shape, step with
  | .root entries, .entry name =>
    match entries.lookup name with
    | some entry => .ok (declared entry [])
    | none => .error (unknown site.shape step)
  | .object _ _ _ properties, .field name | .arguments _ properties, .field name =>
    match Property.find? name properties with
    | some property => .ok (nested site.bindings property.shape)
    | none => .error (unknown site.shape step)
  | .array _ items, .items => .ok (nested site.bindings items)
  | .function _ args _, .arguments => .ok (nested site.bindings args)
  | .function _ _ returns, .returns => .ok (nested site.bindings returns)
  | .union label members, .member index =>
    match members[index]? with
    | some member => .ok (nested site.bindings member)
    | none => .error (.invalidUnionAccess label.key step.name)
  | .nullable _ inner, .inner => .ok (nested site.bindings inner)
  | .typeAlias _ _ _ body, .body => .ok (nested site.bindings body)
  | .ref label target typeArguments, .target => do
    let declaration ← declarations.applied label target typeArguments.length
    return declared declaration (Binding.bind site.bindings declaration.parameters typeArguments)
  | _, _ => .error (unknown site.shape step)

end Site

end PathQuery
