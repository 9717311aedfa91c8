import PathQuery.Keyed
import PathQuery.Schema.Formation
import PathQuery.Structure.Equality

/-!
# Reference chains

Every declaration is followed through aliases and references until a structure that is neither. A
chain is refused when it applies one declaration to the same type arguments again, and when it
takes more steps into declarations than `stepLimit` allows. Type arguments are carried along, so
that an application to itself such as a box of a box is no cycle.
-/

set_option autoImplicit false

namespace PathQuery

namespace Structure

mutual

/-- Replaces bound parameters inside a type argument, so that it can be carried into another
declaration. The parameters of the declaration that the chain started at stay opaque. -/
def carry (bindings : List (String × Structure)) (opaqueNames : List String) :
    Structure → Structure
  | ref label target typeArguments =>
    match bindings.lookup target with
    | some bound => bound
    | none =>
      if target ∈ opaqueNames then object label none [] []
      else ref label target (carryAll bindings opaqueNames typeArguments)
  | s => s

def carryAll (bindings : List (String × Structure)) (opaqueNames : List String) :
    List Structure → List Structure
  | [] => []
  | s :: rest => carry bindings opaqueNames s :: carryAll bindings opaqueNames rest

end

/-- The structure below all leading aliases. -/
def unaliased : Structure → Structure
  | typeAlias _ _ _ body => unaliased body
  | s => s

end Structure

namespace Declarations

open Structure (unaliased carryAll)

/-- Follows aliases and bound parameters, at most `fuel` of the latter. A chain that passes more
bound parameters than there are bindings passes one of them twice and does not end. -/
def passParameters (bindings : List (String × Structure)) : Nat → Structure → Structure
  | 0, s => unaliased s
  | fuel + 1, s =>
    match unaliased s with
    | .ref label target typeArguments =>
      match bindings.lookup target with
      | some bound => passParameters bindings fuel bound
      | none => .ref label target typeArguments
    | s => s

/-- How many steps into declarations a chain may take. -/
def stepLimit (declarations : Declarations) : Nat :=
  max declarations.length 1 * 32

/-- One application of a declaration: its name and the type arguments. -/
abbrev Application := String × List Structure

/-- Follows a chain for as many steps into declarations as remain. -/
def checkChain (declarations : Declarations) (opaqueNames : List String) :
    Nat → List Application → List (String × Structure) → Structure → Except Error Unit
  | remaining, seen, bindings, current =>
    match passParameters bindings (bindings.length + 1) current with
    | .ref label target typeArguments =>
      let endless := .error (brokenReference label target
        "the reference never reaches a concrete structure")
      if (bindings.lookup target).isSome then endless
      else if target ∈ opaqueNames then .ok ()
      else match declarations.lookup target with
        | none => .ok ()
        | some declaration =>
          let received := carryAll bindings opaqueNames typeArguments
          match remaining with
          | 0 => endless
          | remaining + 1 =>
            if (target, received) ∈ seen then endless
            else checkChain declarations opaqueNames remaining ((target, received) :: seen)
              (Keyed.ofList (declaration.parameters.zip received)) declaration
    | _ => .ok ()

/-- The chain that starts at one declaration, whose own parameters are opaque. -/
def checkChainFrom (declarations : Declarations) (name : String) (declaration : Structure) :
    Except Error Unit :=
  declarations.checkChain declaration.parameters declarations.stepLimit [(name, [])] [] declaration

end Declarations

end PathQuery
