import PathQuery.Proofs.Query.Demand
import PathQuery.Proofs.Siblings

/-!
# Direct evaluation

A query read as a recursive function on values: no contexts, no marks, no continuations, nothing
compiled ahead. The resolvers of a node are given as rules, each of which reacts to the current
value alone. `Setting.evaluate` goes down the demands of a query and counts the levels that are left;
where these run out it fails as compilation does. `Setting.accept` goes the same way and only looks for
faults of the query; it is needed where the rest of a query meets a union member for the first time.
Evaluation tells the waits as well, since of siblings that go on together the first one in time that
fails gives the error.
-/

set_option autoImplicit false

namespace PathQuery

/-- Goes on with what came of a computation, an error included. -/
def Timed.revised {α β : Type} (x : Timed α) (revise : Except Error α → Timed β) : Timed β :=
  ⟨x.trail ++ (revise x.result).trail, (revise x.result).result⟩

theorem Timed.revised_ofExcept {α : Type} (x : Timed α) : x.revised Traced.ofExcept = x := by
  obtain ⟨trail, result⟩ := x
  exact Traced.ext (List.append_nil trail) rfl

/-- What a middleware does about a value, if it does not fail. -/
inductive Reaction where
  /-- Leaves out the rest of the chain. -/
  | stop (value : Option Json)
  /-- Runs the rest of the chain once and makes something of what that gives back, be it an error. -/
  | proceed (value : Option Json) (revise : Except Error (Option Json) → Timed (Option Json))

def Reaction.complete (reaction : Reaction) (rest : Option Json → Timed (Option Json)) :
    Timed (Option Json) :=
  match reaction with
  | stop value => return value
  | proceed value revise => (rest value).revised revise

inductive Rule where
  | react (reaction : Option Json → Timed Reaction)
  /-- An undefined value of the node is replaced by an empty one. -/
  | fillEmpty

namespace Rule

def isFill : Rule → Bool
  | react _ => false
  | fillEmpty => true

/-- A rule around the rest of a chain. -/
def around (rule : Rule) (rest : Option Json → Timed (Option Json)) (value : Option Json) :
    Timed (Option Json) :=
  match rule with
  | fillEmpty => rest value
  | react reaction => do (← reaction value).complete rest

/-- The first rule is the outermost. -/
def chain (rules : List Rule) (core : Option Json → Timed (Option Json)) :
    Option Json → Timed (Option Json) :=
  rules.foldr around core

theorem chain_cons (rule : Rule) (rules : List Rule) (core : Option Json → Timed (Option Json)) :
    chain (rule :: rules) core = rule.around (chain rules core) := rfl

end Rule

/-- Rules registered on a node. -/
structure Regulation where
  node : Node
  rules : List Rule

/-- All rules of a structure, the first registered outermost. -/
def Regulation.atShape (regulations : List Regulation) (shape : Structure) : List Rule :=
  regulations.flatMap fun regulation =>
    if regulation.node.shape.identity? = shape.identity? then regulation.rules else []

/-- The value of a node once its rules have run: an undefined one may be filled or stay so, and a
defined one has to fit. -/
def Node.settle (node : Node) (fills optional : Bool) (value : Option Json) :
    Except Error (Option Json) :=
  match value.or (if fills then Descent.emptyValue? node.shape else none) with
  | some value => (Descent.checkShape node value).map fun _ => some value
  | none => if optional then .ok none else .error (.couldNotResolve node.key)

/-- Settles the value and goes on with it if it is defined. -/
def Node.settled (node : Node) (fills optional : Bool) (go : Json → Timed (Option Json))
    (value : Option Json) : Timed (Option Json) := do
  match ← Traced.ofExcept (node.settle fills optional value) with
  | some value => go value
  | none => return none

/-- Goes on with the query of a requested member. -/
def Node.withRequested {α : Type} (node : Node) (head : Json)
    (properties : List (Property Structure)) (field : String × Json)
    (go : Bool → Node → List Json → Timed α) : Timed α := do
  let (optional, next, query) ← Traced.ofExcept (node.requested head properties field)
  go optional next query

namespace Setting

/-- Whether a query is in order at a node with this many levels left, and the fault if it is not. The
rest of a query at a union is not looked at before the member is known. -/
def accept (setting : Setting) : Nat → Node → List Json → Timed Unit
  | 0, _, _ => Traced.fail (.recursionLimitExceeded setting.execution.recursionLimit)
  | levels + 1, node, query => do
    match ← Traced.ofExcept (setting.demand node query) with
    | .whole | .matched _ => return ()
    | .through _ child rest | .property _ _ child rest | .items _ child rest =>
      setting.accept levels child rest
    | .members head properties requested =>
      requested.forM fun field =>
        node.withRequested head properties field fun _ child query =>
          setting.accept levels child query
    | .anew query => setting.accept levels setting.graph.root query

/-- What the innermost step at a node makes of the value that reaches it, where `accept` and
`evaluate` tell about the nodes that come next. -/
def descend (setting : Setting) (accept : Node → List Json → Timed Unit)
    (evaluate : Bool → Node → List Json → Option Json → Timed (Option Json))
    (fills optional : Bool) (node : Node) : Demand → Option Json → Timed (Option Json)
  | .whole => node.settled fills optional fun value => return some value
  | .through _ child rest => fun value =>
    if node.kind = .nullable ∧ value = some .null then return some .null
    else evaluate optional child rest value
  | .property name flag child rest => node.settled fills optional fun value =>
    evaluate flag child rest (value.member? name)
  | .members head properties requested => node.settled fills optional fun value =>
    match value with
    | .object given => do
      let values ← Timed.together (requested.map fun field =>
        node.withRequested head properties field fun flag child query =>
          evaluate flag child query (given.lookup field.1))
      return some (.object (Operator.gather (requested.map Prod.fst) values))
    | other => return some other
  | .items excerpt item rest => node.settled fills optional fun value =>
    match value with
    | .array list =>
      match excerpt.single? with
      | some index =>
        match list[index]? with
        | some value => evaluate false item rest (some value)
        | none => return some .null
      | none => do
        let values ← Timed.together ((excerpt.items false list).map fun (value, _) =>
          evaluate false item rest (some value))
        return some (.array (values.map fun value => value.getD .null))
    | other => return some other
  | .matched query => node.settled fills optional fun value => do
    let member ← Traced.ofExcept
      (Matching.selectMember setting.reach node (some value) none).result
    accept member query
    evaluate optional member query (some value)
  | .anew query => fun _ => evaluate false setting.graph.root query none

/-- The answer to a query at a node for the value that comes to it, under the rules of each structure
and with this many levels left. The flag says whether the node may stay undefined. -/
def evaluate (setting : Setting) (rules : Structure → List Rule) :
    Nat → Bool → Node → List Json → Option Json → Timed (Option Json)
  | 0, _, _, _, _ => Traced.fail (.recursionLimitExceeded setting.execution.recursionLimit)
  | levels + 1, optional, node, query, value => do
    let demand ← Traced.ofExcept (setting.demand node query)
    let core := setting.descend (setting.accept levels) (setting.evaluate rules levels)
      ((rules node.shape).any Rule.isFill) optional node demand
    match demand with
    | .anew _ => core value
    | _ => Rule.chain (rules node.shape) core value

end Setting

end PathQuery
