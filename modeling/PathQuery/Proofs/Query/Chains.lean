import PathQuery.Proofs.Query.Registration
import PathQuery.Query.Stock

/-!
# What matters of a registration

An engine does not know how its middlewares were put together. If at every structure the same
middlewares come in the same order, composed ones counting as their parts, then it answers every query
in the same way, whatever the order of the structures, the nodes that they were reached through, and the
grouping (`Engine.run_of_chains`). Resolvers are refused for one reason only, a node of another
graph.
-/

set_option autoImplicit false

namespace PathQuery

/-! ## Registrations -/

/-- What is registered: a middleware, or several that were composed into one. -/
inductive Registered where
  | single (middleware : Middleware)
  | composed (parts : List Registered)

namespace Registered

mutual

def middleware : Registered → Middleware
  | single middleware => middleware
  | composed parts => Middleware.compose (middlewares parts)

def middlewares : List Registered → List Middleware
  | [] => []
  | part :: rest => part.middleware :: middlewares rest

end

mutual

/-- Composed middlewares replaced by their parts, in order. -/
def flatten : Registered → List Middleware
  | single middleware => [middleware]
  | composed parts => flattenAll parts

def flattenAll : List Registered → List Middleware
  | [] => []
  | part :: rest => part.flatten ++ flattenAll rest

end

mutual

theorem compose_flatten (part : Registered) : Middleware.compose part.flatten = part.middleware := by
  cases part with
  | single middleware => rfl
  | composed parts => exact compose_flattenAll parts

theorem compose_flattenAll (parts : List Registered) :
    Middleware.compose (flattenAll parts) = Middleware.compose (middlewares parts) := by
  cases parts with
  | nil => rfl
  | cons part rest =>
    rw [flattenAll, middlewares, Middleware.compose_append, compose_flatten part,
      compose_flattenAll rest]
    rfl

end

theorem flattenAll_append (parts parts' : List Registered) :
    flattenAll (parts ++ parts') = flattenAll parts ++ flattenAll parts' := by
  induction parts with
  | nil => rfl
  | cons part rest ih => rw [List.cons_append, flattenAll, ih, flattenAll, List.append_assoc]

end Registered

structure Registration where
  node : Node
  parts : List Registered

namespace Registration

open Registered (flattenAll flattenAll_append)

def resolver (registration : Registration) : Resolver :=
  ⟨registration.node, Registered.middlewares registration.parts⟩

/-- What a registration adds to the chain of a structure. -/
def share (registration : Registration) (identity : Option Nat) : List Middleware :=
  if registration.node.shape.identity? = identity then flattenAll registration.parts else []

/-- The flattened middlewares of a structure, in the order of registration. -/
def chainAt (registrations : List Registration) (identity : Option Nat) : List Middleware :=
  registrations.flatMap fun registration => registration.share identity

theorem compose_atShape (registrations : List Registration) (shape : Structure) :
    Middleware.compose ((Resolvers.bind (registrations.map resolver)).atShape shape) =
      Middleware.compose (chainAt registrations shape.identity?) := by
  induction registrations with
  | nil => rfl
  | cons first rest ih =>
    have hfirst : (Resolvers.bind ((first :: rest).map resolver)).atShape shape =
        (if first.node.shape.identity? = shape.identity? then
          Registered.middlewares first.parts else []) ++
            (Resolvers.bind (rest.map resolver)).atShape shape := rfl
    rw [hfirst, chainAt, List.flatMap_cons, Middleware.compose_append, Middleware.compose_append, ih,
      share]
    split
    · rw [Registered.compose_flattenAll]
      rfl
    · rfl

/-- Registrations that differ in what does not matter. -/
inductive Rearranged : List Registration → List Registration → Prop where
  /-- Registrations of different structures change places. -/
  | swap {first second : Registration} {rest : List Registration}
      (h : first.node.shape.identity? ≠ second.node.shape.identity?) :
      Rearranged (first :: second :: rest) (second :: first :: rest)
  /-- Another node has the same structure. -/
  | reach {node node' : Node} {parts : List Registered} {rest : List Registration}
      (h : node'.shape.identity? = node.shape.identity?) :
      Rearranged (⟨node, parts⟩ :: rest) (⟨node', parts⟩ :: rest)
  | merge {node : Node} {parts parts' : List Registered} {rest : List Registration} :
      Rearranged (⟨node, parts⟩ :: ⟨node, parts'⟩ :: rest) (⟨node, parts ++ parts'⟩ :: rest)
  | nest {node : Node} {parts : List Registered} {rest : List Registration} :
      Rearranged (⟨node, parts⟩ :: rest) (⟨node, [.composed parts]⟩ :: rest)
  | idle {node : Node} {rest : List Registration} : Rearranged (⟨node, []⟩ :: rest) rest
  | cons {first : Registration} {rest rest' : List Registration} (h : Rearranged rest rest') :
      Rearranged (first :: rest) (first :: rest')
  | symm {before after : List Registration} (h : Rearranged before after) : Rearranged after before
  | trans {before between after : List Registration} (h : Rearranged before between)
      (h' : Rearranged between after) : Rearranged before after

theorem Rearranged.chainAt_eq {before after : List Registration} (h : Rearranged before after)
    (identity : Option Nat) : chainAt before identity = chainAt after identity := by
  induction h with
  | @swap first second rest h =>
    have hone : first.share identity = [] ∨ second.share identity = [] := by
      unfold share
      by_cases hfirst : first.node.shape.identity? = identity
      · exact .inr (if_neg fun hsecond => h (hfirst.trans hsecond.symm))
      · exact .inl (if_neg hfirst)
    simp only [chainAt, List.flatMap_cons]
    rcases hone with hone | hone
    · rw [hone, List.nil_append, List.nil_append]
    · rw [hone, List.nil_append, List.nil_append]
  | reach h =>
    simp only [chainAt, List.flatMap_cons, share, h]
  | merge =>
    simp only [chainAt, List.flatMap_cons, share, flattenAll_append]
    split
    · rw [List.append_assoc]
    · rfl
  | nest =>
    simp only [chainAt, List.flatMap_cons, share, flattenAll, Registered.flatten, List.append_nil]
  | idle =>
    simp only [chainAt, List.flatMap_cons, share, flattenAll, ite_self, List.nil_append]
  | cons _ ih =>
    simp only [chainAt, List.flatMap_cons] at ih ⊢
    rw [ih]
  | symm _ ih => exact ih.symm
  | trans _ _ ih ih' => exact ih.trans ih'

end Registration

/-! ## Operators of hosts -/

namespace Operator

theorem encloses_count : count.Encloses := by
  intro setting resolvers optional compile h
  unfold count ofKind Position.enclose
  simp only [h]
  rfl

theorem encloses_raw : raw.Encloses := by
  intro setting resolvers optional compile h
  unfold raw ofKind Position.enclose
  simp only [h]

/-- None of them looks a resolver up by itself. -/
theorem encloses_stock :
    ∀ operator ∈ [const, count, raw, maybe, info, reject, pick], Encloses operator := by
  have h {operator : Operator} (hsame : ∀ setting resolvers optional compile,
      operator ⟨{ setting with resolvers }, optional, compile⟩ =
        operator ⟨setting, optional, compile⟩) : operator.Encloses :=
    fun setting resolvers optional compile _ => hsame setting resolvers optional compile
  simp only [List.forall_mem_cons]
  exact ⟨h fun _ _ _ _ => rfl, encloses_count, encloses_raw, h fun _ _ _ _ => rfl,
    h fun _ _ _ _ => rfl, h fun _ _ _ _ => rfl, h fun _ _ _ _ => rfl, nofun⟩

end Operator

/-! ## Engines -/

namespace Engine

open Registration (resolver chainAt)

/-- Only the order of the middlewares at each structure matters: registrations on nodes of the graph
that form the same chains, once composed middlewares are flattened, make engines that answer every
query in the same way. Other resolvers are refused, and the first one of them is named. -/
theorem run_of_chains {graph : Graph} {entry : String} {operators : List Operator}
    {configuration : Configuration} (hentry : (graph.schema.entry? entry).isSome)
    (hvalid : configuration.validate = .ok ())
    (hoperators : ∀ operator ∈ operators, Operator.Encloses operator) :
    (∀ registrations registrations' : List Registration,
      (∀ registration ∈ registrations, graph.Owns registration.node) →
      (∀ registration ∈ registrations', graph.Owns registration.node) →
      (∀ identity, chainAt registrations identity = chainAt registrations' identity) →
        ∃ engine engine',
          assemble graph entry (registrations.map resolver) operators configuration = .ok engine ∧
          assemble graph entry (registrations'.map resolver) operators configuration = .ok engine' ∧
          ∀ query values context,
            engine'.run query values context = engine.run query values context) ∧
      ∀ resolvers key,
        assemble graph entry resolvers operators configuration = .error (.invalidResolverPath key) ↔
          ∃ resolver, Resolvers.FirstForeign graph resolvers resolver ∧ key = resolver.node.key := by
  refine ⟨?_, fun resolvers key => assemble_eq_invalidPath_iff hentry⟩
  intro registrations registrations' howned howned' hchains
  refine ⟨_, _, assemble_eq_ok_iff.mpr ⟨hentry, List.forall_mem_map.mpr howned, hvalid, rfl⟩,
    assemble_eq_ok_iff.mpr ⟨hentry, List.forall_mem_map.mpr howned', hvalid, rfl⟩, ?_⟩
  have henclose : Descent.enclose (.bind (registrations'.map resolver)) =
      Descent.enclose (.bind (registrations.map resolver)) := by
    refine Descent.enclose_congr fun shape => ?_
    rw [Registration.compose_atShape, Registration.compose_atShape, hchains]
  have hall : ∀ operator ∈ operators ++ Operator.builtin, Operator.Encloses operator :=
    List.forall_mem_append.mpr ⟨hoperators, Operator.encloses_builtin⟩
  exact @run_eq_of_enclose
    ⟨graph, entry, .bind (registrations.map resolver), configuration.execution, defaultReach⟩
    (.bind (registrations'.map resolver)) _ henclose hall

end Engine

namespace Library

open Registration (resolver chainAt Rearranged)

/-- The box that the shelf refers to, and the box as it was declared. -/
def shelfBox : Node := graph.nodeAt [.entry "Library", .field "shelf", .target]

def declaredBox : Node := graph.nodeAt [.entry "Box"]

def registrations : List Registration :=
  [⟨entry, [.single (Middleware.set (.object []))]⟩,
    ⟨tags, [.single Middleware.fillEmpty, .single (Middleware.trace "tags")]⟩,
    ⟨shelfBox, [.single Middleware.fillEmpty]⟩]

def rearranged : List Registration :=
  [⟨tags, [.composed [.single Middleware.fillEmpty]]⟩, ⟨tags, [.single (Middleware.trace "tags")]⟩,
    ⟨entry, [.single (Middleware.set (.object []))]⟩, ⟨declaredBox, [.single Middleware.fillEmpty]⟩]

theorem registrations_rearranged : Rearranged registrations rearranged := by
  have hreach : declaredBox.shape.identity? = shelfBox.shape.identity? := rfl
  refine .trans (.swap (by decide)) (.trans (.cons (.cons (.reach hreach))) (.trans ?_ .nest))
  exact .symm .merge

def countQuery : Json :=
  .array [.string "Library",
    .object [("kind", .string "select"), ("fields", .object [
      ("tags", .array [.object [("kind", .string "count")]]), ("shelf", .array [])])]]

def countAnswer : Json :=
  .object [("tags", .ofNat 0), ("shelf", .object [])]

theorem run_of_rearranged : ∃ engine engine',
    Engine.assemble graph "Library" (registrations.map resolver) [Operator.count] {} = .ok engine ∧
    Engine.assemble graph "Library" (rearranged.map resolver) [Operator.count] {} = .ok engine' ∧
    (engine'.run countQuery [] .empty).result = .ok countAnswer ∧
    engine'.run countQuery [] .empty = engine.run countQuery [] .empty := by
  have howned : ∀ registration ∈ registrations ++ rearranged, graph.Owns registration.node := by
    decide
  obtain ⟨hfirst, hsecond⟩ := List.forall_mem_append.mp howned
  have hoperators : ∀ operator ∈ [Operator.count], Operator.Encloses operator := by
    intro operator hoperator
    cases List.mem_singleton.mp hoperator
    exact Operator.encloses_stock _ (.tail _ (.head _))
  have hentry : (graph.schema.entry? "Library").isSome := rfl
  have hvalid : Configuration.validate {} = .ok () := rfl
  obtain ⟨engine, engine', hengine, hengine', hrun⟩ :=
    (Engine.run_of_chains hentry hvalid hoperators).1 registrations rearranged hfirst hsecond
      registrations_rearranged.chainAt_eq
  refine ⟨engine, engine', hengine, hengine', ?_, hrun _ _ _⟩
  cases hengine'
  rfl

end Library

end PathQuery
