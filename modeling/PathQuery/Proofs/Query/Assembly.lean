import PathQuery.Engine
import PathQuery.Middleware.Stock
import PathQuery.Proofs.Graph.Transition

/-!
# Assembled engines

When an engine is assembled and what it then consists of (`Engine.assemble_eq_ok_iff`), when resolvers
are refused (`Engine.assemble_eq_invalidPath_iff`), and what a run ends with: the query is read,
compiled at the root and evaluated, in this order.
-/

set_option autoImplicit false

namespace PathQuery

/-! ## Resolvers -/

/-- The middlewares of a list of resolvers, by the identity of their structures. -/
def Resolvers.bind (resolvers : List Resolver) : Resolvers :=
  ⟨resolvers.map fun resolver => (resolver.node.shape.identity?, resolver.middlewares)⟩

theorem Resolvers.exists_of_mem_atShape {resolvers : List Resolver} {shape : Structure}
    {middleware : Middleware} (h : middleware ∈ (bind resolvers).atShape shape) :
    ∃ resolver ∈ resolvers, middleware ∈ resolver.middlewares := by
  obtain ⟨_, hbound, hm⟩ := List.mem_flatMap.mp h
  obtain ⟨resolver, hresolver, rfl⟩ := List.mem_map.mp hbound
  by_cases hid : resolver.node.shape.identity? = shape.identity?
  · simp only [if_pos hid] at hm
    exact ⟨resolver, hresolver, hm⟩
  · simp only [if_neg hid] at hm
    cases hm

/-- What is written as data, and read as middlewares, is found as data. -/
theorem Resolvers.atShape_bind_map {α β : Type} (node : β → Node) (entries : β → List α)
    (read : α → Middleware) (resolvers : List β) (shape : Structure) :
    (bind (resolvers.map fun item => ⟨node item, (entries item).map read⟩)).atShape shape =
      (resolvers.flatMap fun item =>
        if (node item).shape.identity? = shape.identity? then entries item else []).map read := by
  unfold atShape bind
  simp only [List.flatMap_map, List.map_map, List.map_flatMap, apply_ite (List.map read),
    List.map_nil, Function.comp_def]

/-- A resolver on a node of another graph, the first in the list. -/
def Resolvers.FirstForeign (graph : Graph) (resolvers : List Resolver) (resolver : Resolver) : Prop :=
  ∃ before after, resolvers = before ++ resolver :: after ∧
    (∀ other ∈ before, graph.Owns other.node) ∧ ¬ graph.Owns resolver.node

section

variable {graph : Graph} {resolvers : List Resolver} {table : Resolvers} {resolver : Resolver}
  {error : Error}

theorem Resolvers.find?_eq_some_iff :
    (resolvers.find? fun resolver => resolver.node.top != graph.root) = some resolver ↔
      FirstForeign graph resolvers resolver := by
  have hown (resolver : Resolver) :
      (!(resolver.node.top != graph.root)) = true ↔ graph.Owns resolver.node := by
    rw [Bool.not_eq_true', Bool.eq_false_iff, ne_eq, Node.top_bne_iff, not_not]
  rw [List.find?_eq_some_iff_append, Node.top_bne_iff, FirstForeign]
  simp only [hown]
  constructor
  · rintro ⟨hresolver, before, after, heq, hbefore⟩
    exact ⟨before, after, heq, hbefore, hresolver⟩
  · rintro ⟨before, after, heq, hbefore, hresolver⟩
    exact ⟨hresolver, before, after, heq, hbefore⟩

theorem Resolvers.ofList_eq_error_iff :
    ofList graph resolvers = .error error ↔ ∃ resolver,
      FirstForeign graph resolvers resolver ∧ error = .invalidResolverPath resolver.node.key := by
  simp only [← find?_eq_some_iff]
  unfold ofList
  cases resolvers.find? fun resolver => resolver.node.top != graph.root with
  | none => exact iff_of_false nofun nofun
  | some resolver =>
    constructor
    · rintro ⟨⟩
      exact ⟨resolver, rfl, rfl⟩
    · rintro ⟨_, ⟨⟩, rfl⟩
      rfl

/-- Resolvers are accepted if each of them stands in the graph. -/
theorem Resolvers.ofList_eq_ok_iff :
    ofList graph resolvers = .ok table ↔
      (∀ resolver ∈ resolvers, graph.Owns resolver.node) ∧ table = bind resolvers := by
  have hnone : (resolvers.find? fun resolver => resolver.node.top != graph.root) = none ↔
      ∀ resolver ∈ resolvers, graph.Owns resolver.node := by
    simp only [List.find?_eq_none, Node.top_bne_iff, not_not]
  rw [← hnone]
  unfold ofList
  cases resolvers.find? fun resolver => resolver.node.top != graph.root with
  | none =>
    constructor
    · rintro ⟨⟩
      exact ⟨rfl, rfl⟩
    · rintro ⟨_, rfl⟩
      rfl
  | some resolver => exact iff_of_false nofun nofun

end

/-! ## Engines -/

namespace Engine

variable {graph : Graph} {entry : String} {resolvers : List Resolver} {operators : List Operator}
  {configuration : Configuration} {engine : Engine}

theorem assemble_eq_ok_iff :
    assemble graph entry resolvers operators configuration = .ok engine ↔
      (graph.schema.entry? entry).isSome ∧
        (∀ resolver ∈ resolvers, graph.Owns resolver.node) ∧
          configuration.validate = .ok () ∧ engine =
            ⟨{ graph, entry, resolvers := .bind resolvers, execution := configuration.execution,
               reach := defaultReach }, operators ++ Operator.builtin⟩ := by
  unfold assemble
  cases hentry : graph.schema.entry? entry with
  | none => exact iff_of_false nofun nofun
  | some declaration =>
    cases htable : Resolvers.ofList graph resolvers with
    | error error =>
      refine iff_of_false nofun fun ⟨_, hall, _⟩ => ?_
      rw [Resolvers.ofList_eq_ok_iff.mpr ⟨hall, rfl⟩] at htable
      cases htable
    | ok table =>
      obtain ⟨hall, rfl⟩ := Resolvers.ofList_eq_ok_iff.mp htable
      cases hvalid : configuration.validate with
      | error fault => exact iff_of_false nofun nofun
      | ok _ =>
        constructor
        · intro h
          cases h
          exact ⟨rfl, hall, rfl, rfl⟩
        · rintro ⟨_, _, _, rfl⟩
          rfl

/-- Past its entry an engine is refused for a path just because of the first foreign resolver. -/
theorem assemble_eq_invalidPath_iff (hentry : (graph.schema.entry? entry).isSome) {key : String} :
    assemble graph entry resolvers operators configuration = .error (.invalidResolverPath key) ↔
      ∃ resolver, Resolvers.FirstForeign graph resolvers resolver ∧ key = resolver.node.key := by
  have hlist : Resolvers.ofList graph resolvers = .error (.invalidResolverPath key) ↔
      ∃ resolver, Resolvers.FirstForeign graph resolvers resolver ∧ key = resolver.node.key := by
    rw [Resolvers.ofList_eq_error_iff]
    simp only [Error.invalidResolverPath.injEq]
  rw [← hlist]
  obtain ⟨declaration, hentry⟩ := Option.isSome_iff_exists.mp hentry
  unfold assemble
  rw [hentry]
  cases Resolvers.ofList graph resolvers with
  | error error =>
    constructor
    · rintro ⟨⟩
      rfl
    · rintro ⟨⟩
      rfl
  | ok table =>
    refine iff_of_false ?_ nofun
    cases configuration.validate <;> nofun

theorem eq_of_assemble
    (h : assemble graph entry resolvers operators configuration = .ok engine) :
    (graph.schema.entry? entry).isSome ∧ engine =
      ⟨{ graph, entry, resolvers := .bind resolvers, execution := configuration.execution,
         reach := defaultReach }, operators ++ Operator.builtin⟩ := by
  obtain ⟨hentry, _, _, heq⟩ := assemble_eq_ok_iff.mp h
  exact ⟨hentry, heq⟩

theorem operators_of_assemble (h : assemble graph entry resolvers [] configuration = .ok engine) :
    engine.operators = Operator.builtin := by
  obtain ⟨_, rfl⟩ := eq_of_assemble h
  rfl

theorem resolvers_of_assemble
    (h : assemble graph entry resolvers operators configuration = .ok engine) :
    engine.setting.resolvers = .bind resolvers := by
  obtain ⟨_, rfl⟩ := eq_of_assemble h
  rfl

theorem execution_of_assemble
    (h : assemble graph entry resolvers operators configuration = .ok engine) :
    engine.setting.execution = configuration.execution := by
  obtain ⟨_, rfl⟩ := eq_of_assemble h
  rfl

theorem result_run (engine : Engine) (query : Json) (values : List Json) (context : Context) :
    (engine.run query values context).result =
      (engine.instructions query values).bind fun instructions =>
        (engine.plan instructions).result.bind fun middleware =>
          (middleware.evaluate context).result.map fun value => value.getD .null := by
  unfold run
  simp only [Traced.result_bind, Traced.result_ofExcept, Walk.run, Traced.result_mapTrail,
    bind_pure_comp, Traced.result_map]

end Engine

/-! ## A library -/

namespace Library

/-- The library is an empty object, and its tags are an empty list by default. -/
def resolvers : List Resolver :=
  [⟨entry, [Middleware.set (.object [])]⟩, ⟨tags, [Middleware.fillEmpty]⟩]

def engine : Engine :=
  ⟨{ graph, entry := "Library", resolvers := .bind resolvers, execution := {},
     reach := defaultReach }, Operator.builtin⟩

theorem assemble_eq_engine : Engine.assemble graph "Library" resolvers [] {} = .ok engine := rfl

def query : List Json :=
  [.string "Library",
    .object [("kind", .string "select"), ("fields", .object [("tags", .array [])])]]

def answer : Json :=
  .object [("tags", .array [])]

theorem run_query : (engine.run (.array query) [] .empty).result = .ok answer := rfl

end Library

/-! ## A drawer -/

/-- Answers null whatever goes wrong behind it. -/
def Middleware.rescue : Middleware := fun context next =>
  (next context).catchError fun _ => return context.setValue (some .null)

namespace Drawer

/-- A drawer holds one object, whose label is only looked at when the object is known. -/
def graph : Graph :=
  ⟨0, ⟨[("Drawer", .union ⟨0, "Drawer"⟩ [
    .object ⟨1, "Drawer[0]"⟩ none [] [⟨"label", .primitive ⟨2, "Drawer[0].label"⟩ .string, false⟩]])],
    by decide, by rfl⟩⟩

def entry : Node := graph.nodeAt [.entry "Drawer"]

def engine (limit : Nat) : Engine :=
  ⟨{ graph, entry := "Drawer", resolvers := .bind [⟨entry, [Middleware.rescue]⟩],
     execution := { recursionLimit := limit }, reach := defaultReach }, Operator.builtin⟩

theorem assemble_eq_engine (limit : Nat) (h : limit ≠ 0) :
    Engine.assemble graph "Drawer" [⟨entry, [Middleware.rescue]⟩] []
      { execution := { recursionLimit := limit } } = .ok (engine limit) := by
  refine Engine.assemble_eq_ok_iff.mpr ⟨rfl, fun resolver hresolver => ?_, ?_, rfl⟩
  · cases List.mem_singleton.mp hresolver
    rfl
  · rw [Configuration.validate, if_neg h]
    rfl

def query : List Json := [.string "Drawer", .string "label"]

def seed : Context := Context.empty.setValue (some (.object [("label", .string "spoons")]))

/-- With three levels the label is out of reach, and the drawer hides it. -/
theorem run_of_three : ((engine 3).run (.array query) [] seed).result = .ok .null := rfl

theorem run_of_four : ((engine 4).run (.array query) [] seed).result = .ok (.string "spoons") := rfl

end Drawer

end PathQuery
