import PathQuery.Proofs.Graph.Representation
import PathQuery.Proofs.Located.Simulation
import PathQuery.Proofs.Located.Stock
import PathQuery.Proofs.Query.Assembly

/-!
# Histories

Navigation and runs go on in the arena that was left by what went before (`Leads`), so the numbers of
the positions depend on the history. Answers and what is noted do not: a run gives what the run on nodes
gives, whatever numbers stand for the nodes, and a run made again enters nothing
(`Engine.run_of_histories`).
-/

set_option autoImplicit false

namespace PathQuery

/-! ## The nodes of an arena -/

namespace Arena

/-- The node at the end of the steps to a position. -/
def node (arena : Arena) (id : Nat) : Node :=
  (arena.graph.node? (arena.trace id)).toOption.getD arena.graph.root

/-- What the positions stand for, number by number. -/
def nodes (arena : Arena) : List Node :=
  (List.range arena.size).map arena.node

theorem Faithful.nodes_eq {arena : Arena} {nodes : List Node} (h : arena.Faithful nodes) :
    arena.nodes = nodes := by
  apply List.ext_getElem
  · rw [Arena.nodes, List.length_map, List.length_range, h.size_eq]
  · intro id _ hid
    have hnode : nodes[id]? = some nodes[id] := List.getElem?_eq_getElem hid
    simp only [Arena.nodes, List.getElem_map, List.getElem_range, node, h.node?_trace hnode]
    rfl

theorem Faithful.graph_eq {arena arena' : Arena} {nodes nodes' : List Node}
    (h : arena.Faithful nodes) (h' : arena'.Faithful nodes') (hgrown : nodes <+: nodes') :
    arena'.graph = arena.graph := by
  have hroot : nodes'[0]? = some arena.graph.root := Visit.Stands.mono hgrown h.first
  exact Node.root.inj (Option.some.inj (h'.first.symm.trans hroot))

end Arena

/-- The walk made again enters nothing. -/
theorem Visit.Leaves.again {arena arena' arena'' : Arena} {nodes nodes' nodes'' trail : List Node}
    (h : Leaves arena nodes trail arena' nodes')
    (h' : Leaves arena' nodes' trail arena'' nodes'') : arena'' = arena' :=
  h'.absorbed.trans (h.faithful.absorb_of_mem fun node hnode => (h.mem_iff node).mpr (.inr hnode))

namespace Located

open Visit (Stands Mirrors Leaves)

/-! ## Engines on an arena -/

structure Engine where
  setting : Setting
  operators : List Operator

namespace Engine

def instructions (engine : Engine) (query : Json) (values : List Json) :
    Except Error (List Json) := do
  match ← Variables.substitute engine.setting.entry values query with
  | .array instructions => return instructions
  | other => throw (Instruction.invalid engine.setting.entry other
      "a query must be a list of instructions")

/-- Compiles a whole query, starting at position zero. -/
def plan (engine : Engine) (query : List Json) : Visit Middleware :=
  let setting := engine.setting
  setting.compile engine.operators setting.execution.recursionLimit false 0 query

def run (engine : Engine) (query : Json) (values : List Json) (context : Context) : Run Json := do
  let instructions ← Run.ofExcept (engine.instructions query values)
  let middleware ← Run.visit (engine.plan instructions)
  return (← middleware.evaluate context).getD .null

/-- An engine with the built-in operators, and with resolvers that work on positions. -/
def onArena (engine : PathQuery.Engine) (resolvers : Resolvers) : Engine where
  setting :=
    { entry := engine.setting.entry, resolvers, execution := engine.setting.execution,
      reach := engine.setting.reach }
  operators := Operator.builtin

end Engine

structure Engine.Like (nodes : List Node) (engine : Engine) (engine' : PathQuery.Engine) : Prop where
  setting : engine.setting.Like nodes engine'.setting
  operators : List.Forall₂ Operator.Like engine.operators engine'.operators

variable {arena : Arena} {nodes : List Node}

namespace Engine.Like

variable {engine : Engine} {engine' : PathQuery.Engine} {seed : Context}
  {seed' : PathQuery.Context}

theorem mono {nodes' : List Node} (h : engine.Like nodes engine') (hgrown : nodes <+: nodes') :
    engine.Like nodes' engine' :=
  ⟨h.setting.mono hgrown, h.operators⟩

theorem instructions_eq (h : engine.Like nodes engine') (query : Json) (values : List Json) :
    engine.instructions query values = engine'.instructions query values := by
  obtain ⟨⟨entry, _, _, _⟩, _⟩ := engine
  obtain rfl : entry = engine'.setting.entry := h.setting.entry
  rfl

/-- A run on an arena goes as the run on nodes. -/
theorem run (h : engine.Like nodes engine') (hfaithful : arena.Faithful nodes)
    (hseed : seed.Like nodes seed') (query : Json) (values : List Json) :
    Run.Follows (fun _ => (· = ·)) arena nodes (engine.run query values seed)
      (engine'.run query values seed') := by
  unfold Engine.run PathQuery.Engine.run
  rw [h.instructions_eq]
  refine (Run.Follows.ofExcept_self hfaithful _).bind ?_
  rintro arena₁ nodes₁ instructions _ h₁ hgrown₁ rfl
  have hsetting := h.setting.mono hgrown₁
  have hplan : Mirrors Middleware.Like arena₁ nodes₁ (engine.plan instructions)
      (engine'.plan instructions) := by
    unfold Engine.plan PathQuery.Engine.plan
    dsimp only
    rw [hsetting.execution]
    exact hsetting.compile h.operators h₁ _ false hsetting.root instructions
  refine (Run.Follows.of_mirrors hplan).bind ?_
  intro arena₂ nodes₂ middleware middleware' h₂ hgrown₂ hmiddleware
  refine (hmiddleware.evaluate h₂ (hseed.mono (hgrown₁.trans hgrown₂))).bind ?_
  rintro arena₃ nodes₃ value _ h₃ _ rfl
  exact .pure h₃ rfl

end Engine.Like

/-! ## What went before -/

/-- Calls on the positions obtained so far and runs of engines, one after another. A call or a run may
fail; what it entered stays. -/
inductive Leads (start : Arena) : Arena → Prop where
  | refl : Leads start start
  | ask {arena : Arena} (before : Leads start arena) (reach : Nat) {id : Nat} (hid : id < arena.size)
      (ask : Ask) : Leads start (Visit.ask reach id ask arena).2
  | run {arena : Arena} (before : Leads start arena) {engine : Engine} {engine' : PathQuery.Engine}
      (hengine : engine.Like arena.nodes engine') {seed : Context} {seed' : PathQuery.Context}
      (hseed : seed.Like arena.nodes seed') (query : Json) (values : List Json) :
      Leads start ((engine.run query values seed).left arena)

/-- Whatever went before, the positions stand for nodes, and those that stood for nodes still do. -/
theorem Leads.faithful {start : Arena} (h : Leads start arena) (hstart : start.Faithful nodes) :
    arena.Faithful arena.nodes ∧ nodes <+: arena.nodes := by
  have keeps {before after : Arena} {nodes' trail : List Node}
      (hleaves : Leaves before before.nodes trail after nodes') (hgrown : nodes <+: before.nodes) :
      after.Faithful after.nodes ∧ nodes <+: after.nodes := by
    rw [hleaves.faithful.nodes_eq]
    exact ⟨hleaves.faithful, hgrown.trans hleaves.grown⟩
  induction h with
  | refl =>
    rw [hstart.nodes_eq]
    exact ⟨hstart, List.prefix_rfl⟩
  | ask _ reach hid ask ih =>
    obtain ⟨hfaithful, hgrown⟩ := ih
    obtain ⟨node, hnode⟩ := hfaithful.exists_node hid
    obtain ⟨_, hleaves, _⟩ : Mirrors _ _ _ (Visit.ask reach _ ask) (node.ask reach ask) :=
      mirrors_ask hfaithful hnode ask
    exact keeps hleaves hgrown
  | run _ hengine hseed query values ih =>
    obtain ⟨hfaithful, hgrown⟩ := ih
    obtain ⟨_, hleaves, _⟩ := (hengine.run hfaithful hseed query values).leaves
    exact keeps hleaves hgrown

theorem Leads.faithful_ofGraph {graph : Graph} (h : Leads (.ofGraph graph) arena) :
    arena.Faithful arena.nodes ∧ arena.graph = graph := by
  obtain ⟨hfaithful, hgrown⟩ := h.faithful (Arena.faithful_ofGraph graph)
  exact ⟨hfaithful, (Arena.faithful_ofGraph graph).graph_eq hfaithful hgrown⟩

/-! ## Runs after histories -/

theorem Run.Follows.observed_eq {α : Type} {run : Run α} {run' : PathQuery.Run α}
    (h : Follows (fun _ => (· = ·)) arena nodes run run') :
    run.observed arena = (run'.result, run'.notes) := by
  obtain ⟨_, _, hnotes, hagree⟩ := h.leaves
  exact Prod.ext hagree.eq hnotes

/-- A run on an arena gives what a run on nodes gives, and leaves what that one visited. -/
theorem Engine.Like.runOn {engine : Engine} {engine' : PathQuery.Engine} {seed : Context}
    {seed' : PathQuery.Context} (h : engine.Like nodes engine') (hfaithful : arena.Faithful nodes)
    (hseed : seed.Like nodes seed') (query : Json) (values : List Json) :
    let ran := engine'.runOn arena query values seed'
    (engine.run query values seed).observed arena = (ran.1.result, ran.1.notes) ∧
      (engine.run query values seed).left arena = ran.2 := by
  have hrun := h.run hfaithful hseed query values
  obtain ⟨_, hleaves, _⟩ := hrun.leaves
  exact ⟨hrun.observed_eq, hleaves.absorbed⟩

variable {graph : Graph} {entry : String} {resolvers : List Resolver} {configuration : Configuration}
  {engine : PathQuery.Engine} {table : Resolvers} {seed : Context} {seed' : PathQuery.Context}

theorem Engine.onArena_like
    (hassemble : PathQuery.Engine.assemble graph entry resolvers [] configuration = .ok engine)
    (h : Leads (.ofGraph graph) arena)
    (htable : table.Like arena.nodes engine.setting.resolvers) :
    (onArena engine table).Like arena.nodes engine := by
  obtain ⟨hfaithful, hgraph⟩ := h.faithful_ofGraph
  have hroot : Stands arena.nodes 0 engine.setting.graph.root := by
    obtain ⟨_, rfl⟩ := PathQuery.Engine.eq_of_assemble hassemble
    rw [← hgraph]
    exact hfaithful.first
  refine ⟨⟨rfl, htable, rfl, rfl, hroot⟩, ?_⟩
  rw [PathQuery.Engine.operators_of_assemble hassemble]
  exact Operator.like_builtin

end Located

/-! ## A library -/

namespace Library

open Located (Leads)

/-- Resolvers that note what they see. -/
def watchers : List Resolver :=
  [⟨entry, [Middleware.set (.object []), Middleware.peek "library"]⟩,
    ⟨tags, [Middleware.fillEmpty, Middleware.peek "tags"]⟩]

def watched : Engine :=
  ⟨{ graph, entry := "Library", resolvers := .bind watchers, execution := {},
     reach := defaultReach }, Operator.builtin⟩

def watching : Located.Resolvers :=
  ⟨[(entry.shape.identity?, [Located.Middleware.set (.object []), Located.Middleware.peek "library"]),
    (tags.shape.identity?, [Located.Middleware.fillEmpty, Located.Middleware.peek "tags"])]⟩

theorem watching_like (nodes : List Node) : watching.Like nodes watched.setting.resolvers where
  bound :=
    .cons ⟨rfl, .cons (.set _) (.cons (.peek _) .nil)⟩
      (.cons ⟨rfl, .cons .fillEmpty (.cons (.peek _) .nil)⟩ .nil)

theorem assemble_eq_watched : Engine.assemble graph "Library" watchers [] {} = .ok watched := rfl

/-- The library after the shelf was looked for. -/
def browsed : Arena :=
  (Visit.ask defaultReach 0 (.follow ["Library", "shelf", "item"]) (.ofGraph graph)).2

theorem leads_browsed : Leads (.ofGraph graph) browsed :=
  .ask .refl _ (by decide) _

/-- A box on the shelf has no title. -/
def failing : Json :=
  .array [.string "Library", .string "shelf", .string "item", .string "title"]

/-- The library after a run that failed, too. -/
def searched : Arena :=
  ((Located.Engine.onArena watched watching).run failing [] ⟨[]⟩).left browsed

theorem leads_searched : Leads (.ofGraph graph) searched :=
  .run leads_browsed (Located.Engine.onArena_like assemble_eq_watched leads_browsed (watching_like _))
    ⟨.nil⟩ failing []

end Library

end PathQuery
