import PathQuery.Graph.Walk
import PathQuery.Proofs.Schema.Acceptance

/-!
# Nodes below references and aliases

The chain check follows each declaration by itself, its parameters standing for nothing. A node is
read under type arguments, which are closures: a chain that ends in the declaration by itself goes
on in the argument that a parameter stands for. It ends there too, since every argument was written
in a scope whose own arguments are grounded (`Declarations.Ends.grounded`). So below an entry without
parameters every chain of references and aliases comes to an end (`Graph.chainEnds_of_plain`).
-/

set_option autoImplicit false

namespace PathQuery

variable {declarations : Declarations}

/-- Following references and aliases from a closure comes to an end. -/
inductive Binding.Grounded (declarations : Declarations) : Binding → Prop where
  | concrete {shape : Structure} {scope : Bindings} (ref : shape.kind ≠ .ref)
      (typeAlias : shape.kind ≠ .typeAlias) : Grounded declarations (.mk shape scope)
  | body {label : Label} {name : String} {parameters : List String} {body : Structure}
      {scope : Bindings} (rest : Grounded declarations (close scope body)) :
      Grounded declarations (.mk (.typeAlias label name parameters body) scope)
  | target {label : Label} {target : String} {typeArguments : List Structure} {scope : Bindings}
      {declaration : Structure}
      (applied : declarations.applied label target typeArguments.length = .ok declaration)
      (rest : Grounded declarations
        (.mk declaration (bind scope declaration.parameters typeArguments))) :
      Grounded declarations (.mk (.ref label target typeArguments) scope)

/-- A closure is an occurrence with arguments for the parameters that stand for nothing. -/
inductive Occurrence.Closes (given : Bindings) : Occurrence → Binding → Prop where
  | parameter {name : String} {binding : Binding} (found : given.lookup name = some binding) :
      Closes given (.parameter name) binding
  | written {shape : Structure} {scope : List (String × Occurrence)} {bindings : Bindings}
      (domain : ∀ name, (scope.lookup name).isSome = (bindings.lookup name).isSome)
      (within : ∀ name occurrence binding, scope.lookup name = some occurrence →
        bindings.lookup name = some binding → Closes given occurrence binding) :
      Closes given (.written shape scope) (.close bindings shape)

theorem Structure.unbound_of_kind {shape : Structure} {bindings : Bindings}
    (h : shape.kind ≠ .ref) : shape.Unbound bindings := by
  rintro label target typeArguments rfl
  exact absurd rfl h

namespace Declarations

open Binding (Grounded)

variable {given bindings : Bindings} {scope : List (String × Occurrence)}
  {occurrence : Occurrence} {binding : Binding} {declaration : Structure} {steps : Nat}

/-- A declaration applies its parameters to nothing, so that it is read as it stands. -/
theorem close_bind {typeArguments : List Structure} :
    Binding.close (Binding.bind bindings declaration.parameters typeArguments) declaration =
      .mk declaration (Binding.bind bindings declaration.parameters typeArguments) := by
  refine Binding.close_of_unbound (unbound_of_parameters fun hnone => ?_)
  rw [hnone]
  rfl

theorem closes_inner {typeArguments : List Structure}
    (domain : ∀ name, (scope.lookup name).isSome = (bindings.lookup name).isSome)
    (within : ∀ name occurrence binding, scope.lookup name = some occurrence →
      bindings.lookup name = some binding → occurrence.Closes given binding) :
    (Occurrence.written declaration
      (Occurrence.inner scope declaration.parameters typeArguments)).Closes given
      (.mk declaration (Binding.bind bindings declaration.parameters typeArguments)) := by
  have hpair := Keyed.lookup_ofList_zip declaration.parameters
    (show (typeArguments.map fun s => Occurrence.written s scope).length =
      (typeArguments.map (Binding.close bindings)).length by simp)
  rw [← close_bind]
  refine .written (fun name => ?_) fun name occurrence binding hoccurrence hbinding => ?_
  · rcases hpair name with ⟨_, _, _, hfirst, hsecond⟩ | ⟨hfirst, hsecond⟩
    · exact (congrArg Option.isSome hfirst).trans (congrArg Option.isSome hsecond).symm
    · exact (congrArg Option.isSome hfirst).trans (congrArg Option.isSome hsecond).symm
  · rcases hpair name with ⟨_, _, hmem, hfirst, hsecond⟩ | ⟨hfirst, _⟩
    · cases hfirst.symm.trans hoccurrence
      cases hsecond.symm.trans hbinding
      rw [List.zip_map'] at hmem
      obtain ⟨argument, _, hargument⟩ := List.mem_map.mp hmem
      cases hargument
      exact .written domain within
    · cases hfirst.symm.trans hoccurrence

/-- What ends by itself ends under grounded arguments. -/
theorem Ends.grounded (h : declarations.Ends steps occurrence)
    (hgiven : ∀ entry ∈ given, entry.2.Grounded declarations)
    (hcloses : occurrence.Closes given binding) : binding.Grounded declarations := by
  induction h generalizing binding with
  | parameter =>
    cases hcloses with
    | parameter found => exact hgiven _ (Keyed.mem_of_lookup found)
  | concrete ref typeAlias =>
    cases hcloses with
    | written domain within =>
      rw [Binding.close_of_unbound (Structure.unbound_of_kind ref)]
      exact .concrete ref typeAlias
  | body _ ih =>
    cases hcloses with
    | written domain within => exact .body (ih (.written domain within))
  | @argument _ _ target _ _ _ found _ ih =>
    cases hcloses with
    | written domain within =>
      obtain ⟨binding, hbinding⟩ := Option.isSome_iff_exists.mp
        ((domain target).symm.trans (congrArg Option.isSome found))
      rw [Binding.close_of_lookup hbinding]
      exact ih (within _ _ _ found hbinding)
  | @declaration _ _ target _ _ _ free applied _ ih =>
    cases hcloses with
    | @written _ _ bindings domain within =>
      have hnone : bindings.lookup target = none := by
        rw [← Option.not_isSome_iff_eq_none, ← domain, free]
        exact Bool.false_ne_true
      rw [Binding.close, hnone, Option.getD_none]
      exact .target applied (ih (closes_inner domain within))

/-- A declaration by itself, closed under arguments for all of its parameters. -/
theorem closes_opened {typeArguments : List Structure}
    (h : declaration.parameters.length = typeArguments.length) :
    (Occurrence.opened declaration).Closes
      (Binding.bind bindings declaration.parameters typeArguments)
      (.mk declaration (Binding.bind bindings declaration.parameters typeArguments)) := by
  have hdomain (name : String) :
      ((declaration.parameters.map fun name => (name, Occurrence.parameter name)).lookup
        name).isSome ↔ name ∈ declaration.parameters := by
    rw [Keyed.lookup_isSome_iff_mem, Keyed.names, List.map_map]
    simp
  rw [← close_bind]
  refine .written (fun name => ?_) fun name occurrence binding hoccurrence hbinding => ?_
  · rw [Bool.eq_iff_iff, hdomain, models_bind h bindings]
  · obtain ⟨parameter, _, hparameter⟩ := List.mem_map.mp (Keyed.mem_of_lookup hoccurrence)
    cases hparameter
    exact .parameter hbinding

/-- Every closure of a structure in scope is grounded. -/
theorem grounded_of_scoped (hself : declarations.SelfChecked)
    (hends : ∀ entry ∈ declarations, ∃ steps, declarations.Ends steps (.opened entry.2))
    (h : binding.Hereditary declarations.Scoped) : binding.Grounded declarations := by
  have kept := kept_scoped hself
  induction h with
  | @mk shape bindings here _ ih =>
    have close (part : Structure) (hpart : part.Unbound bindings →
        (Binding.mk part bindings).Grounded declarations) :
        (Binding.close bindings part).Grounded declarations := by
      rcases Binding.lookup_or_unbound bindings part with
        ⟨_, _, _, found, rfl, hlookup⟩ | hunbound
      · rw [Binding.close_of_lookup hlookup]
        exact ih _ (Keyed.mem_of_lookup hlookup)
      · rw [Binding.close_of_unbound hunbound]
        exact hpart hunbound
    induction shape using Structure.induction with
    | typeAlias label name parameters body ihbody =>
      have hbody : (Structure.typeAlias label name parameters body).component? .body = some body :=
        rfl
      exact .body (close body fun hunbound => ihbody (kept.component here hbody hunbound))
    | ref label target typeArguments iharguments =>
      obtain ⟨declaration, happlied⟩ := here.applied
      obtain ⟨hfound, harity⟩ := applied_eq_ok_iff.mp happlied
      obtain ⟨steps, hsteps⟩ := hends _ (Keyed.mem_of_lookup hfound)
      refine .target happlied (hsteps.grounded (fun entry hentry => ?_) (closes_opened harity))
      have hpair := (List.of_mem_zip (Keyed.mem_of_mem_ofList hentry)).2
      obtain ⟨argument, hargument, hclosed⟩ := List.mem_map.mp hpair
      rw [← hclosed]
      exact close argument fun hunbound =>
        iharguments argument hargument (kept.argument here hargument hunbound)
    | _ => exact .concrete nofun nofun

end Declarations

namespace Node

variable {node next last : Node}

/-- One step down a chain: to the target of a reference, or to the body of an alias. -/
inductive Dereferences (node next : Node) : Prop where
  | target (kind : node.kind = .ref) (step : node.child? .target = .ok next)
  | body (kind : node.kind = .typeAlias) (step : node.child? .body = .ok next)

theorem Dereferences.result_succ (h : Dereferences node next) (reach : Nat) :
    (node.dereferenced (reach + 1)).result = (next.dereferenced reach).result := by
  cases h with
  | target kind step | body kind step =>
    rw [dereferenced, kind]
    dsimp only
    rw [Traced.result_bind, result_step, step, Except.ok_bind]

theorem result_dereferenced_of_kind (ref : node.kind ≠ .ref) (typeAlias : node.kind ≠ .typeAlias)
    (reach : Nat) : (node.dereferenced (reach + 1)).result = .ok node := by
  unfold dereferenced
  split
  · next h => exact absurd h ref
  · next h => exact absurd h typeAlias
  · rfl

/-- The end of the chain of references and aliases that starts at a node. -/
structure ChainEnds (node last : Node) : Prop where
  chain : Relation.ReflTransGen Dereferences node last
  ref : last.kind ≠ .ref
  typeAlias : last.kind ≠ .typeAlias
  result : ∃ fewest, ∀ reach, fewest ≤ reach → (node.dereferenced reach).result = .ok last

theorem ChainEnds.head (h : ChainEnds next last) (hstep : Dereferences node next) :
    ChainEnds node last := by
  obtain ⟨fewest, hresult⟩ := h.result
  refine ⟨.head hstep h.chain, h.ref, h.typeAlias, fewest + 1, fun reach hreach => ?_⟩
  obtain ⟨reach, rfl⟩ : ∃ fewer, reach = fewer + 1 := ⟨reach - 1, by omega⟩
  rw [hstep.result_succ]
  exact hresult reach (by omega)

theorem exists_chainEnds {binding : Binding}
    (h : binding.Grounded node.graph.schema.entries) (hnode : node.site.closure = binding) :
    ∃ last, ChainEnds node last := by
  generalize hentries : node.graph.schema.entries = entries at h
  induction h generalizing node with
  | @concrete shape scope ref typeAlias =>
    have hkind : node.kind = shape.kind := congrArg (fun binding => binding.shape.kind) hnode
    rw [← hkind] at ref typeAlias
    refine ⟨node, .refl, ref, typeAlias, 1, fun reach hreach => ?_⟩
    obtain ⟨reach, rfl⟩ : ∃ fewer, reach = fewer + 1 := ⟨reach - 1, by omega⟩
    exact result_dereferenced_of_kind ref typeAlias reach
  | @body _ _ _ body scope _ ih =>
    obtain ⟨hshape, rfl⟩ := Binding.mk.inj hnode
    have hbody : node.shape.component? .body = some body := by rw [shape, hshape]; rfl
    obtain ⟨last, hlast⟩ := @ih (.child node .body (.nested node.bindings body))
      (Binding.closure_nested node.bindings body) hentries
    exact ⟨last, hlast.head (.body (by rw [kind, shape, hshape]; rfl) (child?_of_component? hbody))⟩
  | @target _ _ typeArguments scope declaration applied _ ih =>
    obtain ⟨hshape, rfl⟩ := Binding.mk.inj hnode
    subst hentries
    obtain ⟨last, hlast⟩ := @ih (.child node .target (.declared declaration
      (Binding.bind node.bindings declaration.parameters typeArguments))) rfl rfl
    exact ⟨last, hlast.head (.target (by rw [kind, shape, hshape]; rfl)
      (child?_target hshape applied))⟩

end Node

/-- Below an entry without parameters every chain of references and aliases ends, if no alias stands
as a type argument and no parameter has the name of an entry. -/
theorem Graph.chainEnds_of_plain {graph : Graph}
    (hapart : graph.schema.entries.ParametersApart) (hplain : graph.schema.entries.PlainArguments)
    {name : String} {start node : Node} (hstart : graph.root.child? (.entry name) = .ok start)
    (hparameters : start.shape.parameters = []) (hnode : Node.Below start node) :
    ∃ last, Node.ChainEnds node last := by
  have haccepted := graph.schema.accepted
  have hscoped : node.Scoped := (Node.scoped_of_entry hstart hparameters).below hnode
  have hgraph : node.graph = graph := by
    rw [hnode.graph_eq, Node.graph_of_child? hstart]
    rfl
  obtain ⟨_, hends⟩ := (Declarations.validate_eq_ok_iff graph.schema.nodup_names hapart hplain).mp
    haccepted
  refine Node.exists_chainEnds (Declarations.grounded_of_scoped
    (Declarations.selfChecked_of_validate node.graph.schema.accepted) ?_ hscoped) rfl
  rw [hgraph]
  exact fun entry hentry => ⟨_, hends entry hentry⟩

namespace Schema

/-- An entry that applies an alias to its own application. -/
def nestedGraph : Graph :=
  ⟨0, ⟨Declarations.entered nested, Keyed.nodup_ofList nested, by decide +kernel⟩⟩

def nestedEntry : Node :=
  .child nestedGraph.root (.entry "Nested")
    (.declared ((nestedGraph.schema.entry? "Nested").getD nestedGraph.schema.root) [])

theorem chainEnds_nestedEntry : nestedEntry.kind = .ref ∧ ∃ last, nestedEntry.ChainEnds last := by
  have hstart : nestedGraph.root.child? (.entry "Nested") = .ok nestedEntry := rfl
  refine ⟨rfl, Graph.chainEnds_of_plain ?_ ?_ hstart rfl .start⟩
  · unfold Declarations.ParametersApart
    decide
  · unfold Declarations.PlainArguments
    decide

end Schema

/-! ## Chains that the check does not see -/

namespace Node

/-- Sites from which references and aliases lead to each other only. -/
def Winding (declarations : Declarations) (sites : Site → Prop) : Prop :=
  ∀ site, sites site → ∃ next, sites next ∧
    (site.shape.kind = .ref ∧ site.child declarations .target = .ok next ∨
      site.shape.kind = .typeAlias ∧ site.child declarations .body = .ok next)

theorem not_chainEnds_of_winding {sites : Site → Prop} {node : Node}
    (h : Winding node.graph.schema.entries sites) (hnode : sites node.site) :
    ¬ ∃ last, node.ChainEnds last := by
  rintro ⟨last, hlast⟩
  have hinside : last.graph = node.graph ∧ sites last.site := by
    have hchain := hlast.chain
    clear hlast
    induction hchain with
    | refl => exact ⟨rfl, hnode⟩
    | @tail before next _ hstep ih =>
      obtain ⟨hgraph, hbefore⟩ := ih
      obtain ⟨site, hsite, hnext⟩ := h before.site hbefore
      rw [← hgraph] at hnext
      cases hstep with
      | target kind step =>
        refine ⟨(graph_of_child? step).trans hgraph, ?_⟩
        obtain ⟨found, hfound, rfl⟩ := child?_eq_ok_iff.mp step
        rcases hnext with ⟨_, hchild⟩ | ⟨hkind, _⟩
        · cases hchild.symm.trans hfound
          exact hsite
        · cases kind.symm.trans hkind
      | body kind step =>
        refine ⟨(graph_of_child? step).trans hgraph, ?_⟩
        obtain ⟨found, hfound, rfl⟩ := child?_eq_ok_iff.mp step
        rcases hnext with ⟨hkind, _⟩ | ⟨_, hchild⟩
        · cases kind.symm.trans hkind
        · cases hchild.symm.trans hfound
          exact hsite
  obtain ⟨_, _, ⟨hkind, _⟩ | ⟨hkind, _⟩⟩ := h last.site hinside.2
  · exact hlast.ref hkind
  · exact hlast.typeAlias hkind

end Node

namespace Schema

/-- An alias that stands as a type argument and holds a parameter of the declaration around it. -/
def inline : Structure :=
  .typeAlias ⟨5, "I"⟩ "I" [] (.ref ⟨6, "I.type"⟩ "U" [])

def throughAlias : Declarations :=
  [("S", .ref ⟨1, "S"⟩ "W" [.ref ⟨2, "S.0"⟩ "S" []]),
    ("W", .typeAlias ⟨3, "W"⟩ "W" ["U"] (.ref ⟨4, "W.type"⟩ "V" [inline])),
    ("V", .typeAlias ⟨7, "V"⟩ "V" ["T"] (.ref ⟨8, "V.type"⟩ "T" []))]

def throughAliasGraph : Graph := ⟨0, ⟨throughAlias, by decide, by decide +kernel⟩⟩

def outer : Bindings := [("U", .mk (.ref ⟨2, "S.0"⟩ "S" []) [])]

/-- The sites of the chain, from the entry to the reference that leads back to it. -/
inductive ThroughAlias : Site → Prop where
  | entry : ThroughAlias (.declared (.ref ⟨1, "S"⟩ "W" [.ref ⟨2, "S.0"⟩ "S" []]) [])
  | outer : ThroughAlias
      (.declared (.typeAlias ⟨3, "W"⟩ "W" ["U"] (.ref ⟨4, "W.type"⟩ "V" [inline])) outer)
  | application : ThroughAlias (.nested outer (.ref ⟨4, "W.type"⟩ "V" [inline]))
  | receiver : ThroughAlias (.declared
      (.typeAlias ⟨7, "V"⟩ "V" ["T"] (.ref ⟨8, "V.type"⟩ "T" [])) [("T", .mk inline outer)])
  | inline : ThroughAlias (.nested outer inline)
  | back : ThroughAlias (.nested [] (.ref ⟨2, "S.0"⟩ "S" []))

theorem winding_throughAlias : Node.Winding throughAlias ThroughAlias := by
  rintro site (_ | _ | _ | _ | _ | _)
  · exact ⟨_, .outer, .inl ⟨rfl, rfl⟩⟩
  · exact ⟨_, .application, .inr ⟨rfl, rfl⟩⟩
  · exact ⟨_, .receiver, .inl ⟨rfl, rfl⟩⟩
  · exact ⟨_, .inline, .inr ⟨rfl, rfl⟩⟩
  · exact ⟨_, .back, .inr ⟨rfl, rfl⟩⟩
  · exact ⟨_, .entry, .inl ⟨rfl, rfl⟩⟩

/-- Two aliases apply each other, and each has a parameter of its own name. -/
def shadowed : Declarations :=
  [("Graph", .object ⟨1, "Graph"⟩ none [] [⟨"loop", .ref ⟨2, "Graph.loop"⟩ "A"
      [.primitive ⟨3, "Graph.loop.0"⟩ .string], false⟩]),
    ("A", .typeAlias ⟨4, "A"⟩ "A" ["A"] (.ref ⟨5, "A.type"⟩ "B"
      [.primitive ⟨6, "A.type.0"⟩ .string])),
    ("B", .typeAlias ⟨7, "B"⟩ "B" ["B"] (.ref ⟨8, "B.type"⟩ "A"
      [.primitive ⟨9, "B.type.0"⟩ .string]))]

def shadowedGraph : Graph := ⟨0, ⟨shadowed, by decide, by decide +kernel⟩⟩

/-- The sites of the chain. The bindings inside the arguments grow from round to round. -/
inductive Shadowed : Site → Prop where
  | first : Shadowed
      (.nested [] (.ref ⟨2, "Graph.loop"⟩ "A" [.primitive ⟨3, "Graph.loop.0"⟩ .string]))
  | left {argument : Binding} : Shadowed (.declared (.typeAlias ⟨4, "A"⟩ "A" ["A"]
      (.ref ⟨5, "A.type"⟩ "B" [.primitive ⟨6, "A.type.0"⟩ .string])) [("A", argument)])
  | toRight {argument : Binding} : Shadowed (.nested [("A", argument)]
      (.ref ⟨5, "A.type"⟩ "B" [.primitive ⟨6, "A.type.0"⟩ .string]))
  | right {argument : Binding} : Shadowed (.declared (.typeAlias ⟨7, "B"⟩ "B" ["B"]
      (.ref ⟨8, "B.type"⟩ "A" [.primitive ⟨9, "B.type.0"⟩ .string])) [("B", argument)])
  | toLeft {argument : Binding} : Shadowed (.nested [("B", argument)]
      (.ref ⟨8, "B.type"⟩ "A" [.primitive ⟨9, "B.type.0"⟩ .string]))

theorem winding_shadowed : Node.Winding shadowed Shadowed := by
  rintro site (_ | _ | _ | _ | _)
  · exact ⟨_, .left, .inl ⟨rfl, rfl⟩⟩
  · exact ⟨_, .toRight, .inr ⟨rfl, rfl⟩⟩
  · exact ⟨_, .right, .inl ⟨rfl, rfl⟩⟩
  · exact ⟨_, .toLeft, .inr ⟨rfl, rfl⟩⟩
  · exact ⟨_, .left, .inl ⟨rfl, rfl⟩⟩

/-- Both schemas are accepted, and have a chain without an end below an entry without parameters. -/
theorem endless_chains :
    (∃ start, throughAliasGraph.root.child? (.entry "S") = .ok start ∧
      start.shape.parameters = [] ∧ ¬ ∃ last, start.ChainEnds last) ∧
    ∃ start node, shadowedGraph.root.child? (.entry "Graph") = .ok start ∧
      start.shape.parameters = [] ∧ start.child? (.field "loop") = .ok node ∧
      ¬ ∃ last, node.ChainEnds last :=
  ⟨⟨_, rfl, rfl, Node.not_chainEnds_of_winding winding_throughAlias .entry⟩,
    _, _, rfl, rfl, rfl, Node.not_chainEnds_of_winding winding_shadowed .first⟩

end Schema

end PathQuery
