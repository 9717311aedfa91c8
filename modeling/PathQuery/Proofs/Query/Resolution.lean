import PathQuery.Proofs.Graph.Navigation
import PathQuery.Proofs.Query.Assembly
import PathQuery.Proofs.Query.Failures

/-!
# References in runs

Where the entry of an engine is a declaration without parameters, queries are compiled at the root
and at nodes in scope only. Compilation does not fail for a reference there (`Setting.resolvedAt`), and
a run does so only if a middleware of the host does by itself (`Engine.meets_run`).
-/

set_option autoImplicit false

namespace PathQuery

/-! ## Faults of instructions -/

namespace Instruction

theorem meets_instructions? (key : String) (instruction : Json) (field : String) :
    (instructions? key instruction field).Meets (fun _ => True) Error.Resolved := by
  unfold instructions?
  split
  · exact trivial
  · exact trivial
  · exact rfl

theorem meets_positive (key : String) (instruction : Json) (field : String) :
    (positive key instruction field).Meets (fun _ => True) Error.Resolved := by
  unfold positive
  split
  · exact trivial
  · exact rfl

end Instruction

theorem Operator.meets_requireLast (node : Node) (head : Json) (rest : List Json) :
    (requireLast node head rest).Meets (fun _ => True) Error.Resolved := by
  unfold requireLast
  split
  · exact trivial
  · exact rfl

theorem Excerpt.meets_readPage (maxSize : Option Nat) (node : Node) (instruction : Json) :
    (readPage maxSize node instruction).Meets (fun _ => True) Error.Resolved := by
  unfold readPage
  refine (Instruction.meets_positive _ _ _).bind fun number _ _ => ?_
  refine (Instruction.meets_positive _ _ _).bind fun size _ _ => ?_
  cases maxSize with
  | none => exact trivial
  | some max =>
    simp only
    split
    · exact rfl
    · exact trivial

namespace Variables

variable (key : String) (values : List Json)

mutual

theorem meets_substitute : (query : Json) →
    (substitute key values query).Meets (fun _ => True) Error.Resolved
  | .array items => by
    rw [substitute]
    exact (meets_substituteItems items).map fun _ _ _ => trivial
  | .object members => by
    rw [substitute]
    split
    · unfold referent
      split
      · exact trivial
      · exact rfl
    · exact (meets_substituteMembers members).map fun _ _ _ => trivial
  | .null | .bool _ | .number _ | .string _ => by
    rw [substitute] <;> first | exact trivial | exact nofun

theorem meets_substituteItems : (items : List Json) →
    (substituteItems key values items).Meets (fun _ => True) Error.Resolved
  | [] => trivial
  | item :: rest =>
    (meets_substitute item).bind fun _ _ _ => (meets_substituteItems rest).bind fun _ _ _ => trivial

theorem meets_substituteMembers : (members : List (String × Json)) →
    (substituteMembers key values members).Meets (fun _ => True) Error.Resolved
  | [] => trivial
  | (_, value) :: rest =>
    (meets_substitute value).bind fun _ _ _ =>
      (meets_substituteMembers rest).bind fun _ _ _ => trivial

end

end Variables

theorem Engine.meets_instructions (engine : Engine) (query : Json) (values : List Json) :
    (engine.instructions query values).Meets (fun _ => True) Error.Resolved := by
  unfold instructions
  refine (Variables.meets_substitute _ values query).bind fun substituted _ _ => ?_
  split
  · exact trivial
  · exact rfl

/-! ## Demands -/

/-- The nodes that come next are in scope, and so is the node itself where its members are looked
up later. -/
def Demand.InScope (node : Node) : Demand → Prop
  | whole | anew _ => True
  | through _ child _ | property _ _ child _ | items _ child _ => child.Scoped
  | members .. | matched _ => node.Scoped

namespace Setting

variable {setting : Setting} {node : Node}

/-- The nodes that queries are compiled at: the root, and the nodes in scope. -/
def Covers (setting : Setting) (node : Node) : Prop :=
  node = setting.graph.root ∨ node.Scoped

/-- The entry is a declaration without parameters. -/
def PlainEntry (setting : Setting) : Prop :=
  ∀ start, setting.graph.root.child? (.entry setting.entry) = .ok start →
    start.shape.parameters = []

theorem meets_absoluteQuery (node : Node) (head : Json) (rest : List Json) :
    (absoluteQuery node head rest).Meets (fun _ => True) Error.Resolved := by
  unfold absoluteQuery
  refine (Operator.meets_requireLast node head rest).bind fun _ _ _ => ?_
  refine (Instruction.meets_instructions? _ _ _).bind fun path _ _ => ?_
  cases path with
  | none => exact rfl
  | some path => exact (Instruction.meets_instructions? _ _ _).bind fun query _ _ => trivial

theorem meets_demandAtRoot (hplain : setting.PlainEntry) (query : List Json) :
    (setting.demandAtRoot setting.graph.root query).Meets (Demand.InScope setting.graph.root)
      Error.Resolved := by
  cases query with
  | nil => exact rfl
  | cons head rest =>
    simp only [demandAtRoot]
    split
    · cases hstart : setting.graph.root.child? (.entry setting.entry) with
      | ok start => exact Node.scoped_of_entry hstart (hplain start hstart)
      | error e =>
        refine Site.child_resolved (fun label target typeArguments hs => ?_)
          (Node.child?_eq_error_iff.mp hstart)
        cases hs
    · exact rfl

theorem meets_throughStep (h : node.Scoped) (step : Step) (rest : List Json) :
    ((node.child? step).map fun child => Demand.through none child rest).Meets
      (Demand.InScope node) Error.Resolved :=
  (h.meets_child step).map fun _ _ hchild => hchild

theorem meets_demandAtObject (h : node.Scoped) (properties : List (Property Structure))
    (query : List Json) :
    (demandAtObject node properties query).Meets (Demand.InScope node) Error.Resolved := by
  cases query with
  | nil => exact trivial
  | cons head rest =>
    simp only [demandAtObject]
    split
    · refine (Operator.meets_requireLast node head rest).bind fun _ _ _ => ?_
      split
      · exact h
      · exact rfl
    · split
      · exact (h.meets_child _).map fun _ _ hchild => hchild
      · exact rfl

theorem meets_excerptAt (maxSize : Option Nat) (node : Node) (head : Json) :
    (excerptAt maxSize node head).Meets (fun _ => True) Error.Resolved := by
  unfold excerptAt
  split
  · split
    · exact trivial
    · exact rfl
  · split
    · exact trivial
    · exact trivial
    · exact Excerpt.meets_readPage maxSize node _
    · exact rfl

theorem meets_demandAtList (h : node.Scoped) (query : List Json) :
    (setting.demandAtList node query).Meets (Demand.InScope node) Error.Resolved := by
  cases query with
  | nil => exact (h.meets_child .items).map fun _ _ hitem => hitem
  | cons head rest =>
    refine (meets_excerptAt _ node head).bind fun excerpt _ _ => ?_
    exact (h.meets_child .items).bind fun _ _ hitem => hitem

theorem meets_demandAtFunction (h : node.Scoped) (query : List Json) :
    (setting.demandAtFunction node query).Meets (Demand.InScope node) Error.Resolved := by
  cases query with
  | nil => exact rfl
  | cons head rest =>
    simp only [demandAtFunction]
    split
    · refine (Matching.meets_checkCall Node.closed_scoped h setting.reach _).bind fun _ _ _ => ?_
      exact (h.meets_child .returns).bind fun _ _ hreturned => hreturned
    · exact rfl

theorem meets_demandAtUnion (h : node.Scoped) (query : List Json) :
    (setting.demandAtUnion node query).Meets (Demand.InScope node) Error.Resolved := by
  cases query with
  | nil => exact h
  | cons head rest =>
    simp only [demandAtUnion]
    split
    · split
      · exact (Matching.meets_selectMember Node.closed_scoped h setting.reach none _).map fun _ _ hmember => hmember
      · exact rfl
    · exact h

theorem meets_demandAtLeaf (node : Node) (query : List Json) :
    (demandAtLeaf node query).Meets (Demand.InScope node) Error.Resolved := by
  cases query with
  | nil => exact trivial
  | cons head rest => exact rfl

theorem meets_demandByStructure (hplain : setting.PlainEntry) (h : setting.Covers node)
    (query : List Json) :
    (setting.demandByStructure node query).Meets (Demand.InScope node) Error.Resolved := by
  rcases h with rfl | h
  · exact meets_demandAtRoot hplain query
  · unfold demandByStructure
    split
    · next hs =>
      obtain ⟨_, _, hcheck⟩ := h.here.checked
      rw [hs] at hcheck
      cases hcheck
    · exact meets_throughStep h .target query
    · exact meets_throughStep h .body query
    · exact meets_throughStep h .inner query
    · exact meets_demandAtObject h _ query
    · exact meets_demandAtList h query
    · exact meets_demandAtFunction h query
    · exact meets_demandAtUnion h query
    · exact meets_demandAtLeaf node query
    · exact meets_demandAtLeaf node query
    · exact rfl

theorem meets_demand (hplain : setting.PlainEntry) (h : setting.Covers node) (query : List Json) :
    (setting.demand node query).Meets (Demand.InScope node) Error.Resolved := by
  unfold demand
  split
  · split
    · exact (meets_absoluteQuery node _ _).map fun _ _ _ => trivial
    · exact meets_demandByStructure hplain h _
  · exact meets_demandByStructure hplain h []

end Setting

/-! ## Compiled queries -/

theorem Descent.settles_resolved : Settles Error.Resolved :=
  settles (fun _ _ _ => rfl) fun _ => rfl

section

variable {setting : Setting} {levels : Nat} {optional : Bool} {node : Node}

theorem Node.Scoped.meets_requested (h : node.Scoped) (head : Json)
    (properties : List (Property Structure)) (field : String × Json) :
    (node.requested head properties field).Meets (fun part => part.2.1.Scoped) Error.Resolved := by
  obtain ⟨name, query⟩ := field
  cases query with
  | array query => exact (h.meets_child (.field name)).map fun _ _ hchild => hchild
  | _ => exact rfl

/-- At this many levels nothing fails for a reference when it is compiled. -/
def Setting.ResolvedAt (setting : Setting) (levels : Nat) : Prop :=
  ∀ optional node query, setting.Covers node →
    (setting.compile Operator.builtin levels optional node query).result.Meets (fun _ => True)
      Error.Resolved

namespace Setting.ResolvedAt

theorem meets_compileFields (h : setting.ResolvedAt levels) (hnode : node.Scoped) (head : Json)
    (properties : List (Property Structure)) (requested : List (String × Json)) :
    (Operator.compileFields ⟨setting, optional, setting.compile Operator.builtin levels⟩ node head
      properties requested).result.Meets (fun _ => True) Error.Resolved := by
  induction requested with
  | nil => exact trivial
  | cons field rest ih =>
    rw [Operator.result_compileFields_cons]
    refine (hnode.meets_requested head properties field).bind fun (flag, child, query) _ hchild => ?_
    refine (h flag child query (.inr hchild)).bind fun inner _ _ => ?_
    exact ih.map fun _ _ _ => trivial

theorem meets_assemble (h : setting.ResolvedAt levels) {demand : Demand}
    (hscope : demand.InScope node) :
    (demand.assemble ⟨setting, optional, setting.compile Operator.builtin levels⟩ node).Meets
      (fun _ => True) Error.Resolved := by
  cases demand with
  | whole | matched => exact trivial
  | through _ child rest | property _ _ child rest | items _ child rest =>
    exact (h _ child rest (.inr hscope)).map fun _ _ _ => trivial
  | members head properties requested =>
    exact (h.meets_compileFields hscope head properties requested).map fun _ _ _ => trivial
  | anew query => exact (h false setting.graph.root query (.inl rfl)).map fun _ _ _ => trivial

end Setting.ResolvedAt

/-- No level of compilation fails for a reference. -/
theorem Setting.resolvedAt (hplain : setting.PlainEntry) (levels : Nat) :
    setting.ResolvedAt levels := by
  induction levels with
  | zero => exact fun _ _ _ _ => rfl
  | succ levels ih =>
    intro optional node query hnode
    rw [compile_succ]
    exact (meets_demand hplain hnode query).bind fun demand _ hscope => ih.meets_assemble hscope

theorem Demand.InScope.scoped_of_leads {demand : Demand} {next : Place} (h : demand.InScope node)
    (hleads : demand.Leads setting node next) : next.node.Scoped := by
  cases hleads with
  | through | property | item => exact h
  | member _ hrequested => exact (h.meets_requested _ _ _).good_of hrequested
  | matched hmember =>
    exact (Matching.meets_selectMember Node.closed_scoped h setting.reach _ none).good_of hmember

/-- A query comes to nodes that are covered only. -/
theorem Setting.Comes.covers {start place : Place} (h : setting.Comes start place)
    (hplain : setting.PlainEntry) (hstart : setting.Covers start.node) : setting.Covers place.node := by
  induction h with
  | here place => exact hstart
  | leads hdemand hleads _ ih =>
    exact ih (.inr (((meets_demand hplain hstart _).good_of hdemand).scoped_of_leads hleads))
  | anew _ _ ih => exact ih (.inl rfl)

theorem Setting.Covers.meets_compileMatched {query rest : List Json} {value : Json}
    (h : setting.Covers node) (hplain : setting.PlainEntry)
    (hdemand : setting.demand node query = .ok (.matched rest)) :
    (setting.compileMatched levels optional node rest value).Meets (fun _ => True)
      Error.Resolved := by
  have hnode : node.Scoped := (meets_demand hplain h query).good_of hdemand
  refine (Matching.meets_selectMember Node.closed_scoped hnode setting.reach (some value) none).bind
    fun member _ hmember => ?_
  exact setting.resolvedAt hplain levels optional member rest (.inr hmember)

end

/-! ## Entries without parameters -/

/-- What holds of references below an entry, and in the runs of the engines that start there. -/
structure Graph.FollowsReferences (graph : Graph) (entry : String) (start : Node) : Prop where
  /-- No move fails for a reference, however the start was left and whatever was visited before. -/
  moves : ∀ {reach node}, Node.Reached reach start node → ∀ (arena : Arena) move error,
    (arena.perform (node.move reach move)).1 = .error error → error.isUnresolved = false
  /-- A reference that is reached names an entry with as many parameters as it has arguments. -/
  applied : ∀ {reach node label target typeArguments}, Node.Reached reach start node →
    node.shape = .ref label target typeArguments →
    ∃ declaration, graph.schema.entry? target = some declaration ∧
      declaration.parameters.length = typeArguments.length
  /-- A step to a reference comes to the argument that its name is bound to, or to the reference
  itself, which then is as above. -/
  replaced : ∀ {reach node next step label target typeArguments},
    Node.Reached reach start node →
    node.shape.component? step = some (.ref label target typeArguments) →
    node.child? step = .ok next →
    (∃ binding, node.bindings.lookup target = some binding ∧ next.site.closure = binding) ∨
      next.shape = .ref label target typeArguments ∧
        ∃ declaration, graph.schema.entry? target = some declaration ∧
          declaration.parameters.length = typeArguments.length
  /-- A run fails for a reference only if a middleware of the host does so by itself. -/
  runs : ∀ {resolvers configuration engine},
    Engine.assemble graph entry resolvers [] configuration = .ok engine →
    ∀ query values context error, (engine.run query values context).result = .error error →
      error.isUnresolved = true → ∃ resolver ∈ resolvers, ∃ middleware ∈ resolver.middlewares,
        Middleware.Raises Error.Resolved middleware

/-- A run fails for a reference only if a middleware raises such an error. -/
theorem Engine.meets_run {graph : Graph} {entry : String} {start : Node}
    {resolvers : List Resolver} {configuration : Configuration} {engine : Engine}
    (h : assemble graph entry resolvers [] configuration = .ok engine)
    (hstart : graph.root.child? (.entry entry) = .ok start) (hplain : start.shape.parameters = [])
    (hkeeps : ∀ resolver ∈ resolvers, ∀ middleware ∈ resolver.middlewares,
      Middleware.Keeps Error.Resolved middleware)
    (query : Json) (values : List Json) (context : Context) :
    (engine.run query values context).result.Meets (fun _ => True) Error.Resolved := by
  rw [result_run]
  refine (engine.meets_instructions query values).bind fun instructions _ _ => ?_
  obtain ⟨_, rfl⟩ := eq_of_assemble h
  have hentry : Setting.PlainEntry
      { graph, entry, resolvers := .bind resolvers, execution := configuration.execution,
        reach := defaultReach } := by
    intro other hother
    cases hstart.symm.trans hother
    exact hplain
  refine (Setting.resolvedAt hentry _ false graph.root instructions (.inl rfl)).bind
    fun middleware hmiddleware _ => ?_
  have hmiddlewares : ∀ shape, ∀ middleware ∈ (Resolvers.bind resolvers).atShape shape,
      Middleware.Keeps Error.Resolved middleware := by
    intro shape middleware hm
    obtain ⟨resolver, hresolver, hm⟩ := Resolvers.exists_of_mem_atShape hm
    exact hkeeps resolver hresolver middleware hm
  have hkept : middleware.Keeps Error.Resolved := by
    refine Setting.keeps_compile Descent.settles_resolved hmiddlewares ⟨graph.root, instructions⟩
      (fun hcomes hdemand _ _ _ _ herror => ?_) hmiddleware
    have hcovers := hcomes.covers hentry (.inl rfl)
    exact (hcovers.meets_compileMatched hentry hdemand).fine_of herror
  exact (hkept.meets_evaluate context).map fun _ _ _ => trivial

/-- References are followed below every entry that declares no type parameters, by navigation as well
as by queries. -/
theorem Graph.followsReferences_of_plain {graph : Graph} {entry : String} {start : Node}
    (hstart : graph.root.child? (.entry entry) = .ok start)
    (hplain : start.shape.parameters = []) : graph.FollowsReferences entry start where
  moves hreached arena move error herror := by
    have hnode := Node.closed_scoped.good_of_reached hreached (Node.scoped_of_entry hstart hplain)
    exact (Node.closed_scoped.meets_move hnode _ move).fine_of herror
  applied hreached hshape := by
    have hnode := Node.closed_scoped.good_of_reached hreached (Node.scoped_of_entry hstart hplain)
    have hbelow := (Node.closed_below start).good_of_reached hreached .start
    have hentry := hnode.entry_of_ref hshape
    rwa [hbelow.graph_eq, Node.graph_of_child? hstart] at hentry
  replaced {_ node next _ label target typeArguments} hreached hpart hnext := by
    have hnode := Node.closed_scoped.good_of_reached hreached (Node.scoped_of_entry hstart hplain)
    have hbelow := (Node.closed_below start).good_of_reached hreached .start
    obtain ⟨site, hsite, _⟩ := Node.child?_eq_ok_iff.mp hnext
    have hclosure : next.site.closure =
        Binding.close node.bindings (.ref label target typeArguments) := by
      subst next
      exact Binding.closure_of_component hpart hsite
    cases hlookup : node.bindings.lookup target with
    | some binding =>
      rw [Binding.close_of_lookup hlookup] at hclosure
      exact .inl ⟨binding, rfl, hclosure⟩
    | none =>
      rw [Binding.close, hlookup] at hclosure
      have hshape : next.shape = .ref label target typeArguments := congrArg Binding.shape hclosure
      have hentry := (hnode.child hnext).entry_of_ref hshape
      rw [Node.graph_of_child? hnext, hbelow.graph_eq, Node.graph_of_child? hstart] at hentry
      exact .inr ⟨hshape, hentry⟩
  runs := by
    intro resolvers configuration engine hengine query values context error herror hunresolved
    by_contra hnone
    have hkeeps : ∀ resolver ∈ resolvers, ∀ middleware ∈ resolver.middlewares,
        Middleware.Keeps Error.Resolved middleware := by
      intro resolver hresolver middleware hm
      rcases Middleware.keeps_or_raises Error.Resolved middleware with hkeep | hraise
      · exact hkeep
      · exact absurd ⟨resolver, hresolver, middleware, hm, hraise⟩ hnone
    have hresolved := (Engine.meets_run hengine hstart hplain hkeeps query values context).fine_of herror
    rw [Error.Resolved, hunresolved] at hresolved
    cases hresolved

namespace Library

theorem followsReferences : graph.FollowsReferences "Library" entry :=
  Graph.followsReferences_of_plain rfl rfl

end Library

end PathQuery
