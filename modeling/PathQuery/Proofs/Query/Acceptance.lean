import PathQuery.Proofs.Matching.Conclusion
import PathQuery.Proofs.Query.Language

/-!
# Acceptance of queries

Compilation may give up on a chain while it checks the arguments of a call. Where no chain goes on
for ever it does not, once its reach is great enough (`Setting.eventually_concludes_compile`): then it
succeeds exactly for the query language (`Engine.decides_language`).
-/

set_option autoImplicit false

open Filter

namespace PathQuery

/-- Fails for the client only where nothing is given up. -/
theorem Except.Meets.concludes {α : Type} {x : Except Error α} {good : α → Prop} {accepted : Prop}
    (h : x.Meets good (Error.Refuses (fun _ => False) accepted)) : Concludes x := by
  cases x with
  | ok a => exact .ok a
  | error e => exact .error (h.resolve_left id).1

theorem Decides.of_concludes {α : Type} {x : Except Error α} {holds : Prop}
    (h : Decides Error.Endless x holds) (hconcludes : Concludes x) :
    Decides (fun _ => False) x holds := by
  cases x with
  | ok a => exact h
  | error e => exact .inr (Or.resolve_left h hconcludes)

/-- Without giving up a computation succeeds exactly if something holds, or fails for the client. -/
theorem Decides.exact {α : Type} {x : Except Error α} {holds : Prop}
    (h : Decides (fun _ => False) x holds) :
    ((∃ a, x = .ok a) ↔ holds) ∧ ∀ e, x = .error e → e.category = .client := by
  cases x with
  | ok a => exact ⟨iff_of_true ⟨a, rfl⟩ h, nofun⟩
  | error e =>
    obtain ⟨hcategory, hnot⟩ := Or.resolve_left h id
    refine ⟨iff_of_false nofun hnot, ?_⟩
    rintro _ ⟨⟩
    exact hcategory

namespace Setting

variable {setting : Setting} {start node : Node} {query : List Json} {demand : Demand}

/-- The same setting with another bound for matching. -/
def reaching (setting : Setting) (reach : Nat) : Setting :=
  { setting with reach }

/-- The root and what is below the entry. -/
def Within (setting : Setting) (start node : Node) : Prop :=
  node = setting.graph.root ∨ Node.Below start node

end Setting

theorem Node.Scoped.category_of_requested {node : Node} {head : Json}
    {properties : List (Property Structure)} {field : String × Json} {e : Error}
    (h : node.Scoped) (hrequested : node.requested head properties field = .error e) :
    e.category = .client := by
  obtain ⟨name, value⟩ := field
  cases value with
  | array query => exact h.category_of_child? (Except.map_eq_error_iff.mp hrequested)
  | _ =>
    cases hrequested
    rfl

/-- The nodes that come next are below the entry. -/
def Demand.Below (start node : Node) : Demand → Prop
  | whole | anew _ => True
  | through _ child _ | property _ _ child _ | items _ child _ => Node.Below start child
  | members .. | matched _ => Node.Below start node

namespace Setting

variable {setting : Setting} {start node : Node} {query : List Json} {demand : Demand}

theorem Within.covers (h : setting.Within start node) (hscoped : start.Scoped) :
    setting.Covers node :=
  h.imp_right hscoped.below

theorem Within.demand_below (hstart : setting.graph.root.child? (.entry setting.entry) = .ok start)
    (h : setting.Within start node) (hdemand : setting.demand node query = .ok demand) :
    demand.Below start node := by
  rcases h with rfl | h
  · cases query with
    | nil => cases hdemand
    | cons head rest =>
      simp only [Setting.demand] at hdemand
      split at hdemand
      · obtain ⟨_, _, rfl⟩ := Except.map_eq_ok_iff.mp hdemand
        exact trivial
      · change setting.demandAtRoot setting.graph.root (head :: rest) = .ok demand at hdemand
        simp only [demandAtRoot] at hdemand
        split at hdemand
        · obtain ⟨child, hchild, rfl⟩ := Except.map_eq_ok_iff.mp hdemand
          cases hstart.symm.trans hchild
          exact .start
        · cases hdemand
  · have hsuits := suits_demand hdemand
    cases demand with
    | whole | anew => exact trivial
    | through =>
      obtain ⟨_, _, _, hchild⟩ := hsuits
      exact .step h hchild
    | property | items => exact .step h hsuits.2
    | members | matched => exact h

/-- The bound for matching has no say in what is asked, only in whether a call is found out to be
in order. -/
theorem demand_unique {reach other : Nat} {demand' : Demand}
    (h : (setting.reaching reach).demand node query = .ok demand)
    (h' : (setting.reaching other).demand node query = .ok demand') : demand = demand' := by
  have hstructure {query : List Json}
      (h : (setting.reaching reach).demandByStructure node query = .ok demand)
      (h' : (setting.reaching other).demandByStructure node query = .ok demand') :
      demand = demand' := by
    unfold demandByStructure at h h'
    cases hs : node.shape with
    | function =>
      rw [hs] at h h'
      cases query with
      | nil => cases h
      | cons head rest =>
        simp only [demandAtFunction] at h h'
        split at h
        · next hcall =>
          rw [if_pos hcall] at h'
          obtain ⟨_, _, h⟩ := Except.bind_eq_ok_iff.mp h
          obtain ⟨_, _, h'⟩ := Except.bind_eq_ok_iff.mp h'
          exact Except.ok.inj (h.symm.trans h')
        · cases h
    | _ =>
      rw [hs] at h h'
      exact Except.ok.inj (h.symm.trans h')
  cases query with
  | nil => exact hstructure h h'
  | cons head rest =>
    simp only [Setting.demand] at h h'
    split at h
    · next hanew =>
      rw [if_pos hanew] at h'
      exact Except.ok.inj (h.symm.trans h')
    · next hanew =>
      rw [if_neg hanew] at h'
      exact hstructure h h'

/-- With enough reach no chain is given up in the call that a query starts with. -/
theorem eventually_decidesCalls (hscoped : start.Scoped)
    (hanchored : ∀ node, Node.Below start node → node.Anchored) (h : setting.Within start node)
    (query : List Json) :
    ∀ᶠ reach in atTop, (setting.reaching reach).DecidesCalls (fun _ => False) node query := by
  cases query with
  | nil => exact .of_forall nofun
  | cons head rest =>
    by_cases hkind : node.kind = .function
    · have hbelow : Node.Below start node := by
        rcases h with rfl | h
        · cases hkind
        · exact h
      refine (Matching.eventually_concludes_checkCall hscoped hanchored hbelow
        ((head.member? "args").getD (.object []))).mono ?_
      rintro reach hconcludes _ _ ⟨⟩ _
      exact (Matching.decides_checkCall (hscoped.below hbelow) hkind reach _).of_concludes hconcludes
    · refine .of_forall fun reach _ _ _ hfunction => absurd hfunction hkind

theorem eventually_concludes_compileFields {optional : Bool} {levels : Nat} (hscoped : start.Scoped)
    (hnode : Node.Below start node)
    (hcompile : ∀ optional node query, setting.Within start node → ∀ᶠ reach in atTop,
      Concludes ((setting.reaching reach).compile Operator.builtin levels optional node query).result)
    (head : Json) (properties : List (Property Structure)) (requested : List (String × Json)) :
    ∀ᶠ reach in atTop, Concludes (Operator.compileFields ⟨setting.reaching reach, optional,
      (setting.reaching reach).compile Operator.builtin levels⟩ node head properties
        requested).result := by
  induction requested with
  | nil => exact .of_forall fun _ => .ok []
  | cons field rest ih =>
    simp only [Operator.result_compileFields_cons]
    cases hrequested : node.requested head properties field with
    | error e =>
      exact .of_forall fun _ => .error ((hscoped.below hnode).category_of_requested hrequested)
    | ok part =>
      have hchild := Node.child?_of_requested hrequested
      refine ((hcompile part.1 part.2.1 part.2.2 (.inr (.step hnode hchild))).and ih).mono ?_
      rintro reach ⟨hinner, hrest⟩
      exact hinner.bind fun inner _ => hrest.map _

/-- With enough reach compilation gives up no chain. -/
theorem eventually_concludes_compile
    (hstart : setting.graph.root.child? (.entry setting.entry) = .ok start)
    (hscoped : start.Scoped) (hanchored : ∀ node, Node.Below start node → node.Anchored)
    (levels : Nat) (optional : Bool) (node : Node) (query : List Json)
    (h : setting.Within start node) : ∀ᶠ reach in atTop,
      Concludes ((setting.reaching reach).compile Operator.builtin levels optional node query).result := by
  induction levels generalizing optional node query with
  | zero => exact .of_forall fun reach => .error rfl
  | succ levels ih =>
    have hdemand : ∀ᶠ reach in atTop, Concludes ((setting.reaching reach).demand node query) := by
      refine (eventually_decidesCalls hscoped hanchored h query).mono fun reach hcalls => ?_
      have hcovers : (setting.reaching reach).Covers node := h.covers hscoped
      have hreads : (setting.reaching reach).Reads (fun _ => False) (fun _ _ => True) node
          ((setting.reaching reach).demand node query) _ := hcovers.reads_demand hcalls
      exact Except.Meets.concludes hreads
    have hassemble : ∀ᶠ reach in atTop, ∀ demand,
        (setting.reaching reach).demand node query = .ok demand →
        Concludes (demand.assemble ⟨setting.reaching reach, optional,
          (setting.reaching reach).compile Operator.builtin levels⟩ node) := by
      by_cases hfound : ∃ reach demand, (setting.reaching reach).demand node query = .ok demand
      · obtain ⟨reach, demand, hfound⟩ := hfound
        have hbelow : demand.Below start node :=
          @Within.demand_below (setting.reaching reach) _ _ _ _ hstart h hfound
        suffices hdemand : ∀ᶠ reach in atTop, Concludes (demand.assemble ⟨setting.reaching reach,
            optional, (setting.reaching reach).compile Operator.builtin levels⟩ node) by
          refine hdemand.mono fun other hconcludes demand' hdemand' => ?_
          rwa [← demand_unique hfound hdemand']
        cases demand with
        | whole | matched => exact .of_forall fun _ => .ok _
        | through _ child rest | property _ _ child rest | items _ child rest =>
          exact (ih _ child rest (.inr hbelow)).mono fun reach hinner => hinner.map _
        | members head properties requested =>
          exact (eventually_concludes_compileFields hscoped hbelow ih head properties requested).mono
            fun reach hfields => hfields.map _
        | anew query => exact (ih false _ query (.inl rfl)).mono fun reach hinner => hinner.map _
      · refine .of_forall fun reach demand hdemand => absurd ⟨reach, demand, hdemand⟩ hfound
    refine (hdemand.and hassemble).mono ?_
    rintro reach ⟨hdemand, hassemble⟩
    rw [compile_succ]
    exact hdemand.bind hassemble

theorem plainEntry_of_start (hstart : setting.graph.root.child? (.entry setting.entry) = .ok start)
    (hplain : start.shape.parameters = []) : setting.PlainEntry := by
  intro other hother
  cases hstart.symm.trans hother
  exact hplain

/-- Where no chain goes on for ever, compilation accepts exactly the query language once its reach is
great enough. -/
theorem exists_reach_compile
    (hstart : setting.graph.root.child? (.entry setting.entry) = .ok start)
    (hplain : start.shape.parameters = [])
    (hchains : ∀ chain : Nat → Node, Node.Below start (chain 0) →
      ∃ n, ¬ (chain n).HandsOn (chain (n + 1)))
    (h : setting.Within start node) (levels : Nat) (optional : Bool) (query : List Json) :
    ∃ enough, ∀ reach, enough ≤ reach → Decides (fun _ => False)
      ((setting.reaching reach).compile Operator.builtin levels optional node query).result
      (setting.language.Accepts levels node query) := by
  have hscoped := Node.scoped_of_entry hstart hplain
  have hanchored (node : Node) (hnode : Node.Below start node) : node.Anchored :=
    Node.anchored_below hchains hnode
  obtain ⟨enough, henough⟩ := eventually_atTop.mp
    (eventually_concludes_compile hstart hscoped hanchored levels optional node query h)
  refine ⟨enough, fun reach hreach => ?_⟩
  have hentry : (setting.reaching reach).PlainEntry := plainEntry_of_start hstart hplain
  exact (decides_compile hentry levels optional node query (h.covers hscoped)).of_concludes
    (henough reach hreach)

end Setting

/-- Compilation accepts exactly the query language, at the root and below an entry without
parameters, unless it gives up on a chain of wrappers and union members. If no such chain goes on for
ever below the entry, it gives up on none, once its bound is great enough. -/
theorem Engine.decides_language {graph : Graph} {entry : String} {resolvers : List Resolver}
    {configuration : Configuration} {engine : Engine} {start node : Node}
    (h : assemble graph entry resolvers [] configuration = .ok engine)
    (hstart : graph.root.child? (.entry entry) = .ok start) (hplain : start.shape.parameters = [])
    (hnode : node = graph.root ∨ Node.Below start node) (levels : Nat) (optional : Bool)
    (query : List Json) :
    Decides Error.Endless
        (engine.setting.compile engine.operators levels optional node query).result
        (engine.setting.language.Accepts levels node query) ∧
      ((∀ chain : Nat → Node, Node.Below start (chain 0) →
          ∃ n, ¬ (chain n).HandsOn (chain (n + 1))) →
        ∃ enough, ∀ reach, enough ≤ reach →
          ((∃ middleware, ((engine.setting.reaching reach).compile engine.operators levels optional
              node query).result = .ok middleware) ↔
            engine.setting.language.Accepts levels node query) ∧
          ∀ error, ((engine.setting.reaching reach).compile engine.operators levels optional node
              query).result = .error error → error.category = .client) := by
  have hscoped := Node.scoped_of_entry hstart hplain
  have hsetting : engine.setting.graph = graph ∧ engine.setting.entry = entry := by
    obtain ⟨_, rfl⟩ := eq_of_assemble h
    exact ⟨rfl, rfl⟩
  rw [operators_of_assemble h]
  obtain ⟨rfl, rfl⟩ := hsetting
  refine ⟨?_, fun hchains => ?_⟩
  · exact Setting.decides_compile (Setting.plainEntry_of_start hstart hplain) levels optional node
      query (hnode.imp_right hscoped.below)
  · obtain ⟨enough, henough⟩ := Setting.exists_reach_compile hstart hplain hchains hnode levels
      optional query
    exact ⟨enough, fun reach hreach => (henough reach hreach).exact⟩

/-! ## A search -/

namespace Search

def term : Structure := .primitive ⟨2, "Search.term"⟩ .string

def inner : Structure := .primitive ⟨4, "Search.limit.inner"⟩ .number

def limit : Structure := .nullable ⟨3, "Search.limit"⟩ inner

def arguments : Structure :=
  .arguments ⟨1, "Search.arguments"⟩ [⟨"term", term, false⟩, ⟨"limit", limit, true⟩]

def titles : Structure := .array ⟨5, "Search.returns"⟩ (.primitive ⟨6, "Search.returns.items"⟩ .string)

/-- A search for a term, which may be limited. -/
def search : Structure := .function ⟨0, "Search"⟩ arguments titles

def graph : Graph := ⟨0, ⟨[("Search", search)], by decide, by rfl⟩⟩

def entry : Node := .child graph.root (.entry "Search") (.declared search [])

def engine : Engine :=
  ⟨{ graph, entry := "Search", resolvers := .bind [], execution := {}, reach := defaultReach },
    Operator.builtin⟩

theorem assemble_eq_engine : Engine.assemble graph "Search" [] [] {} = .ok engine := rfl

/-- The structures below the entry. -/
inductive Part : Structure → Prop where
  | search : Part search
  | arguments : Part arguments
  | term : Part term
  | limit : Part limit
  | inner : Part inner
  | titles : Part titles
  | title : Part (.primitive ⟨6, "Search.returns.items"⟩ .string)

theorem kept_part : Kept graph.schema.entries fun shape _ => Part shape where
  entry h _ := by cases h
  component {_ _ _ part} h hpart _ := by
    have hpart := Structure.component_of_component? hpart
    cases h with
    | search =>
      cases hpart with
      | arguments => exact .arguments
      | returns => exact .titles
    | arguments =>
      cases hpart with
      | argument found =>
        rcases List.mem_cons.mp (List.mem_of_find?_eq_some found) with rfl | hmem
        · exact .term
        · cases List.mem_singleton.mp hmem
          exact .limit
    | term | inner | title => cases hpart
    | limit =>
      cases hpart with
      | inner => exact .inner
    | titles =>
      cases hpart with
      | items => exact .title
  argument h _ _ := by cases h
  target h _ := by cases h

theorem part_of_below {node : Node} (h : Node.Below entry node) : Part node.shape := by
  have hkept : Kept entry.graph.schema.entries fun shape _ => Part shape := kept_part
  exact (hkept.below (.mk .search nofun) h).here_of

/-- The only value that is handed on is that of the limit. -/
theorem shape_of_handsOn {node next : Node} (h : Node.Below entry node) (hnext : node.HandsOn next) :
    node.shape = limit ∧ next.shape = inner := by
  have hpart := part_of_below h
  rcases hnext with ⟨step, hstep, hchild⟩ | hmember
  · generalize hs : node.shape = shape at hpart hstep
    cases hpart with
    | limit =>
      cases hstep
      have hinner : node.shape.component? .inner = some inner := by rw [hs]; rfl
      cases (Node.child?_of_component? hinner).symm.trans hchild
      exact ⟨rfl, rfl⟩
    | _ => cases hstep
  · have hkind : node.shape.kind = .union := Node.kind_of_memberOf hmember
    generalize node.shape = shape at hpart hkind
    cases hpart <;> cases hkind

theorem chains_end (chain : Nat → Node) (h : Node.Below entry (chain 0)) :
    ∃ n, ¬ (chain n).HandsOn (chain (n + 1)) := by
  by_contra hall
  have hnext (n : Nat) : (chain n).HandsOn (chain (n + 1)) :=
    Classical.not_not.mp fun hnot => hall ⟨n, hnot⟩
  have hfirst := shape_of_handsOn h (hnext 0)
  have hbelow : Node.Below entry (chain 1) := by
    rcases hnext 0 with ⟨step, _, hchild⟩ | hmember
    · exact .step h hchild
    · exact hmember.below h
  cases hfirst.2.symm.trans (shape_of_handsOn hbelow (hnext 1)).1

def query : List Json :=
  [.string "Search", .object [("kind", .string "call"),
    ("args", .object [("term", .string "graph"), ("limit", .null)])], .ofNat 0]

/-- The call lacks its term. -/
def incomplete : List Json :=
  [.string "Search", .object [("kind", .string "call")]]

theorem accepts_query :
    engine.setting.language.Accepts 4 graph.root query ∧
      ¬ engine.setting.language.Accepts 4 graph.root incomplete ∧
      ∃ enough, ∀ reach, enough ≤ reach →
        ((∃ middleware, ((engine.setting.reaching reach).compile engine.operators 4 false graph.root
            query).result = .ok middleware) ↔
          engine.setting.language.Accepts 4 graph.root query) ∧
        ∀ error, ((engine.setting.reaching reach).compile engine.operators 4 false graph.root
            query).result = .error error → error.category = .client := by
  have hstart : graph.root.child? (.entry "Search") = .ok entry := rfl
  have hquery := Engine.decides_language assemble_eq_engine hstart rfl (.inl rfl) 4 false query
  have hincomplete :=
    Engine.decides_language assemble_eq_engine hstart rfl (.inl rfl) 4 false incomplete
  refine ⟨hquery.1.good_of rfl, ?_, hquery.2 chains_end⟩
  rcases hincomplete.1.fine_of rfl with ⟨_, hendless⟩ | ⟨_, hnot⟩
  · cases hendless
  · exact hnot

end Search

end PathQuery
