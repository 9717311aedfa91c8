import PathQuery.Proofs.Comparison.Demand
import PathQuery.Proofs.Comparison.Run
import PathQuery.Proofs.Query.Assembly
import PathQuery.Proofs.Query.Enclosure

/-!
# Comparing engines

Engines are compared place by place: where nodes stand for each other, queries demand the same of both,
a value turns out to be the same member of a union, and the middlewares that are registered there are
alike (`Comparison.Compares`). Then so is everything that is compiled (`Compares.compile`), and so are
whole runs (`Compares.run`). The second engine may have more levels if the recursion limit of the
first is what cuts the comparison.
-/

set_option autoImplicit false

namespace PathQuery

namespace Comparison

variable {comparison : Comparison} {context context' : Context} {node node' : Node}

/-! ## Descents -/

namespace Descents

open Descent (enclose onSettled through)

variable {resolvers resolvers' : Resolvers} {descent descent' : Descent}
  {inner inner' : Middleware}

theorem enclose (h : comparison.Descents descent descent') (hnode : comparison.Paired node node')
    (hchain : comparison.Middlewares (Middleware.compose (resolvers.atShape node.shape))
      (Middleware.compose (resolvers'.atShape node'.shape))) (input : Option Json) :
    comparison.Middlewares (enclose resolvers node input descent)
      (enclose resolvers' node' input descent') := by
  intro context context' hcontext next next' hnext
  have hstart := (hcontext.enter hnode).attach hnode input
  refine Runs.bind (hchain _ _ hstart _ _ fun inner inner' hinner => ?_) hnext
  refine (h inner inner' hinner).bind ?_
  rintro value _ rfl
  exact .pure (hinner.setValue value)

theorem onSettled {go go' : Context → Json → Run (Option Json)} (optional : Bool)
    (hnode : comparison.Paired node node')
    (hshape : node.shape.Resembles node'.shape)
    (hgo : ∀ value, comparison.Descents (fun context => go context value)
      fun context => go' context value) :
    comparison.Descents (onSettled optional node go) (onSettled optional node' go') := by
  intro context context' hcontext
  have hcheck (value : Json) : Descent.checkShape node' value = Descent.checkShape node value := by
    have hkey : node'.key = node.key := hshape.key
    rw [Descent.checkShape, Descent.checkShape, hshape.expected, hkey]
  have hsettle : Descent.settle optional node' context' = Descent.settle optional node context := by
    have hkey : node'.key = node.key := hshape.key
    simp only [Descent.settle, hcontext.value?_eq, hcontext.fillsEmpty_eq hnode, hcheck,
      hshape.empty, hkey]
  unfold Descent.onSettled
  rw [hsettle]
  refine Runs.bind (.ofExcept (.eq_self _)) ?_
  rintro settled _ rfl
  cases settled with
  | none => exact .pure rfl
  | some value => exact hgo value context context' hcontext

theorem through {child child' : Node} (h : comparison.Descents inner.evaluate inner'.evaluate)
    (hnode : comparison.Paired node node') (hkind : node'.kind = node.kind)
    (hchild : comparison.Paired child child') :
    comparison.Descents (through node child inner) (through node' child' inner') := by
  intro context context' hcontext
  unfold Descent.through
  rw [hkind, hcontext.value?_eq]
  split
  · exact .pure rfl
  · exact h _ _ (hcontext.passMarks hnode hchild)

theorem excerpt {parallel : Bool} (haligned : parallel = true → comparison.aligned = true)
    (h : comparison.Descents inner.evaluate inner'.evaluate)
    (hnode : comparison.Paired node node') (excerpt : Excerpt) (value : Json) :
    comparison.Descents (fun context => excerpt.run parallel node inner context value)
      fun context => excerpt.run parallel node' inner' context value := by
  intro context context' hcontext
  dsimp only
  unfold Excerpt.run
  split
  · next list =>
    have hinside : comparison.Contexts (context.push .parent (.array list))
        (context'.push .parent (.array list)) := hcontext.push .parent (by decide) _ .none
    have hitem (item : Json × Nat) : comparison.Runs (· = ·)
        (Excerpt.runItem inner (context.push .parent (.array list)) item)
        (Excerpt.runItem inner' (context'.push .parent (.array list)) item) :=
      h _ _ ((hinside.push .index (by decide) item.2 .none).setValue _)
    dsimp only
    split
    · split
      · exact hitem _
      · exact .pure rfl
    · rw [hcontext.isSliced_eq hnode]
      refine Runs.map (.all haligned ?_) _
      rw [List.forall₂_map_left_iff, List.forall₂_map_right_iff]
      exact List.forall₂_same.mpr fun item _ => hitem item
  · exact .pure rfl

/-- Selections of the same members, that are resolved alike. -/
def Selections (comparison : Comparison) (fields fields' : List Operator.Selection) : Prop :=
  List.Forall₂ (fun field field' => field'.1 = field.1 ∧
    comparison.Descents field.2.evaluate field'.2.evaluate) fields fields'

theorem project {parallel : Bool} (haligned : parallel = true → comparison.aligned = true)
    {fields fields' : List Operator.Selection} (h : Selections comparison fields fields')
    (given : List (String × Json)) (hcontext : comparison.Contexts context context') :
    comparison.Runs (· = ·) (Operator.project parallel context given fields)
      (Operator.project parallel context' given fields') := by
  have hnames : fields'.map Prod.fst = fields.map Prod.fst := by
    rw [← List.forall₂_eq_eq_eq, List.forall₂_map_left_iff, List.forall₂_map_right_iff]
    exact (h.imp fun _ _ h => h.1).flip
  unfold Operator.project
  rw [hnames]
  refine Runs.map (.all haligned ?_) _
  rw [List.forall₂_map_left_iff, List.forall₂_map_right_iff]
  refine h.imp fun field field' hfield => ?_
  unfold Operator.runMember
  rw [hfield.1]
  exact hfield.2 _ _ (hcontext.setValue _)

end Descents

/-! ## Compilation -/

/-- What is asked of two settings: at places that stand for each other the same is found, and the
middlewares registered there are alike. -/
structure Compares (comparison : Comparison) (places : Node → Node → Prop)
    (setting setting' : Setting) : Prop where
  parallel : setting'.execution.parallel = setting.execution.parallel
  aligned : setting.execution.parallel = true → comparison.aligned = true
  root : places setting.graph.root setting'.graph.root
  paired : ∀ {node node'}, places node node' → comparison.Paired node node'
  shape : ∀ {node node'}, places node node' → node.shape.Resembles node'.shape
  demand : ∀ {node node'}, places node node' → ∀ query,
    Except.Agree (Demand.Alike places) (setting.demand node query) (setting'.demand node' query)
  requested : ∀ {node node'}, places node node' → ∀ head {properties properties'},
    (∀ name, Property.mayLack name properties' = Property.mayLack name properties) → ∀ field,
    Except.Agree (Demand.Requests places) (node.requested head properties field)
      (node'.requested head properties' field)
  member : ∀ {node node'}, places node node' → ∀ value,
    Except.Agree places (Matching.selectMember setting.reach node (some value) none).result
      (Matching.selectMember setting'.reach node' (some value) none).result
  chain : ∀ {node node'}, places node node' →
    comparison.Middlewares (Middleware.compose (setting.resolvers.atShape node.shape))
      (Middleware.compose (setting'.resolvers.atShape node'.shape))

namespace Compares

variable {places : Node → Node → Prop} {setting setting' : Setting}

/-- One level deeper the same is compiled. -/
def Deeper (comparison : Comparison) (places : Node → Node → Prop)
    (compile compile' : Bool → Node → List Json → Walk Middleware) : Prop :=
  ∀ optional node node' query, places node node' →
    Except.AgreeUnless comparison.Cut comparison.Middlewares (compile optional node query).result
      (compile' optional node' query).result

section Assembly

variable {compile compile' : Bool → Node → List Json → Walk Middleware}

theorem selections (h : comparison.Compares places setting setting')
    (hdeeper : Deeper comparison places compile compile') (optional : Bool)
    (hnode : places node node') (head : Json) {properties properties' : List (Property Structure)}
    (hlack : ∀ name, Property.mayLack name properties' = Property.mayLack name properties)
    (requested : List (String × Json)) :
    Except.AgreeUnless comparison.Cut (Descents.Selections comparison)
      (Operator.compileFields ⟨setting, optional, compile⟩ node head properties requested).result
      (Operator.compileFields ⟨setting', optional, compile'⟩ node' head properties'
        requested).result := by
  induction requested with
  | nil => exact .of_agree (.ok .nil)
  | cons field rest ih =>
    rw [Operator.result_compileFields_cons, Operator.result_compileFields_cons]
    refine (Except.AgreeUnless.of_agree (h.requested hnode head hlack field)).bind ?_
    rintro ⟨flag, child, query⟩ ⟨flag', child', query'⟩ ⟨hflag, hchild, hquery⟩
    obtain rfl : flag' = flag := hflag
    obtain rfl : query' = query := hquery
    refine (hdeeper flag' child child' query' hchild).bind fun inner inner' hinner => ?_
    exact ih.map fun others others' hothers => .cons ⟨rfl, hinner.evaluate⟩ hothers

theorem assemble (h : comparison.Compares places setting setting')
    (hdeeper : Deeper comparison places compile compile') (optional : Bool)
    (hnode : places node node') {demand demand' : Demand} (hdemand : demand.Alike places demand') :
    Except.AgreeUnless comparison.Cut comparison.Middlewares
      (demand.assemble ⟨setting, optional, compile⟩ node)
      (demand'.assemble ⟨setting', optional, compile'⟩ node') := by
  have enclosed (input : Option Json) {descent descent' : Descent}
      (hdescent : comparison.Descents descent descent') : comparison.Middlewares
        (Descent.enclose setting.resolvers node input descent)
        (Descent.enclose setting'.resolvers node' input descent') :=
    hdescent.enclose (h.paired hnode) (h.chain hnode) input
  have settled (input : Option Json) {go go' : Context → Json → Run (Option Json)}
      (hgo : ∀ value, comparison.Descents (fun context => go context value)
        fun context => go' context value) : comparison.Middlewares
        (Descent.enclose setting.resolvers node input (Descent.onSettled optional node go))
        (Descent.enclose setting'.resolvers node' input (Descent.onSettled optional node' go')) :=
    enclosed input (.onSettled optional (h.paired hnode) (h.shape hnode) hgo)
  cases hdemand with
  | whole => exact .of_agree (.ok (settled none fun value _ _ _ => .pure rfl))
  | @through input child child' rest hchild =>
    refine (hdeeper optional child child' rest hchild).map fun inner inner' hinner => ?_
    exact enclosed input
      (hinner.evaluate.through (h.paired hnode) (h.shape hnode).kind (h.paired hchild))
  | @property name flag child child' rest hchild =>
    refine (hdeeper flag child child' rest hchild).map fun inner inner' hinner => ?_
    refine settled none fun value context context' hcontext => ?_
    exact hinner.evaluate _ _ ((hcontext.push .parent (by decide) value .none).setValue _)
  | @members head _ _ requested hlack =>
    refine (h.selections hdeeper optional hnode head hlack requested).map ?_
    intro fields fields' hfields
    refine settled none fun value context context' hcontext => ?_
    dsimp only
    rw [h.parallel]
    unfold Demand.intoMembers
    split
    · next given =>
      have hinside := hcontext.push .parent (by decide) (.object given) .none
      exact (Descents.project h.aligned hfields given hinside).map _
    · exact .pure rfl
  | @items excerpt item item' rest hitem =>
    refine (hdeeper false item item' rest hitem).map fun inner inner' hinner => ?_
    dsimp only
    rw [h.parallel]
    exact settled _ (hinner.evaluate.excerpt h.aligned (h.paired hnode) excerpt)
  | @matched query =>
    refine .of_agree (.ok (settled none fun value context context' hcontext => ?_))
    dsimp only
    unfold Demand.intoMatched
    -- the member is compiled with what is left of the levels where its union stands
    have hwalk : comparison.Runs comparison.Middlewares
        (Walk.run do
          let member ← Matching.selectMember setting.reach node (some value) none
          compile optional member query)
        (Walk.run do
          let member ← Matching.selectMember setting'.reach node' (some value) none
          compile' optional member query) := by
      apply Runs.of_walk
      rw [Traced.result_bind, Traced.result_bind]
      exact (Except.AgreeUnless.of_agree (h.member hnode value)).bind fun member member' hmember =>
        hdeeper optional member member' query hmember
    exact hwalk.bind fun inner inner' hinner => hinner.evaluate _ _ (hcontext.setValue _)
  | @anew query =>
    refine (hdeeper false _ _ query h.root).map fun inner inner' hinner => ?_
    intro context context' hcontext next next' hnext
    refine Runs.bind (hinner.evaluate _ _ (hcontext.setValue none)) ?_
    rintro value _ rfl
    exact hnext _ _ (hcontext.setValue value)

end Assembly

/-- The recursion limit of the first is what cuts the comparison, or the second has the same. -/
def Levels (comparison : Comparison) (setting setting' : Setting) (more : Nat) : Prop :=
  comparison.Cut (.recursionLimitExceeded setting.execution.recursionLimit) ∨
    more = 0 ∧ setting'.execution.recursionLimit = setting.execution.recursionLimit

theorem compile (h : comparison.Compares places setting setting') {more : Nat}
    (hlevels : Levels comparison setting setting' more) (levels : Nat) :
    Deeper comparison places (setting.compile Operator.builtin levels)
      (setting'.compile Operator.builtin (levels + more)) := by
  -- the surplus is the same at every level, so that it is the first one that runs out
  induction levels with
  | zero =>
    intro optional node node' query hnode
    obtain hcut | ⟨rfl, hlimit⟩ := hlevels
    · exact .inl ⟨_, rfl, hcut⟩
    · rw [Setting.compile, Setting.compile, hlimit]
      exact .of_agree (.error _)
  | succ levels ih =>
    intro optional node node' query hnode
    rw [Nat.add_right_comm, Setting.compile_succ, Setting.compile_succ]
    refine (Except.AgreeUnless.of_agree (h.demand hnode query)).bind fun demand demand' hdemand => ?_
    exact h.assemble ih optional hnode hdemand

/-- Engines without operators of the host answer alike if their settings compare. -/
theorem run (h : comparison.Compares places setting setting')
    (hentry : setting'.entry = setting.entry) {more : Nat}
    (hlevels : Levels comparison setting setting' more)
    (hlimit : setting'.execution.recursionLimit = setting.execution.recursionLimit + more)
    (query : Json) (values : List Json) (hcontext : comparison.Contexts context context') :
    comparison.Runs (· = ·) (Engine.run ⟨setting, Operator.builtin⟩ query values context)
      (Engine.run ⟨setting', Operator.builtin⟩ query values context') := by
  have hplan (instructions : List Json) :
      Except.AgreeUnless comparison.Cut comparison.Middlewares
        (Engine.plan ⟨setting, Operator.builtin⟩ instructions).result
        (Engine.plan ⟨setting', Operator.builtin⟩ instructions).result := by
    rw [Engine.plan, Engine.plan, hlimit]
    exact h.compile hlevels _ false _ _ instructions h.root
  have hinstructions : Engine.instructions ⟨setting', Operator.builtin⟩ query values =
      Engine.instructions ⟨setting, Operator.builtin⟩ query values := by
    rw [Engine.instructions, Engine.instructions, hentry]
  unfold Engine.run
  rw [hinstructions]
  refine Runs.bind (.ofExcept (.eq_self _)) ?_
  rintro instructions _ rfl
  refine Runs.bind (.of_walk (hplan instructions)) fun middleware middleware' hmiddleware => ?_
  refine (hmiddleware.evaluate _ _ hcontext).bind ?_
  rintro value _ rfl
  exact .pure rfl

end Compares

end Comparison

end PathQuery
