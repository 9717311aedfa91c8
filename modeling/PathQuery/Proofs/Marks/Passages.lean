import PathQuery.Proofs.Marks.Hooks
import PathQuery.Proofs.Query.Refusals

/-!
# Marks along passages

References, aliases, nullables, called functions, named union members and the root pass a value on to
the node behind them. The nodes that are passed in this way up to an object, a list, a leaf or a union
that is left for the value form a passage. `Setting.answerAlong` answers a query without looking at
a mark: it fills an undefined value if a default is registered on a node of the passage, and leaves a
list unsliced if a hook of the passage set it sliced. Engines without operators of the host, all of
whose middlewares are hooks, run so on every query that does not start again at the root
(`Engine.run_eq_runAlong`).
-/

set_option autoImplicit false

namespace PathQuery

/-- The nodes that have passed the value on, the last one first, and whether a sliced list was set by
one of their hooks. -/
structure Passage where
  nodes : List Node
  sliced : Bool

namespace Passage

/-- Children of objects and lists and members that a value turns out to be are behind no node yet. -/
def start : Passage := ⟨[], false⟩

variable (hooks : Structure → List Hook) (passage : Passage)

/-- A default is registered on the structure of one of the nodes. -/
def fills : Bool := passage.nodes.any fun node => (hooks node.shape).any Hook.isFill

/-- The hooks of a node around its descent, at which the node has been passed. -/
def enclose (node : Node) (input : Option Json) (descent : Passage → Descent) : Descent := fun context =>
  Context.value? <$> Hook.chain (hooks node.shape)
    (fun sliced => Descent.core (descent ⟨node :: passage.nodes, sliced⟩)) passage.sliced
    (Descent.attach node input (context.enter node))

def onSettled (optional : Bool) (node : Node) (go : Context → Json → Run (Option Json)) : Descent :=
  fun context => do
    match ← Traced.ofExcept (node.settle (passage.fills hooks) optional context.value?) with
    | some value => go context value
    | none => return none

def excerpt (excerpt : Excerpt) (parallel : Bool) (item : Descent) (context : Context)
    (value : Json) : Run (Option Json) :=
  match value with
  | .array list =>
    let answer (entry : Json × Nat) : Run (Option Json) :=
      item (((context.push .parent value).push .index entry.2).setValue (some entry.1))
    match excerpt.single? with
    | some index =>
      match list[index]? with
      | some value => answer (value, index)
      | none => return some .null
    | none => do
      let values ← Run.all parallel ((excerpt.items passage.sliced list).map answer)
      return some (.array (values.map fun value => value.getD .null))
  | other => return some other

end Passage

namespace Setting

variable (setting : Setting) (hooks : Structure → List Hook)

/-- The innermost step at the last node of a passage, where `answer` answers at the nodes that come
next. -/
def descendAlong (levels : Nat) (answer : Bool → Passage → Node → List Json → Descent)
    (optional : Bool) (node : Node) (passage : Passage) : Demand → Descent
  | .whole => passage.onSettled hooks optional node fun _ value => return some value
  | .through _ child rest => fun context =>
    -- the layers are those of a run, and only their marks are not asked for
    if node.kind = .nullable ∧ context.value? = some .null then return some .null
    else answer optional passage child rest (Descent.passMarks node child context)
  | .property name flag child rest => passage.onSettled hooks optional node fun context value =>
    answer flag .start child rest ((context.push .parent value).setValue (value.member? name))
  | .members head properties requested => passage.onSettled hooks optional node fun context value =>
    match value with
    | .object given => do
      let values ← Run.all setting.execution.parallel (requested.map fun field => do
        let (flag, child, query) ← Traced.ofExcept (node.requested head properties field)
        answer flag .start child query
          ((context.push .parent value).setValue (given.lookup field.1)))
      return some (.object (Operator.gather (requested.map Prod.fst) values))
    | other => return some other
  | .items excerpt item rest =>
    passage.onSettled hooks optional node
      (passage.excerpt excerpt setting.execution.parallel (answer false .start item rest))
  | .matched query => passage.onSettled hooks optional node fun context value => do
    let member ← Walk.run do
      let member ← Matching.selectMember setting.reach node (some value) none
      let _ ← setting.compile Operator.builtin levels optional member query
      return member
    answer optional .start member query (context.setValue (some value))
  | .anew query => fun context =>
    answer false .start setting.graph.root query (context.setValue none)

/-- Answers a query at a node behind a passage. -/
def answerAlong : Nat → Bool → Passage → Node → List Json → Descent
  | 0, _, _, _, _ => fun _ =>
    Traced.fail (.recursionLimitExceeded setting.execution.recursionLimit)
  | levels + 1, optional, passage, node, query => fun context => do
    let demand ← Traced.ofExcept (setting.demand node query)
    let descent (passage : Passage) : Descent :=
      setting.descendAlong hooks levels (answerAlong levels) optional node passage demand
    match demand with
    | .anew _ => descent passage context
    | _ => passage.enclose hooks node demand.input? descent context

end Setting

/-- Compiles a whole query for its errors and visits, and answers it from the root. -/
def Engine.runAlong (engine : Engine) (hooks : Structure → List Hook) (query : Json)
    (values : List Json) (context : Context) : Run Json := do
  let setting := engine.setting
  let instructions ← Traced.ofExcept (engine.instructions query values)
  let _ ← Walk.run (engine.plan instructions)
  let value ← setting.answerAlong hooks setting.execution.recursionLimit false .start
    setting.graph.root instructions context
  return value.getD .null

/-! ## Descents in marked contexts -/

section

open HookedResolver (hooksAt atShape_hooked)

variable {resolvers : List HookedResolver} {hooks : Structure → List Hook} {passage : Passage}
  {node : Node} {context : Context}

/-- The marks of a context at a node say what is known of the passage. -/
def Passage.MarkedIn (passage : Passage) (hooks : Structure → List Hook) (node : Node)
    (context : Context) : Prop :=
  context.Marks node (passage.fills hooks) passage.sliced

theorem Passage.evaluate_enclose {input : Option Json} {descent : Descent}
    {along : Passage → Descent} (h : passage.MarkedIn (hooksAt resolvers) node context)
    (hdescent : ∀ sliced context,
      MarkedIn ⟨node :: passage.nodes, sliced⟩ (hooksAt resolvers) node context →
        descent context = along ⟨node :: passage.nodes, sliced⟩ context) :
    (Descent.enclose (.bind (resolvers.map HookedResolver.resolver)) node input descent).evaluate
        context =
      passage.enclose (hooksAt resolvers) node input along context := by
  rw [Middleware.evaluate_enclose, atShape_hooked, enclose]
  refine congrArg (Context.value? <$> ·) ?_
  refine Middleware.compose_hooks (context.node_attach_enter node input) (h.arrive input) ?_
  intro context sliced hmarks
  have hfills : (fills (hooksAt resolvers) ⟨node :: passage.nodes, sliced⟩) =
      (passage.fills (hooksAt resolvers) || (hooksAt resolvers node.shape).any Hook.isFill) := by
    rw [fills, List.any_cons, Bool.or_comm]
    rfl
  rw [← hfills] at hmarks
  rw [Descent.core, Descent.core, hdescent sliced context hmarks]

theorem Passage.onSettled_eq {optional : Bool} {go along : Context → Json → Run (Option Json)}
    (h : passage.MarkedIn hooks node context)
    (hgo : ∀ value, go context value = along context value) :
    Descent.onSettled optional node go context = passage.onSettled hooks optional node along context := by
  unfold Descent.onSettled onSettled
  rw [Descent.settle_eq, h.fills]
  refine congrArg (Traced.ofExcept _ >>= ·) (funext fun settled => ?_)
  cases settled with
  | none => rfl
  | some value => exact hgo value

theorem Passage.excerpt_eq {excerpt : Excerpt} {inner : Middleware} {item : Descent} {child : Node}
    (h : passage.MarkedIn hooks node context) (hchild : node.child? .items = .ok child)
    (hitem : ∀ context, start.MarkedIn hooks child context → inner.evaluate context = item context)
    (parallel : Bool) (value : Json) :
    excerpt.run parallel node inner context value =
      passage.excerpt excerpt parallel item context value := by
  cases value with
  | array list =>
    have hentry : Excerpt.runItem inner (context.push .parent (.array list)) = fun entry =>
        item (((context.push .parent (.array list)).push .index entry.2).setValue (some entry.1)) := by
      funext entry
      have hinside := (h.push .parent (by decide) (.array list)).push .index (by decide) entry.2
      exact hitem _ (hinside.setValue _ |>.child hchild)
    have hitems : excerpt.items (context.isSliced node) list = excerpt.items passage.sliced list :=
      congrArg (excerpt.items · list) h.sliced
    have hruns : (excerpt.items (context.isSliced node) list).map (Excerpt.runItem inner _) =
        (excerpt.items passage.sliced list).map _ := congr (congrArg List.map hentry) hitems
    unfold Excerpt.run Passage.excerpt
    cases excerpt.single? with
    | some index =>
      dsimp only
      cases list[index]? with
      | some value => exact congrFun hentry (value, index)
      | none => rfl
    | none => exact congrArg (fun runs => Run.all parallel runs >>= _) hruns
  | _ => rfl

end

/-! ## One level -/

theorem Walk.run_bind_run {α β γ : Type} (walk : Walk α) (next : α → Walk β) {f : β → Run γ}
    {g : α → Run γ} (h : ∀ a b, walk.result = .ok a → (next a).result = .ok b → f b = g a) :
    Walk.run (walk >>= next) >>= f =
      Walk.run (do let a ← walk; let _ ← next a; return a) >>= g := by
  obtain ⟨trail, result⟩ := walk
  cases result with
  | error e => rfl
  | ok a =>
    cases hnext : (next a).result with
    | error e => simp [Bind.bind, Traced.bind, Walk.run, Traced.mapTrail, hnext]
    | ok b => simp [Bind.bind, Traced.bind, Walk.run, Traced.mapTrail, hnext, h a b rfl hnext]

namespace Setting

open HookedResolver (hooksAt)

variable {setting : Setting} {resolvers : List HookedResolver} {start place : Place} {levels : Nat}
  {context : Context}

/-- What is compiled with this many levels left answers along passages. -/
def AlongAt (setting : Setting) (hooks : Structure → List Hook) (start : Place) (levels : Nat) :
    Prop :=
  ∀ {optional : Bool} {place : Place} {inner : Middleware}, setting.Asked start place →
    (setting.compile Operator.builtin levels optional place.node place.query).result = .ok inner →
      ∀ {passage : Passage} {context : Context}, passage.MarkedIn hooks place.node context →
        inner.evaluate context =
          setting.answerAlong hooks levels optional passage place.node place.query context

theorem AlongAt.assemble (h : setting.AlongAt (hooksAt resolvers) start levels)
    (hresolvers : setting.resolvers = .bind (resolvers.map HookedResolver.resolver))
    (hasked : setting.Asked start place) {demand : Demand}
    (hdemand : setting.demand place.node place.query = .ok demand)
    (hanew : ∀ query, demand ≠ .anew query) {optional : Bool} {middleware : Middleware}
    (hassemble : demand.assemble ⟨setting, optional, setting.compile Operator.builtin levels⟩
      place.node = .ok middleware) {passage : Passage}
    (hmarked : passage.MarkedIn (hooksAt resolvers) place.node context) :
    middleware.evaluate context =
      passage.enclose (hooksAt resolvers) place.node demand.input?
        (fun passage => setting.descendAlong (hooksAt resolvers) levels
          (setting.answerAlong (hooksAt resolvers) levels) optional place.node passage demand)
        context := by
  have hsuits := suits_demand hdemand
  have below {next : Place} {flag : Bool} {inner : Middleware} {passage : Passage}
      {context : Context} (hleads : demand.Leads setting place.node next)
      (hinner : (setting.compile Operator.builtin levels flag next.node next.query).result =
        .ok inner) (hmarked : passage.MarkedIn (hooksAt resolvers) next.node context) :
      inner.evaluate context =
        setting.answerAlong (hooksAt resolvers) levels flag passage next.node next.query context :=
    h (.leads hasked hdemand hleads) hinner hmarked
  have enclosed {input : Option Json} {descent : Descent} {along : Passage → Descent}
      (hdescent : ∀ passage context, passage.MarkedIn (hooksAt resolvers) place.node context →
        descent context = along passage context) :
      (Descent.enclose setting.resolvers place.node input descent).evaluate context =
        passage.enclose (hooksAt resolvers) place.node input along context := by
    rw [hresolvers]
    exact Passage.evaluate_enclose hmarked fun sliced context => hdescent _ context
  have settled {input : Option Json} {go : Context → Json → Run (Option Json)}
      {along : Passage → Context → Json → Run (Option Json)}
      (hgo : ∀ passage context value, passage.MarkedIn (hooksAt resolvers) place.node context →
        go context value = along passage context value) :
      (Descent.enclose setting.resolvers place.node input
        (Descent.onSettled optional place.node go)).evaluate context =
        passage.enclose (hooksAt resolvers) place.node input
          (fun passage => passage.onSettled (hooksAt resolvers) optional place.node (along passage))
          context :=
    enclosed fun passage context hmarked =>
      Passage.onSettled_eq hmarked fun value => hgo passage context value hmarked
  cases demand with
  | anew query => exact absurd rfl (hanew query)
  | whole =>
    cases hassemble
    exact settled fun _ _ _ _ => rfl
  | through input child rest =>
    obtain ⟨inner, hinner, rfl⟩ := Except.map_eq_ok_iff.mp hassemble
    obtain ⟨_, _, step, hchild⟩ := hsuits
    refine enclosed fun passage context hmarked => ?_
    unfold Descent.through descendAlong
    rw [below .through hinner (hmarked.passMarks hchild)]
  | property name flag child rest =>
    obtain ⟨inner, hinner, rfl⟩ := Except.map_eq_ok_iff.mp hassemble
    refine settled fun passage context value hmarked => ?_
    have hinside := (hmarked.push .parent (by decide) value).setValue (value.member? name)
    have hchild : Passage.start.MarkedIn (hooksAt resolvers) child _ := hinside.child hsuits.2
    exact below .property hinner hchild
  | members head properties requested =>
    obtain ⟨fields, hfields, rfl⟩ := Except.map_eq_ok_iff.mp hassemble
    refine settled fun passage context value hmarked => ?_
    cases value with
    | object given =>
      unfold Demand.intoMembers
      dsimp only
      have hmember {name : String} {child : Node}
          (hchild : place.node.child? (.field name) = .ok child) (value : Option Json) :
          Passage.start.MarkedIn (hooksAt resolvers) child
            ((context.push .parent (.object given)).setValue value) :=
        ((hmarked.push .parent (by decide) (.object given)).setValue value).child hchild
      rw [Operator.project_eq hfields fun field hfield flag child query hrequested inner hinner =>
        below (.member hfield hrequested) hinner (hmember (Node.child?_of_requested hrequested) _)]
      rw [bind_pure_comp, bind_pure_comp, Functor.map_map]
    | _ => rfl
  | items excerpt item rest =>
    obtain ⟨inner, hinner, rfl⟩ := Except.map_eq_ok_iff.mp hassemble
    refine settled fun passage context value hmarked => ?_
    exact Passage.excerpt_eq hmarked hsuits.2 (fun _ hitem => below .item hinner hitem) _ value
  | matched query =>
    cases hassemble
    refine settled fun passage context value hmarked => ?_
    -- the marks of the union stay behind: the member is a child without any
    refine Walk.run_bind_run _ _ fun member inner hmember hinner => ?_
    obtain ⟨index, hchild⟩ := Matching.memberOf_of_selectMember hmember
    have hmember' : Passage.start.MarkedIn (hooksAt resolvers) member _ :=
      (hmarked.setValue (some value)).child hchild
    exact below (.matched hmember) hinner hmember'

theorem alongAt (hresolvers : setting.resolvers = .bind (resolvers.map HookedResolver.resolver))
    (hstraight : setting.Straight start) (levels : Nat) :
    setting.AlongAt (hooksAt resolvers) start levels := by
  induction levels with
  | zero =>
    intro _ _ _ _ h
    cases h
  | succ levels ih =>
    intro optional place inner hasked hinner passage context hmarked
    rw [compile_succ] at hinner
    obtain ⟨demand, hdemand, hassemble⟩ := Except.bind_eq_ok_iff.mp hinner
    have hanew : ∀ query, demand ≠ .anew query := by
      rintro query rfl
      exact hstraight place hasked query hdemand
    rw [ih.assemble hresolvers hasked hdemand hanew hassemble hmarked, answerAlong, hdemand]
    cases demand with
    | anew query => exact absurd rfl (hanew query)
    | _ => rfl

end Setting

end PathQuery
