import PathQuery.Proofs.Query.Compilation
import PathQuery.Proofs.Siblings

/-!
# What an enclosed descent leaves

The value that a middleware leaves is all that the node above it sees. For an enclosed descent it is
what the resolvers of the node make of the core of their chain, and the core leaves what the descent
gives. Descents are read by their results here, and the entries that are pushed on the way to a
node by what they leave of a context. Errors of some sort come out only where the resolvers or the
descent fail with one (`Descent.keeps_enclose`).
-/

set_option autoImplicit false

namespace PathQuery

/-! ## Contexts -/

namespace Context

variable (context : Context)

theorem value?_push_of_ne {key : Key} (h : key ≠ .value) (value : key.Value)
    (scope : Option Node) : (context.push key value scope).value? = context.value? := by
  rw [value?, value?, get?_push_of_ne context h]

@[simp] theorem value?_enter (node : Node) : (context.enter node).value? = context.value? :=
  context.value?_push_of_ne (by decide : Key.node ≠ .value) node none

theorem activeNode_of_get? {context : Context} {node : Node}
    (h : context.get? .node = some node) : context.activeNode = .ok node := by
  rw [activeNode, require, h]

/-- What is stored for a node is found for the nodes that equal it. -/
theorem isSome_get?_push (key : Key) (value : key.Value) (node other : Node) :
    ((context.push key value (some node)).get? key (some other)).isSome =
      (node == other || (context.get? key (some other)).isSome) := by
  rw [get?_push]
  by_cases h : (node == other) = true
  · simp [Layer.value?, h]
  · simp [Layer.value?, h]

theorem fillsEmpty_push (node other : Node) :
    (context.push .fillEmpty () (some node)).fillsEmpty other =
      (node == other || context.fillsEmpty other) :=
  context.isSome_get?_push .fillEmpty () node other

theorem isSliced_push (node other : Node) :
    (context.push .sliced () (some node)).isSliced other = (node == other || context.isSliced other) :=
  context.isSome_get?_push .sliced () node other

end Context

namespace Descent

variable (context : Context) (node : Node)

@[simp] theorem value?_attach (input : Option Json) :
    (attach node input context).value? = context.value? := by
  cases input with
  | none => rfl
  | some input => exact context.value?_push_of_ne (by decide : Key.input ≠ .value) input _

theorem get?_attach_of_ne (input : Option Json) {key : Key} (h : key ≠ .input)
    (scope : Option Node) : (attach node input context).get? key scope = context.get? key scope := by
  cases input with
  | none => rfl
  | some input => exact context.get?_push_of_ne h.symm input _ _

/-- The core of a chain: what a descent gives becomes the current value. -/
def core (descent : Descent) : Continuation := fun context => do
  return context.setValue (← descent context)

theorem result_core (descent : Descent) :
    (core descent context).result = (descent context).result.map context.setValue := by
  rw [core, bind_pure_comp, Traced.result_map]

/-- The core of a chain leaves what the descent gives. -/
theorem timed_core (parallel : Bool) (descent : Descent) :
    Context.value? <$> (core descent context).timed parallel =
      (descent context).timed parallel := by
  rw [core, bind_pure_comp, Run.timed_map, Functor.map_map]
  simp only [Context.value?_setValue]
  exact id_map _

theorem value?_core (descent : Descent) :
    (core descent context).result.map Context.value? = (descent context).result := by
  rw [result_core]
  cases (descent context).result with
  | error e => rfl
  | ok value => simp only [Except.map, Context.value?_setValue]

theorem result_onSettled (optional : Bool) (go : Context → Json → Run (Option Json)) :
    (onSettled optional node go context).result =
      (settle optional node context).bind fun
        | some value => (go context value).result
        | none => .ok none := by
  simp only [onSettled, Traced.result_bind, Traced.result_ofExcept]
  cases settle optional node context with
  | error e => rfl
  | ok value => cases value <;> rfl

end Descent

/-! ## Middlewares -/

namespace Middleware

theorem result_evaluate (middleware : Middleware) (context : Context) :
    (middleware.evaluate context).result = (middleware context pure).result.map Context.value? := by
  rw [evaluate, bind_pure_comp, Traced.result_map]
  rfl

theorem fillEmpty_of_active {context : Context} {node : Node} (h : context.get? .node = some node)
    (next : Continuation) :
    fillEmpty context next = next (context.push .fillEmpty () (some node)) := by
  rw [fillEmpty, Context.activeNode_of_get? h]
  exact Traced.pure_bind node _

theorem evaluate_enclose (resolvers : Resolvers) (node : Node) (input : Option Json)
    (descent : Descent) (context : Context) :
    (Descent.enclose resolvers node input descent).evaluate context =
      Context.value? <$> compose (resolvers.atShape node.shape)
        (Descent.attach node input (context.enter node)) (Descent.core descent) := by
  unfold evaluate complete Descent.enclose
  rw [bind_pure, bind_pure_comp]
  rfl

theorem result_evaluate_enclose (resolvers : Resolvers) (node : Node) (input : Option Json)
    (descent : Descent) (context : Context) :
    ((Descent.enclose resolvers node input descent).evaluate context).result =
      (compose (resolvers.atShape node.shape) (Descent.attach node input (context.enter node))
        (Descent.core descent)).result.map Context.value? := by
  rw [result_evaluate, Descent.enclose, bind_pure]
  rfl

theorem evaluate_answerAnew (inner : Middleware) (context : Context) :
    (Demand.answerAnew inner).evaluate context = inner.evaluate (context.setValue none) := by
  rw [evaluate, bind_pure_comp, complete, Demand.answerAnew, bind_pure_comp, Functor.map_map]
  simp only [Context.value?_setValue]
  exact id_map _

theorem result_evaluate_answerAnew (inner : Middleware) (context : Context) :
    ((Demand.answerAnew inner).evaluate context).result =
      (inner.evaluate (context.setValue none)).result := by
  rw [result_evaluate, Demand.answerAnew, bind_pure_comp, Traced.result_map]
  cases (inner.evaluate (context.setValue none)).result with
  | error e => rfl
  | ok value => simp only [Except.map, Context.value?_setValue]

end Middleware

/-! ## Resolvers that run the rest once -/

/-- Runs the rest of the chain once and gives back what it gave; neither the context that the rest gets
nor how often siblings went on before depends on it. One after another, only the context counts. -/
def Middleware.Once (parallel : Bool) (middleware : Middleware) : Prop :=
  ∃ before : Context → Timed Context, ∀ context next,
    (middleware context next).timed parallel =
      before context >>= fun inner => (next inner).timed parallel

namespace Middleware

variable {parallel : Bool}

/-- Where siblings do not go on meanwhile, it does not matter how often a resolver waits. -/
theorem once_false_iff {middleware : Middleware} :
    middleware.Once false ↔ ∃ before : Context → Except Error Context, ∀ context next,
      (middleware context next).result = (before context).bind fun inner => (next inner).result := by
  constructor
  · rintro ⟨before, hbefore⟩
    exact ⟨fun context => (before context).result, fun context next =>
      Run.result_of_timed (hbefore context next)⟩
  · rintro ⟨before, hbefore⟩
    refine ⟨fun context => Traced.ofExcept (before context), fun context next => ?_⟩
    dsimp only
    rw [Run.timed_false, hbefore]
    cases before context with
    | error error => rfl
    | ok inner => rw [Traced.ofExcept_ok_bind, Run.timed_false, Except.ok_bind]

theorem once_compose {middlewares : List Middleware}
    (h : ∀ middleware ∈ middlewares, Once parallel middleware) :
    (compose middlewares).Once parallel := by
  induction middlewares with
  | nil => exact ⟨pure, fun _ _ => (pure_bind _ _).symm⟩
  | cons first rest ih =>
    obtain ⟨hfirst, hrest⟩ := List.forall_mem_cons.mp h
    obtain ⟨before, hbefore⟩ := hfirst
    obtain ⟨after, hafter⟩ := ih hrest
    refine ⟨fun context => before context >>= after, fun context next => ?_⟩
    rw [compose_cons, andThen, hbefore, bind_assoc]
    exact congrArg (before context >>= ·) (funext fun inner => hafter inner next)

end Middleware

/-- What an enclosed descent leaves if the resolvers run it once: what the descent leaves in a context
that does not depend on the descent. -/
theorem Descent.exists_timed_enclose {parallel : Bool} {resolvers : Resolvers} {node : Node}
    (h : ∀ middleware ∈ resolvers.atShape node.shape, Middleware.Once parallel middleware)
    (input : Option Json) (context : Context) :
    ∃ left : Timed Context, ∀ descent,
      ((enclose resolvers node input descent).evaluate context).timed parallel =
        left >>= fun inner => (descent inner).timed parallel := by
  obtain ⟨before, hbefore⟩ := Middleware.once_compose h
  refine ⟨before (attach node input (context.enter node)), fun descent => ?_⟩
  rw [Middleware.evaluate_enclose, Run.timed_map, hbefore, map_bind]
  simp only [timed_core]

/-! ## Selections -/

namespace Operator

/-- The selected members, as each of them is answered. -/
theorem project_eq {position : Position} {node : Node} {head : Json}
    {properties : List (Property Structure)} {requested : List (String × Json)}
    {fields : List Selection} {context : Context} {given : List (String × Json)}
    {answer : String × Json → Bool → Node → List Json → Run (Option Json)}
    (hfields : (compileFields position node head properties requested).result = .ok fields)
    (h : ∀ field ∈ requested, ∀ flag child query,
      node.requested head properties field = .ok (flag, child, query) →
        ∀ inner, (position.compile flag child query).result = .ok inner →
          inner.evaluate (context.setValue (given.lookup field.1)) = answer field flag child query)
    (parallel : Bool) :
    project parallel context given fields = gather (requested.map Prod.fst) <$>
      Run.all parallel (requested.map fun field => do
        let (flag, child, query) ← Traced.ofExcept (node.requested head properties field)
        answer field flag child query) := by
  have hselects := forall₂_of_compileFields hfields
  rw [project, bind_pure_comp, Selects.map_name hselects]
  refine congrArg (fun runs => gather (requested.map Prod.fst) <$> Run.all parallel runs) ?_
  clear hfields
  induction hselects with
  | nil => rfl
  | cons hfirst _ ih =>
    obtain ⟨hfield, hrest⟩ := List.forall_mem_cons.mp h
    obtain ⟨flag, child, query, hrequested, hinner⟩ := hfirst.compiled
    rw [List.map_cons, List.map_cons, ih hrest, hrequested, runMember, hfirst.name,
      hfield flag child query hrequested _ hinner]
    rfl

theorem result_project_eq_ok_iff {parallel : Bool} {context : Context}
    {given projected : List (String × Json)} {fields : List Selection} :
    (project parallel context given fields).result = .ok projected ↔
      ∃ values, (Run.all parallel (fields.map (runMember context given))).result = .ok values ∧
        gather (fields.map Prod.fst) values = projected := by
  rw [project, bind_pure_comp, Traced.result_map, Except.map_eq_ok_iff]

end Operator

/-! ## Errors -/

/-- Fails with an error that is not fine only if the rest of the chain does. -/
def Middleware.Keeps (fine : Error → Prop) (middleware : Middleware) : Prop :=
  ∀ context next, (∀ context', (next context').result.Meets (fun _ => True) fine) →
    (middleware context next).result.Meets (fun _ => True) fine

/-- Fails with an error that is not fine, though the rest of the chain does not. -/
def Middleware.Raises (fine : Error → Prop) (middleware : Middleware) : Prop :=
  ∃ context next error, (∀ context', (next context').result.Meets (fun _ => True) fine) ∧
    (middleware context next).result = .error error ∧ ¬ fine error

section

variable {fine : Error → Prop}

theorem Middleware.keeps_or_raises (fine : Error → Prop) (middleware : Middleware) :
    middleware.Keeps fine ∨ middleware.Raises fine := by
  by_cases h : middleware.Raises fine
  · exact .inr h
  · left
    intro context next hnext
    cases hresult : (middleware context next).result with
    | ok value => exact trivial
    | error error =>
      by_cases hfine : fine error
      · exact hfine
      · exact absurd ⟨context, next, error, hnext, hresult, hfine⟩ h

theorem Middleware.keeps_compose {middlewares : List Middleware}
    (h : ∀ middleware ∈ middlewares, middleware.Keeps fine) : (compose middlewares).Keeps fine := by
  induction middlewares with
  | nil => exact fun context next hnext => hnext context
  | cons first rest ih =>
    intro context next hnext
    have hrest := ih fun middleware hm => h middleware (List.mem_cons_of_mem _ hm)
    exact h first List.mem_cons_self context _ fun context' => hrest context' next hnext

theorem Middleware.Keeps.meets_evaluate {middleware : Middleware} (h : middleware.Keeps fine)
    (context : Context) : (middleware.evaluate context).result.Meets (fun _ => True) fine := by
  rw [result_evaluate]
  exact (h context pure fun _ => trivial).map fun _ _ _ => trivial

theorem Descent.keeps_enclose {resolvers : Resolvers} {node : Node}
    (h : ∀ middleware ∈ resolvers.atShape node.shape, Middleware.Keeps fine middleware)
    (input : Option Json) {descent : Descent}
    (hdescent : ∀ context, (descent context).result.Meets (fun _ => True) fine) :
    (enclose resolvers node input descent).Keeps fine := by
  intro context next hnext
  unfold enclose
  rw [Traced.result_bind]
  refine (Middleware.keeps_compose h _ _ fun context' => ?_).bind fun context' _ _ => hnext context'
  rw [bind_pure_comp, Traced.result_map]
  exact (hdescent context').map fun _ _ _ => trivial

end

end PathQuery
