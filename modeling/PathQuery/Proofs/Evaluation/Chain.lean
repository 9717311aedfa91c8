import Mathlib.Data.List.Forall2
import PathQuery.Proofs.Evaluation.Order
import PathQuery.Proofs.Query.Enclosure

/-!
# Chains of value level middlewares

A middleware follows a rule when its behaviour depends on the current value and changes nothing
else. Along a chain of such middlewares the marks of a context stay in order (`Marked`): none says
that a list is sliced, and a node is filled only where a rule of its structure says so. The core of
the chain is reached with the mark of its own node if there is such a rule (`Inside`), so that the
whole chain does to the current value what its rules do (`chain_governs`).
-/

set_option autoImplicit false

namespace PathQuery

/-- Both contexts have the same entries, except perhaps for the current value. -/
def Context.SameBeside (context other : Context) : Prop :=
  ∀ key scope, key ≠ .value → other.get? key scope = context.get? key scope

/-- The waits of a run of a chain, and the value that it leaves. -/
def Run.timedValue (parallel : Bool) (run : Run Context) : Timed (Option Json) :=
  Context.value? <$> run.timed parallel

/-- A middleware that does to the current value what a rule says, and goes on at most once. -/
def Rule.Governs (parallel : Bool) (rule : Rule) (middleware : Middleware) : Prop :=
  match rule with
  | fillEmpty => middleware = Middleware.fillEmpty
  | react reaction => ∀ context next, ∃ context' : Context, context.SameBeside context' ∧
      (∀ value revise, (reaction context.value?).result = .ok (.proceed value revise) →
        context'.value? = value) ∧
      (middleware context next).timedValue parallel = do
        (← reaction context.value?).complete fun _ => (next context').timedValue parallel

/-- A resolver whose middlewares follow the rules of a regulation, on the same node. -/
def Regulation.Governs (parallel : Bool) (regulation : Regulation) (resolver : Resolver) : Prop :=
  regulation.node = resolver.node ∧
    List.Forall₂ (Rule.Governs parallel) regulation.rules resolver.middlewares

theorem Regulation.governs_atShape {parallel : Bool} {regulations : List Regulation}
    {resolvers : List Resolver}
    (h : List.Forall₂ (Regulation.Governs parallel) regulations resolvers) (shape : Structure) :
    List.Forall₂ (Rule.Governs parallel) (atShape regulations shape)
      (Resolvers.atShape ⟨resolvers.map fun resolver =>
        (resolver.node.shape.identity?, resolver.middlewares)⟩ shape) := by
  induction h with
  | nil => exact .nil
  | @cons regulation resolver _ _ hfirst _ ih =>
    obtain ⟨hnode, hrules⟩ := hfirst
    simp only [atShape, Resolvers.atShape, List.flatMap_cons, List.map_cons, hnode] at ih ⊢
    split
    · exact List.rel_append hrules ih
    · exact ih

/-! ## Marks -/

variable {graph : Graph} {rules : Structure → List Rule} {context : Context} {node : Node}

/-- The marks of a context are in order for the nodes of a graph. -/
structure Context.Marked (graph : Graph) (rules : Structure → List Rule) (context : Context) :
    Prop where
  unsliced : ∀ node, context.isSliced node = false
  filled : ∀ node, Node.Below graph.root node → context.fillsEmpty node = true →
    (rules node.shape).any Rule.isFill = true

namespace Context.Marked

theorem of_get?_eq {other : Context} (h : context.Marked graph rules)
    (hsliced : ∀ scope, other.get? .sliced scope = context.get? .sliced scope)
    (hfill : ∀ scope, other.get? .fillEmpty scope = context.get? .fillEmpty scope) :
    other.Marked graph rules where
  unsliced node := by
    rw [isSliced, hsliced]
    exact h.unsliced node
  filled node hnode hfills := by
    rw [fillsEmpty, hfill] at hfills
    exact h.filled node hnode hfills

theorem of_sameBeside {other : Context} (h : context.Marked graph rules)
    (hsame : context.SameBeside other) : other.Marked graph rules :=
  h.of_get?_eq (fun scope => hsame .sliced scope (by decide))
    (fun scope => hsame .fillEmpty scope (by decide))

theorem push (h : context.Marked graph rules) {key : Key} (hsliced : key ≠ .sliced)
    (hfill : key ≠ .fillEmpty) (value : key.Value) (scope : Option Node) :
    (context.push key value scope).Marked graph rules :=
  h.of_get?_eq (fun _ => context.get?_push_of_ne hsliced value _ _)
    (fun _ => context.get?_push_of_ne hfill value _ _)

theorem setValue (h : context.Marked graph rules) (value : Option Json) :
    (context.setValue value).Marked graph rules :=
  h.push (by decide : Key.value ≠ .sliced) (by decide) value none

theorem attach_enter (h : context.Marked graph rules) (node : Node) (input : Option Json) :
    (Descent.attach node input (context.enter node)).Marked graph rules := by
  have henter := h.push (by decide : Key.node ≠ .sliced) (by decide) node none
  cases input with
  | none => exact henter
  | some input => exact henter.push (by decide : Key.input ≠ .sliced) (by decide) input _

theorem push_fillEmpty (h : context.Marked graph rules) (hnode : Node.Below graph.root node)
    (hfill : (rules node.shape).any Rule.isFill = true) :
    (context.push .fillEmpty () (some node)).Marked graph rules where
  unsliced other := by
    rw [isSliced, context.get?_push_of_ne (by decide : Key.fillEmpty ≠ .sliced)]
    exact h.unsliced other
  filled other hother hfills := by
    rw [fillsEmpty_push, Bool.or_eq_true] at hfills
    rcases hfills with heq | hfills
    · rw [← (hnode.beq_iff hother).mp heq]
      exact hfill
    · exact h.filled other hother hfills

end Context.Marked

/-- A context in the chain of a node, once the mark of the node is passed or before. -/
structure Context.Inside (graph : Graph) (rules : Structure → List Rule) (node : Node)
    (passed : Bool) (context : Context) : Prop where
  marked : context.Marked graph rules
  active : context.get? .node = some node
  mark : passed = true → context.fillsEmpty node = true

theorem Context.Marked.inside (h : context.Marked graph rules) (node : Node)
    (input : Option Json) :
    (Descent.attach node input (context.enter node)).Inside graph rules node false where
  marked := h.attach_enter node input
  active := by
    rw [Descent.get?_attach_of_ne _ _ _ (by decide)]
    exact context.get?_push_self .node node
  mark hpassed := by cases hpassed

namespace Context.Inside

theorem of_sameBeside {other : Context} {passed : Bool}
    (h : context.Inside graph rules node passed) (hsame : context.SameBeside other) :
    other.Inside graph rules node passed where
  marked := h.marked.of_sameBeside hsame
  active := (hsame .node none (by decide)).trans h.active
  mark hpassed := by
    rw [fillsEmpty, hsame .fillEmpty _ (by decide)]
    exact h.mark hpassed

theorem push_fillEmpty {passed : Bool} (h : context.Inside graph rules node passed)
    (hnode : Node.Below graph.root node) (hfill : (rules node.shape).any Rule.isFill = true) :
    (context.push .fillEmpty () (some node)).Inside graph rules node true where
  marked := h.marked.push_fillEmpty hnode hfill
  active := (context.get?_push_of_ne (by decide : Key.fillEmpty ≠ .node) () _ _).trans h.active
  mark _ := by
    rw [fillsEmpty_push, (hnode.beq_iff hnode).mpr rfl]
    rfl

/-- Behind all rules of its node a context is marked for the node exactly if one of them says so. -/
theorem fillsEmpty_eq (h : context.Inside graph rules node ((rules node.shape).any Rule.isFill))
    (hnode : Node.Below graph.root node) :
    context.fillsEmpty node = (rules node.shape).any Rule.isFill := by
  cases hfill : (rules node.shape).any Rule.isFill with
  | true => exact h.mark hfill
  | false =>
    cases hmark : context.fillsEmpty node with
    | false => rfl
    | true => exact (h.marked.filled node hnode hmark).symm.trans hfill

end Context.Inside

/-! ## Chains -/

/-- A chain does to the current value what its rules do, around whatever its core does. -/
theorem Rule.chain_governs {parallel : Bool} {governing : List Rule} {middlewares : List Middleware}
    (h : List.Forall₂ (Rule.Governs parallel) governing middlewares)
    (hnode : Node.Below graph.root node) {next : Continuation}
    {core : Option Json → Timed (Option Json)} {passed : Bool}
    (hfill : governing.any Rule.isFill = true → (rules node.shape).any Rule.isFill = true)
    (hcore : ∀ context, context.Inside graph rules node (passed || governing.any Rule.isFill) →
      (next context).timedValue parallel = core context.value?)
    (hinside : context.Inside graph rules node passed) :
    (Middleware.compose middlewares context next).timedValue parallel =
      chain governing core context.value? := by
  induction h generalizing context passed with
  | nil =>
    apply hcore
    simpa using hinside
  | @cons rule middleware governing middlewares hrule _ ih =>
    cases rule with
    | fillEmpty =>
      cases hrule
      have hfill' : (rules node.shape).any Rule.isFill = true := hfill rfl
      have hnext := hinside.push_fillEmpty hnode hfill'
      have hvalue : (context.push .fillEmpty () (some node)).value? = context.value? :=
        context.value?_push_of_ne (by decide : Key.fillEmpty ≠ .value) () _
      rw [Middleware.compose_cons, Middleware.andThen, Middleware.fillEmpty_of_active hinside.active,
        chain_cons, around, ← hvalue]
      refine ih (fun _ => hfill') (fun context hcontext => hcore context ?_) hnext
      simpa [isFill] using hcontext
    | react reaction =>
      obtain ⟨context', hsame, hvalue, hrun⟩ :=
        hrule context (Middleware.compose middlewares · next)
      have hrest := ih (fun hany => hfill (by simp [hany]))
        (fun context hcontext => hcore context (by simpa [isFill] using hcontext))
        (hinside.of_sameBeside hsame)
      rw [Middleware.compose_cons, Middleware.andThen, hrun, hrest, chain_cons, around]
      refine Traced.bind_congr_of_ok fun reacted hreacted => ?_
      cases reacted with
      | stop value => rfl
      | proceed value revise =>
        rw [Reaction.complete, Reaction.complete, hvalue value revise hreacted]

theorem Descent.timed_enclose {parallel : Bool} {resolvers : Resolvers}
    (h : List.Forall₂ (Rule.Governs parallel) (rules node.shape) (resolvers.atShape node.shape))
    (hnode : Node.Below graph.root node) (input : Option Json) {descent : Descent}
    {core : Option Json → Timed (Option Json)}
    (hcore : ∀ context, context.Marked graph rules →
      context.fillsEmpty node = (rules node.shape).any Rule.isFill →
      (descent context).timed parallel = core context.value?)
    (hmarked : context.Marked graph rules) :
    ((enclose resolvers node input descent).evaluate context).timed parallel =
      Rule.chain (rules node.shape) core context.value? := by
  have hvalue : (attach node input (context.enter node)).value? = context.value? := by
    rw [value?_attach, Context.value?_enter]
  rw [Middleware.evaluate_enclose, Run.timed_map, ← hvalue]
  refine Rule.chain_governs h hnode id (fun context hinside => ?_) (hmarked.inside node input)
  rw [Bool.false_or] at hinside
  rw [Run.timedValue, timed_core]
  exact hcore context hinside.marked (hinside.fillsEmpty_eq hnode)

end PathQuery
