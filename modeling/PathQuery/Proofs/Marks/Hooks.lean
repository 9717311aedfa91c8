import PathQuery.Proofs.Query.Enclosure
import PathQuery.Proofs.Query.Inputs
import PathQuery.Proofs.Evaluation.Run

/-!
# Hooks

A hook is a middleware of which it is known what it adds to the context before the rest of its chain
runs: the mark of a default, or layers of a host and lists that are sliced already. The marks of the
active node count along a chain of hooks (`Middleware.compose_hooks`), and no node further down the
graph is marked on the way (`Context.Marks`).
-/

set_option autoImplicit false

namespace PathQuery

/-- What a middleware adds to its context. The active node is entered by the engine alone, and a
mark comes with the list that is sliced. -/
inductive Addition where
  | push (key : Key) (free : key ≠ .node ∧ key ≠ .sliced ∧ key ≠ .fillEmpty) (value : key.Value)
      (scope : Option Node)
  | sliced (list : Json)

namespace Addition

def apply (context : Context) : Addition → Except Error Context
  | push key _ value scope => .ok (context.push key value scope)
  | sliced list => context.setSliced list

def slices : Addition → Bool
  | push .. => false
  | sliced _ => true

end Addition

/-- Before the rest runs: what is added to the context, and what to make of the run of the rest. -/
abbrev Relay := Context → Run (List Addition × (Run Context → Run Context))

inductive Hook where
  /-- An undefined value of the node is replaced by an empty one. -/
  | fillEmpty
  | relay (before : Relay)

namespace Hook

def isFill : Hook → Bool
  | fillEmpty => true
  | relay _ => false

def middleware : Hook → Middleware
  | fillEmpty => Middleware.fillEmpty
  | relay before => fun context next => do
    let (additions, revise) ← before context
    let inner ← Traced.ofExcept (additions.foldlM Addition.apply context)
    revise (next inner)

/-- A hook around a rest that is told whether a sliced list was set before it. -/
def around (hook : Hook) (rest : Bool → Continuation) (sliced : Bool) : Continuation :=
  match hook with
  | fillEmpty => fun context => Middleware.fillEmpty context (rest sliced)
  | relay before => fun context => do
    let (additions, revise) ← before context
    let inner ← Traced.ofExcept (additions.foldlM Addition.apply context)
    revise (rest (sliced || additions.any Addition.slices) inner)

/-- The first hook is the outermost. -/
def chain (hooks : List Hook) (core : Bool → Continuation) : Bool → Continuation :=
  hooks.foldr around core

end Hook

structure HookedResolver where
  node : Node
  hooks : List Hook

namespace HookedResolver

def resolver (hooked : HookedResolver) : Resolver :=
  ⟨hooked.node, hooked.hooks.map Hook.middleware⟩

def hooksAt (resolvers : List HookedResolver) (shape : Structure) : List Hook :=
  resolvers.flatMap fun hooked =>
    if hooked.node.shape.identity? = shape.identity? then hooked.hooks else []

example (nodes : List Node) :
    nodes.map (fun node => resolver ⟨node, [.fillEmpty]⟩) = Resolver.emptyDefaults nodes := rfl

/-- An empty default is registered on the structure of the node. -/
def Fills (resolvers : List HookedResolver) (node : Node) : Prop :=
  ∃ hooked ∈ resolvers, hooked.node.shape.identity? = node.shape.identity? ∧
    Hook.fillEmpty ∈ hooked.hooks

theorem atShape_hooked (resolvers : List HookedResolver) (shape : Structure) :
    (Resolvers.bind (resolvers.map resolver)).atShape shape =
      (hooksAt resolvers shape).map Hook.middleware :=
  Resolvers.atShape_bind_map node hooks Hook.middleware resolvers shape

theorem any_isFill_hooksAt {resolvers : List HookedResolver} {node : Node} :
    (hooksAt resolvers node.shape).any Hook.isFill = true ↔ Fills resolvers node := by
  rw [List.any_eq_true]
  constructor
  · rintro ⟨hook, hmem, hfill⟩
    obtain ⟨hooked, hhooked, hmem⟩ := List.mem_flatMap.mp hmem
    split at hmem
    · next heq =>
      cases hook with
      | fillEmpty => exact ⟨hooked, hhooked, heq, hmem⟩
      | relay _ => cases hfill
    · cases hmem
  · rintro ⟨hooked, hhooked, heq, hmem⟩
    exact ⟨.fillEmpty, List.mem_flatMap.mpr ⟨hooked, hhooked, by rwa [if_pos heq]⟩, rfl⟩

end HookedResolver

/-! ## Marks -/

/-- The marks of a node, where no node with a longer trace has any. -/
structure Context.Marks (context : Context) (node : Node) (fills sliced : Bool) : Prop where
  fills : context.fillsEmpty node = fills
  sliced : context.isSliced node = sliced
  fresh : ∀ other : Node, node.trace.length < other.trace.length →
    context.fillsEmpty other = false ∧ context.isSliced other = false

namespace Context.Marks

variable {context : Context} {node : Node} {fills sliced : Bool}

theorem of_unmarked (h : context.Unmarked) (node : Node) : context.Marks node false false := by
  have hfills (other : Node) : context.fillsEmpty other = false := by
    rw [fillsEmpty, get?_eq_none fun layer hlayer => (h layer hlayer).2]
    rfl
  have hsliced (other : Node) : context.isSliced other = false := by
    rw [isSliced, get?_eq_none fun layer hlayer => (h layer hlayer).1]
    rfl
  exact ⟨hfills node, hsliced node, fun other _ => ⟨hfills other, hsliced other⟩⟩

theorem push (h : context.Marks node fills sliced) (key : Key)
    (hkey : key ≠ .sliced ∧ key ≠ .fillEmpty) (value : key.Value) (scope : Option Node := none) :
    (context.push key value scope).Marks node fills sliced where
  fills := by
    rw [fillsEmpty, context.get?_push_of_ne hkey.2]
    exact h.fills
  sliced := by
    rw [isSliced, context.get?_push_of_ne hkey.1]
    exact h.sliced
  fresh other hother := by
    rw [fillsEmpty, isSliced, context.get?_push_of_ne hkey.2, context.get?_push_of_ne hkey.1]
    exact h.fresh other hother

theorem setValue (h : context.Marks node fills sliced) (value : Option Json) :
    (context.setValue value).Marks node fills sliced :=
  h.push .value (by decide) value

theorem arrive (h : context.Marks node fills sliced) (input : Option Json) :
    (Descent.attach node input (context.enter node)).Marks node fills sliced := by
  have hentered : (context.enter node).Marks node fills sliced := h.push .node (by decide) node
  cases input with
  | none => exact hentered
  | some input => exact hentered.push .input (by decide) input (some node)

theorem beq_of_lt {other : Node} (h : node.trace.length < other.trace.length) :
    (node == other) = false := by
  rw [← Bool.not_eq_true, Node.beq_iff]
  rintro ⟨_, htrace⟩
  rw [htrace] at h
  exact Nat.lt_irrefl _ h

theorem push_fillEmpty (h : context.Marks node fills sliced) :
    (context.push .fillEmpty () (some node)).Marks node true sliced where
  fills := by
    rw [fillsEmpty_push, (Node.beq_iff node node).mpr ⟨rfl, rfl⟩]
    rfl
  sliced := by
    rw [isSliced, context.get?_push_of_ne (by decide : Key.fillEmpty ≠ .sliced)]
    exact h.sliced
  fresh other hother := by
    rw [fillsEmpty_push, beq_of_lt hother, isSliced,
      context.get?_push_of_ne (by decide : Key.fillEmpty ≠ .sliced)]
    exact h.fresh other hother

theorem push_sliced (h : context.Marks node fills sliced) :
    (context.push .sliced () (some node)).Marks node fills true where
  fills := by
    rw [fillsEmpty, context.get?_push_of_ne (by decide : Key.sliced ≠ .fillEmpty)]
    exact h.fills
  sliced := by
    rw [isSliced_push, (Node.beq_iff node node).mpr ⟨rfl, rfl⟩]
    rfl
  fresh other hother := by
    rw [isSliced_push, beq_of_lt hother, fillsEmpty,
      context.get?_push_of_ne (by decide : Key.sliced ≠ .fillEmpty)]
    exact h.fresh other hother

theorem child (h : context.Marks node fills sliced) {step : Step} {child : Node}
    (hchild : node.child? step = .ok child) : context.Marks child false false := by
  have hlength : child.trace.length = node.trace.length + 1 := by
    rw [Node.trace_of_child? hchild, List.length_cons]
  obtain ⟨hfills, hsliced⟩ := h.fresh child (by omega)
  exact ⟨hfills, hsliced, fun other hother => h.fresh other (by omega)⟩

theorem passMarks (h : context.Marks node fills sliced) {step : Step} {child : Node}
    (hchild : node.child? step = .ok child) :
    (Descent.passMarks node child context).Marks child fills sliced := by
  have hnext := h.child hchild
  unfold Descent.passMarks
  rw [h.fills]
  dsimp only
  cases fills with
  | true =>
    have hkept : (context.push .fillEmpty () (some child)).isSliced node = sliced := by
      rw [isSliced, context.get?_push_of_ne (by decide : Key.fillEmpty ≠ .sliced)]
      exact h.sliced
    rw [if_pos rfl, hkept]
    cases sliced with
    | true => exact hnext.push_fillEmpty.push_sliced
    | false => exact hnext.push_fillEmpty
  | false =>
    rw [if_neg Bool.false_ne_true, h.sliced]
    cases sliced with
    | true => exact hnext.push_sliced
    | false => exact hnext

end Context.Marks

/-! ## Chains of hooks -/

section

variable {context context' : Context} {node : Node} {fills sliced : Bool}

theorem Addition.marks_apply {addition : Addition} (hactive : context.get? .node = some node)
    (h : context.Marks node fills sliced) (happly : addition.apply context = .ok context') :
    context'.get? .node = some node ∧ context'.Marks node fills (sliced || addition.slices) := by
  cases addition with
  | push key free value scope =>
    cases happly
    refine ⟨(context.get?_push_of_ne free.1 value scope none).trans hactive, ?_⟩
    rw [slices, Bool.or_false]
    exact h.push key free.2 value scope
  | sliced list =>
    unfold apply Context.setSliced at happly
    rw [Context.activeNode_of_get? hactive] at happly
    cases happly
    refine ⟨?_, ?_⟩
    · rw [Context.setValue, Context.get?_push_of_ne _ (by decide : Key.value ≠ .node),
        Context.get?_push_of_ne _ (by decide : Key.sliced ≠ .node)]
      exact hactive
    · rw [slices, Bool.or_true]
      exact h.push_sliced.setValue _

theorem Addition.marks_foldlM {additions : List Addition} (hactive : context.get? .node = some node)
    (h : context.Marks node fills sliced)
    (happly : additions.foldlM Addition.apply context = .ok context') :
    context'.get? .node = some node ∧
      context'.Marks node fills (sliced || additions.any Addition.slices) := by
  induction additions generalizing context sliced with
  | nil =>
    cases happly
    rw [List.any_nil, Bool.or_false]
    exact ⟨hactive, h⟩
  | cons first rest ih =>
    rw [List.foldlM_cons] at happly
    obtain ⟨between, hfirst, hrest⟩ := Except.bind_eq_ok_iff.mp happly
    obtain ⟨hactive, hmarks⟩ := marks_apply hactive h hfirst
    rw [List.any_cons, ← Bool.or_assoc]
    exact ih hactive hmarks hrest

/-- A chain of hooks marks its node where one of them fills it or slices its list. -/
theorem Middleware.compose_hooks {hooks : List Hook} {core : Continuation}
    {counted : Bool → Continuation} (hactive : context.get? .node = some node)
    (h : context.Marks node fills sliced)
    (hcore : ∀ context sliced, context.Marks node (fills || hooks.any Hook.isFill) sliced →
      core context = counted sliced context) :
    compose (hooks.map Hook.middleware) context core = Hook.chain hooks counted sliced context := by
  -- the marks so far and those of the hooks that are left make up the marks at the core
  induction hooks generalizing context fills sliced with
  | nil => exact hcore context sliced (by rwa [List.any_nil, Bool.or_false])
  | cons hook rest ih =>
    cases hook with
    | fillEmpty =>
      have hbegun := fillEmpty_of_active hactive (compose (rest.map Hook.middleware) · core)
      have hcounted := fillEmpty_of_active hactive (Hook.chain rest counted sliced)
      refine (hbegun.trans ?_).trans hcounted.symm
      have hactive' : (context.push .fillEmpty () (some node)).get? .node = some node :=
        (context.get?_push_of_ne (by decide : Key.fillEmpty ≠ .node) () _ none).trans hactive
      refine ih hactive' h.push_fillEmpty fun context sliced hmarks => hcore context sliced ?_
      rw [List.any_cons, Hook.isFill, Bool.true_or, Bool.or_true]
      rwa [Bool.true_or] at hmarks
    | relay before =>
      refine Traced.bind_congr_of_ok fun (additions, revise) _ => ?_
      refine Traced.bind_congr_of_ok fun inner hinner => congrArg revise ?_
      obtain ⟨hactive, hmarks⟩ := Addition.marks_foldlM hactive h hinner
      refine ih hactive hmarks fun context sliced hmarks => hcore context sliced ?_
      rwa [List.any_cons, Hook.isFill, Bool.false_or]

end

end PathQuery
