import PathQuery.Proofs.Located.Run
import PathQuery.Query.Excerpt

/-!
# Descents on an arena

Resolving a position enters its number into the context, runs the middlewares of its structure, and
hands what they leave to the descent. Descents that read the same from like contexts are alike, and so
are the middlewares that enclose them (`Descent.Like.enclose`).
-/

set_option autoImplicit false

namespace PathQuery.Located

open Visit (Stands)

/-- A position with the structure that was read there; it never changes. -/
structure Handle where
  id : Nat
  shape : Structure

def Handle.key (handle : Handle) : String := handle.shape.key

structure Handle.Stands (nodes : List Node) (handle : Handle) (node : Node) : Prop where
  id : Visit.Stands nodes handle.id node
  shape : handle.shape = node.shape

abbrev Descent := Context → Run (Option Json)

namespace Descent

def attach (id : Nat) (input : Option Json) (context : Context) : Context :=
  match input with
  | some input => context.push .input input (some id)
  | none => context

/-- The middlewares of a position around the descent. -/
def enclose (resolvers : Resolvers) (handle : Handle) (input : Option Json) (descent : Descent) :
    Middleware := fun context next => do
  let chain := Middleware.compose (resolvers.atShape handle.shape)
  let context ← chain (attach handle.id input (context.enter handle.id)) fun context => do
    return context.setValue (← descent context)
  next context

def checkShape (shape : Structure) (value : Json) : Except Error Unit :=
  match PathQuery.Descent.expected? shape value with
  | some expected => .error (.invalidResolvedValue shape.key expected value.text)
  | none => .ok ()

def settle (optional : Bool) (handle : Handle) (context : Context) : Except Error (Option Json) :=
  let checked (value : Json) := (checkShape handle.shape value).map fun _ => some value
  match context.value? with
  | some value => checked value
  | none =>
    match if context.fillsEmpty handle.id then PathQuery.Descent.emptyValue? handle.shape
      else none with
    | some value => checked value
    | none => if optional then .ok none else .error (.couldNotResolve handle.key)

def onSettled (optional : Bool) (handle : Handle) (go : Context → Json → Run (Option Json)) :
    Descent := fun context => do
  match ← Run.ofExcept (settle optional handle context) with
  | some value => go context value
  | none => return none

def passMarks (outer inner : Nat) (context : Context) : Context :=
  let context := if context.fillsEmpty outer then context.push .fillEmpty () (some inner)
    else context
  if context.isSliced outer then context.push .sliced () (some inner) else context

def through (handle : Handle) (child : Nat) (inner : Middleware) : Descent := fun context =>
  if handle.shape.kind = .nullable ∧ context.value? = some .null then return some .null
  else inner.evaluate (passMarks handle.id child context)

end Descent

namespace Excerpt

def runItem (inner : Middleware) (context : Context) (item : Json × Nat) : Run (Option Json) :=
  inner.evaluate ((context.push .index item.2).setValue (some item.1))

/-- The value of a list position. -/
def run (excerpt : Excerpt) (parallel : Bool) (id : Nat) (inner : Middleware) (context : Context)
    (value : Json) : Run (Option Json) :=
  match value with
  | .array list =>
    let inside := context.push .parent value
    match excerpt.single? with
    | some index =>
      match list[index]? with
      | some item => runItem inner inside (item, index)
      | none => return some .null
    | none => do
      let items := excerpt.items (context.isSliced id) list
      let values ← Run.all parallel (items.map (runItem inner inside))
      return some (.array (values.map fun value => value.getD .null))
  | other => return some other

end Excerpt

/-! ## Descents that are alike -/

/-- They give the same in like contexts, in all arenas that may come. -/
def Descent.Like (nodes : List Node) (descent : Descent) (descent' : PathQuery.Descent) : Prop :=
  ∀ (arena : Arena) nodes', arena.Faithful nodes' → nodes <+: nodes' → ∀ context context',
    context.Like nodes' context' →
    Run.Follows (fun _ => (· = ·)) arena nodes' (descent context) (descent' context')

variable {arena : Arena} {nodes : List Node} {handle : Handle} {node : Node}
  {context : Context} {context' : PathQuery.Context}

section Contexts

variable (hlike : context.Like nodes context')

include hlike

theorem Context.Like.attach {id : Nat} (hid : Stands nodes id node) (input : Option Json) :
    (Descent.attach id input context).Like nodes (PathQuery.Descent.attach node input context') := by
  cases input with
  | none => exact hlike
  | some input =>
    exact hlike.push (show Value.Like nodes .input input input from rfl) (.some hid)

theorem Context.Like.ite {other : Context} {other' : PathQuery.Context}
    (hother : other.Like nodes other') (test : Bool) :
    Context.Like nodes (if test then context else other) (if test then context' else other') := by
  cases test with
  | true => exact hlike
  | false => exact hother

theorem Context.Like.passMarks (h : arena.Faithful nodes) {outer inner : Nat}
    {outer' inner' : Node} (houter : Stands nodes outer outer') (hinner : Stands nodes inner inner') :
    (Descent.passMarks outer inner context).Like nodes
      (PathQuery.Descent.passMarks outer' inner' context') := by
  unfold Descent.passMarks PathQuery.Descent.passMarks
  dsimp only
  have hfilled := hlike.push (show Value.Like nodes .fillEmpty () () from rfl) (.some hinner)
  have hpassed := hfilled.ite hlike (context'.fillsEmpty outer')
  have hsliced := hpassed.push (show Value.Like nodes .sliced () () from rfl) (.some hinner)
  rw [hlike.fillsEmpty_eq h houter, hpassed.isSliced_eq h houter]
  exact hsliced.ite hpassed _

theorem Context.Like.settle_eq (h : arena.Faithful nodes) (hhandle : handle.Stands nodes node)
    (optional : Bool) :
    Descent.settle optional handle context = PathQuery.Descent.settle optional node context' := by
  unfold Descent.settle PathQuery.Descent.settle
  rw [hlike.value?_eq h, hlike.fillsEmpty_eq h hhandle.id, Handle.key, hhandle.shape]
  rfl

end Contexts

namespace Descent.Like

theorem enclose {resolvers : Resolvers} {resolvers' : PathQuery.Resolvers}
    (hresolvers : resolvers.Like nodes resolvers') (hhandle : handle.Stands nodes node)
    (input : Option Json) {descent : Descent} {descent' : PathQuery.Descent}
    (h : descent.Like nodes descent') :
    (enclose resolvers handle input descent).Like nodes
      (PathQuery.Descent.enclose resolvers' node input descent') := by
  intro arena nodes₁ hfaithful hgrown context context' hlike next next' hnext
  have hid := hhandle.id.mono hgrown
  have hchain := Middleware.Like.compose (hresolvers.atShape handle.shape)
  unfold Descent.enclose PathQuery.Descent.enclose
  rw [← hhandle.shape]
  refine Run.Follows.bind (hchain arena nodes₁ hfaithful hgrown _ _
    ((hlike.enter hid).attach hid input) _ _ ?_) ?_
  · intro arena₂ nodes₂ hfaithful₂ hgrown₂ context₂ context₂' hlike₂
    refine (h arena₂ nodes₂ hfaithful₂ (hgrown.trans hgrown₂) _ _ hlike₂).bind ?_
    rintro arena₃ nodes₃ value _ hfaithful₃ hgrown₃ rfl
    exact .pure hfaithful₃ ((hlike₂.mono hgrown₃).setValue value)
  · intro arena₂ nodes₂ context₂ context₂' hfaithful₂ hgrown₂ hlike₂
    exact hnext arena₂ nodes₂ hfaithful₂ hgrown₂ _ _ hlike₂

theorem onSettled (hhandle : handle.Stands nodes node) (optional : Bool)
    {go : Context → Json → Run (Option Json)}
    {go' : PathQuery.Context → Json → PathQuery.Run (Option Json)}
    (h : ∀ value, Like nodes (go · value) (go' · value)) :
    (onSettled optional handle go).Like nodes (PathQuery.Descent.onSettled optional node go') := by
  intro arena nodes₁ hfaithful hgrown context context' hlike
  have hhandle₁ : handle.Stands nodes₁ node := ⟨hhandle.id.mono hgrown, hhandle.shape⟩
  unfold Descent.onSettled PathQuery.Descent.onSettled
  rw [hlike.settle_eq hfaithful hhandle₁ optional]
  refine (Run.Follows.ofExcept_self hfaithful _).bind ?_
  rintro arena₂ nodes₂ settled _ hfaithful₂ hgrown₂ rfl
  cases settled with
  | none => exact .pure hfaithful₂ rfl
  | some value =>
    exact h value arena₂ nodes₂ hfaithful₂ (hgrown.trans hgrown₂) _ _ (hlike.mono hgrown₂)

theorem through (hhandle : handle.Stands nodes node) {child : Nat} {child' : Node}
    (hchild : Stands nodes child child') {inner : Middleware} {inner' : PathQuery.Middleware}
    (hinner : inner.Like nodes inner') :
    (through handle child inner).Like nodes (PathQuery.Descent.through node child' inner') := by
  intro arena nodes₁ hfaithful hgrown context context' hlike
  unfold Descent.through PathQuery.Descent.through
  rw [hlike.value?_eq hfaithful, hhandle.shape, Node.kind]
  split
  · exact .pure hfaithful rfl
  · exact (hinner.mono hgrown).evaluate hfaithful
      (hlike.passMarks hfaithful (hhandle.id.mono hgrown) (hchild.mono hgrown))

end Descent.Like

/-! ## Items of lists -/

theorem Excerpt.runItem_like {inner : Middleware} {inner' : PathQuery.Middleware}
    (hinner : inner.Like nodes inner') (hlike : context.Like nodes context') (item : Json × Nat) :
    (runItem inner context item).Like nodes (PathQuery.Excerpt.runItem inner' context' item) := by
  intro arena nodes₁ hfaithful hgrown
  have hindex := (hlike.mono hgrown).push
    (show Value.Like nodes₁ .index item.2 item.2 from rfl) .none
  exact (hinner.mono hgrown).evaluate hfaithful (hindex.setValue (some item.1))

theorem Excerpt.run_like {id : Nat} (hid : Stands nodes id node) {inner : Middleware}
    {inner' : PathQuery.Middleware} (hinner : inner.Like nodes inner') (excerpt : PathQuery.Excerpt)
    (parallel : Bool) (value : Json) :
    Descent.Like nodes (run excerpt parallel id inner · value)
      (excerpt.run parallel node inner' · value) := by
  intro arena nodes₁ hfaithful hgrown context context' hlike
  unfold Excerpt.run PathQuery.Excerpt.run
  cases value with
  | array list =>
    have hinner₁ := hinner.mono hgrown
    have hinside := hlike.push (show Value.Like nodes₁ .parent (.array list) (.array list) from rfl)
      .none
    dsimp only
    cases excerpt.single? with
    | some index =>
      dsimp only
      cases list[index]? with
      | some item =>
        exact runItem_like hinner₁ hinside (item, index) arena nodes₁ hfaithful List.prefix_rfl
      | none => exact .pure hfaithful rfl
    | none =>
      dsimp only
      rw [hlike.isSliced_eq hfaithful (hid.mono hgrown)]
      have hitems := Run.Follows.all_map parallel (excerpt.items (context'.isSliced node) list)
        fun item => runItem_like hinner₁ hinside item
      refine (hitems arena nodes₁ hfaithful List.prefix_rfl).bind ?_
      rintro arena₂ nodes₂ values _ hfaithful₂ hgrown₂ rfl
      exact .pure hfaithful₂ rfl
  | _ => exact .pure hfaithful rfl

end PathQuery.Located
