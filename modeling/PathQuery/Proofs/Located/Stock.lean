import PathQuery.Middleware.Stock
import PathQuery.Proofs.Located.Run

/-!
# Stock middlewares on an arena

What hosts see of a context is the key of the active node, found by its number, next to values that
are the same whatever the numbers are (`Context.Like.snapshot`). So logging is alike, and so are the
middlewares that set values, mark positions, and keep and find values for one position only.
-/

set_option autoImplicit false

namespace PathQuery.Located

open Visit (Stands)

/-- What can be seen of a context; the key is read from the active position. -/
def Context.snapshot (context : Context) : Run Snapshot := do
  let nodeKey ← match context.get? .node with
    | some id => do pure (some (← Run.shape id).key)
    | none => pure none
  return {
    nodeKey
    value := context.value?
    parent := context.get? .parent
    index := context.get? .index
    input := (context.get? .node).bind context.inputOf?
    depth := context.depth }

def Context.require (context : Context) (key : Key) (scope : Option Nat) :
    Except Error (Value key) :=
  match context.get? key scope with
  | some value => .ok value
  | none => .error (.missingContextKey key.name)

def Context.setSliced (context : Context) (value : Json) : Except Error Context := do
  let id ← context.activeNode
  return (context.push .sliced () (some id)).setValue (some value)

namespace Middleware

def set (value : Json) : Middleware := fun context next => next (context.setValue (some value))

def fillEmpty : Middleware := fun context next => do
  let id ← Run.ofExcept context.activeNode
  next (context.push .fillEmpty () (some id))

def trace (label : String) : Middleware := fun context next => do
  Run.log (.enter label)
  let context ← next context
  Run.log (.leave label)
  return context

def peek (label : String) : Middleware := fun context next => do
  Run.log (.peek label (← context.snapshot))
  next context

/-- Keeps data of the host for the active position only. -/
def pushRowsHere (value : Json) : Middleware := fun context next => do
  let id ← Run.ofExcept context.activeNode
  next (context.push PathQuery.Middleware.rows value (some id))

def readRowsHere : Middleware := fun context next => do
  let id ← Run.ofExcept context.activeNode
  next (context.setValue (some (← Run.ofExcept
    (context.require PathQuery.Middleware.rows (some id)))))

/-- Sets the value to the input of a position that the host holds on to. -/
def inputOf (id : Nat) : Middleware := fun context next =>
  match context.inputOf? id with
  | some value => next (context.setValue (some value))
  | none => next context

/-- Slices a list by the input of the active position. -/
def slicePage (list : Json) : Middleware := fun context next => do
  let id ← Run.ofExcept context.activeNode
  match context.inputOf? id with
  | some input =>
    let items := match list with
      | .array items => items
      | _ => []
    let page := PathQuery.Middleware.pageOf items (PathQuery.Middleware.pageNumber input "page")
      (PathQuery.Middleware.pageNumber input "pageSize")
    next (← Run.ofExcept (context.setSliced (.array page)))
  | none => next (context.setValue (some list))

end Middleware

/-! ## What hosts see -/

variable {arena : Arena} {nodes : List Node} {context : Context} {context' : PathQuery.Context}

/-- A run that reads something goes as one that need not. -/
theorem Run.Follows.of_reading {α γ δ : Type} {holds : α → Prop}
    {like : List Node → γ → δ → Prop} {run : Run α} {f : α → Run γ} {run' : PathQuery.Run δ}
    (h : Follows (fun _ a (_ : Unit) => holds a) arena nodes run (Pure.pure ()))
    (hf : ∀ (arena' : Arena) nodes' a, arena'.Faithful nodes' → nodes <+: nodes' → holds a →
      Follows like arena' nodes' (f a) run') :
    Follows like arena nodes (run >>= f) run' := by
  have hbind := h.bind (g := fun _ => run') fun arena' nodes' a _ h' hgrown ha =>
    hf arena' nodes' a h' hgrown ha
  rwa [Traced.pure_bind] at hbind

namespace Context.Like

variable (hlike : context.Like nodes context') (h : arena.Faithful nodes)

include hlike h

/-- Of contexts that are alike the same is seen. -/
theorem snapshot :
    Run.Follows (fun _ seen (_ : Unit) => seen = context'.snapshot) arena nodes context.snapshot
      (pure ()) := by
  have hparent := eq_of_rel (hlike.get? h .parent .none)
  have hindex := eq_of_rel (hlike.get? h .index .none)
  have hnode := hlike.get? h .node .none
  unfold Context.snapshot PathQuery.Context.snapshot
  rw [hlike.value?_eq h, hparent, hindex, hlike.depth_eq]
  generalize context.get? .node = active at hnode
  generalize context'.get? .node = active' at hnode
  cases hnode with
  | none => exact .pure h rfl
  | @some id node hid =>
    dsimp only
    refine .read h hid (.pure h ?_)
    rw [Option.bind_some, hlike.inputOf?_eq h hid]
    rfl

theorem rows {id : Nat} {node : Node} (hid : Stands nodes id node) :
    Except.Agree (Value.Like nodes PathQuery.Middleware.rows)
      (context.require PathQuery.Middleware.rows (some id))
      (context'.require PathQuery.Middleware.rows (some node)) := by
  have hrows := hlike.get? h PathQuery.Middleware.rows (.some hid)
  unfold Context.require PathQuery.Context.require
  generalize context.get? PathQuery.Middleware.rows (some id) = found at hrows
  generalize context'.get? PathQuery.Middleware.rows (some node) = found' at hrows
  cases hrows with
  | none => exact .error _
  | some hvalue => exact .ok hvalue

theorem setSliced (value : Json) :
    Except.Agree (Context.Like nodes) (context.setSliced value) (context'.setSliced value) := by
  have hnode := hlike.activeNode h
  unfold Context.setSliced PathQuery.Context.setSliced
  generalize context.activeNode = active at hnode
  generalize context'.activeNode = active' at hnode
  cases hnode with
  | error error => exact .error error
  | ok hid =>
    have hsliced := hlike.push (show Value.Like nodes .sliced () () from rfl) (.some hid)
    exact .ok (hsliced.setValue (some value))

end Context.Like

/-! ## Middlewares that are alike -/

namespace Middleware.Like

theorem set (value : Json) : Like nodes (set value) (PathQuery.Middleware.set value) :=
  fun arena _ h _ _ _ hlike _ _ hnext =>
    hnext arena _ h List.prefix_rfl _ _ (hlike.setValue (some value))

/-- What is done with the active position is done with the active node. -/
theorem of_activeNode {rest : Nat → Middleware} {rest' : Node → PathQuery.Middleware}
    (hrest : ∀ nodes' id node, nodes <+: nodes' → Stands nodes' id node →
      (rest id).Like nodes' (rest' node)) :
    Like nodes (fun context next => do rest (← Run.ofExcept context.activeNode) context next)
      (fun context next => do rest' (← Traced.ofExcept context.activeNode) context next) := by
  intro arena nodes₁ h₁ hgrown₁ context context' hlike next next' hnext
  refine (Run.Follows.ofExcept h₁ (hlike.activeNode h₁)).bind ?_
  intro arena₂ nodes₂ id node h₂ hgrown₂ hid
  exact hrest nodes₂ id node (hgrown₁.trans hgrown₂) hid arena₂ nodes₂ h₂ List.prefix_rfl _ _
    (hlike.mono hgrown₂) _ _ (hnext.mono hgrown₂)

theorem fillEmpty : Like nodes fillEmpty PathQuery.Middleware.fillEmpty := by
  refine of_activeNode fun nodes₁ id node _ hid => ?_
  intro arena nodes₂ h hgrown context context' hlike next next' hnext
  exact hnext arena nodes₂ h List.prefix_rfl _ _
    (hlike.push (show Value.Like nodes₂ .fillEmpty () () from rfl) (.some (hid.mono hgrown)))

theorem trace (label : String) : Like nodes (trace label) (PathQuery.Middleware.trace label) := by
  intro arena nodes₁ h₁ _ context context' hlike next next' hnext
  refine (Run.Follows.log h₁ (.enter label) rfl).bind fun arena₂ nodes₂ _ _ h₂ hgrown₂ _ => ?_
  refine (hnext arena₂ nodes₂ h₂ hgrown₂ _ _ (hlike.mono hgrown₂)).bind ?_
  intro arena₃ nodes₃ left left' h₃ _ hleft
  refine (Run.Follows.log h₃ (.leave label) rfl).bind fun arena₄ nodes₄ _ _ h₄ hgrown₄ _ => ?_
  exact .pure h₄ (hleft.mono hgrown₄)

/-- What a host notes is the same, the key of the active node included. -/
theorem peek (label : String) : Like nodes (peek label) (PathQuery.Middleware.peek label) := by
  intro arena nodes₁ h₁ _ context context' hlike next next' hnext
  refine (hlike.snapshot h₁).of_reading ?_
  rintro arena₂ nodes₂ _ h₂ hgrown₂ rfl
  refine (Run.Follows.log h₂ (.peek label context'.snapshot) rfl).bind ?_
  intro arena₃ nodes₃ _ _ h₃ hgrown₃ _
  have hgrown := hgrown₂.trans hgrown₃
  exact hnext arena₃ nodes₃ h₃ hgrown _ _ (hlike.mono hgrown)

theorem pushRowsHere (value : Json) :
    Like nodes (pushRowsHere value) (PathQuery.Middleware.pushRowsHere value) := by
  refine of_activeNode fun nodes₁ id node _ hid => ?_
  intro arena nodes₂ h hgrown context context' hlike next next' hnext
  exact hnext arena nodes₂ h List.prefix_rfl _ _
    (hlike.push (show Value.Like nodes₂ (.host "rows") value value from rfl)
      (.some (hid.mono hgrown)))

theorem readRowsHere : Like nodes readRowsHere PathQuery.Middleware.readRowsHere := by
  refine of_activeNode fun nodes₁ id node _ hid => ?_
  intro arena nodes₂ h₂ hgrown₂ context context' hlike next next' hnext
  have hrows : Run.Follows (fun nodes => Value.Like nodes PathQuery.Middleware.rows) arena nodes₂
      (Run.ofExcept (context.require PathQuery.Middleware.rows (some id)))
      (Traced.ofExcept (context'.require PathQuery.Middleware.rows (some node))) :=
    .ofExcept h₂ (hlike.rows h₂ (hid.mono hgrown₂))
  refine hrows.bind ?_
  intro arena₃ nodes₃ value value' h₃ hgrown₃ hvalue
  obtain rfl : value = value' := hvalue
  exact hnext arena₃ nodes₃ h₃ hgrown₃ _ _ ((hlike.mono hgrown₃).setValue (some value))

/-- A number that the host holds on to stands for the same node in all arenas that may come. -/
theorem inputOf {id : Nat} {node : Node} (hid : Stands nodes id node) :
    Like nodes (inputOf id) (PathQuery.Middleware.inputOf node) := by
  intro arena nodes₁ h₁ hgrown₁ context context' hlike next next' hnext
  unfold Middleware.inputOf PathQuery.Middleware.inputOf
  rw [hlike.inputOf?_eq h₁ (hid.mono hgrown₁)]
  cases context'.inputOf? node with
  | none => exact hnext arena nodes₁ h₁ List.prefix_rfl _ _ hlike
  | some value => exact hnext arena nodes₁ h₁ List.prefix_rfl _ _ (hlike.setValue (some value))

theorem slicePage (list : Json) :
    Like nodes (slicePage list) (PathQuery.Middleware.slicePage list) := by
  refine of_activeNode fun nodes₁ id node _ hid => ?_
  intro arena nodes₂ h₂ hgrown₂ context context' hlike next next' hnext
  dsimp only
  rw [hlike.inputOf?_eq h₂ (hid.mono hgrown₂)]
  cases context'.inputOf? node with
  | none => exact hnext arena nodes₂ h₂ List.prefix_rfl _ _ (hlike.setValue (some list))
  | some input =>
    refine (Run.Follows.ofExcept h₂ (hlike.setSliced h₂ _)).bind ?_
    intro arena₃ nodes₃ sliced sliced' h₃ hgrown₃ hsliced
    exact hnext arena₃ nodes₃ h₃ hgrown₃ _ _ hsliced

end Middleware.Like

end PathQuery.Located
