import PathQuery.Proofs.Located.Context
import PathQuery.Proofs.Siblings
import PathQuery.Resolver

/-!
# Runs on an arena

A run on an arena visits positions and keeps what middlewares note in a log. It follows a run on nodes
when it logs the same, leaves an arena with just the nodes that the other one visits, and comes to a
like outcome (`Run.Follows`). Middlewares are alike when they follow each other in like contexts, in
every arena that their own arena may grow into: then they do the same, whatever numbers stand for the
nodes.
-/

set_option autoImplicit false

namespace PathQuery

/-- What middlewares noted in a run. -/
def Run.notes {α : Type} (run : Run α) : List Event :=
  run.trail.filter fun event => event.visited?.isNone

namespace Located

open Visit (Stands Mirrors Leaves)

/-- A run on an arena ends, notes something, or moves on in the arena that it finds. Where it waits,
siblings may move on in the same arena. -/
inductive Run (α : Type) where
  | done (result : Except Error α)
  | note (event : Event) (next : Run α)
  | move (advance : Arena → Arena) (next : Arena → Run α)

namespace Run

variable {α β γ : Type}

def bind (run : Run α) (f : α → Run β) : Run β :=
  match run with
  | done (.ok a) => f a
  | done (.error error) => done (.error error)
  | note event next => note event (next.bind f)
  | move advance next => move advance fun arena => (next arena).bind f

instance : Monad Run where
  pure a := done (.ok a)
  bind := bind

def ofExcept (result : Except Error α) : Run α := done result

def log (event : Event) : Run Unit := note event (done (.ok ()))

/-- The visit as a part of a run. -/
def visit (visit : Visit α) : Run α :=
  move (fun arena => (visit arena).2) fun arena => done (visit arena).1

def shape (id : Nat) : Run Structure := visit (Visit.shape id)

/-! ## Siblings -/

/-- Goes on to the next wait while another run waits, and then on with both. -/
def meanwhile (waits : Event → Bool) (wait : Event) (goOn : Run β → Run γ) : Run β → Run γ
  | done (.ok b) => note wait (goOn (done (.ok b)))
  | done (.error error) => done (.error error)
  | note event next =>
    if waits event then note wait (goOn next) else note event (meanwhile waits wait goOn next)
  | move advance next => move advance fun arena => meanwhile waits wait goOn (next arena)

/-- Two runs that take turns at their waits, in one arena. -/
def alongside (waits : Event → Bool) (run : Run α) (other : Run β) : Run (α × β) :=
  match run with
  | done (.ok a) => (fun b => (a, b)) <$> other
  | done (.error error) => done (.error error)
  | note event next =>
    if waits event then meanwhile waits event (alongside waits next) other
    else note event (alongside waits next other)
  | move advance next => move advance fun arena => alongside waits (next arena) other

def together (waits : Event → Bool) : List (Run α) → Run (List α)
  | [] => return []
  | first :: rest =>
    (fun values => values.1 :: values.2) <$> first.alongside waits (together waits rest)

def all (parallel : Bool) (runs : List (Run α)) : Run (List α) :=
  together (PathQuery.Run.yields parallel) runs

/-! ## Runs by themselves -/

/-- The arena that a run leaves. -/
def left : Run α → Arena → Arena
  | done _, arena => arena
  | note _ next, arena => next.left arena
  | move advance next, arena => (next arena).left (advance arena)

/-- What hosts get from a run: its outcome, and what was noted. -/
def observed : Run α → Arena → Except Error α × List Event
  | done result, _ => (result, [])
  | note event next, arena =>
    let (result, events) := next.observed arena
    (result, event :: events)
  | move advance next, arena => (next arena).observed (advance arena)

end Run

abbrev Continuation := Context → Run Context

abbrev Middleware := Context → Continuation → Run Context

namespace Middleware

def pass : Middleware := fun context next => next context

def andThen (outer inner : Middleware) : Middleware := fun context next =>
  outer context fun context => inner context next

def compose (middlewares : List Middleware) : Middleware :=
  middlewares.foldr andThen pass

def evaluate (middleware : Middleware) (context : Context) : Run (Option Json) := do
  return (← middleware context pure).value?

end Middleware

/-- Middlewares by the identity of the structure that they resolve. -/
structure Resolvers where
  bound : List (Option Nat × List Middleware)

def Resolvers.atShape (resolvers : Resolvers) (shape : Structure) : List Middleware :=
  resolvers.bound.flatMap fun (identity, middlewares) =>
    if identity = shape.identity? then middlewares else []

/-! ## Runs in step -/

variable {α β γ δ : Type} {arena : Arena} {nodes nodes' : List Node}

/-- A run on an arena goes as a run on nodes with this trail and this end does; `like` says which of
their values are alike. Behind a note it goes on so in all arenas that its own may have grown into. -/
inductive Run.Goes (like : List Node → α → β → Prop) (result : Except Error β) :
    Arena → List Node → Run α → List Event → Prop where
  | done {arena : Arena} {nodes : List Node} {x : Except Error α} (faithful : arena.Faithful nodes)
      (agree : Except.Agree (like nodes) x result) : Goes like result arena nodes (.done x) []
  | note {arena : Arena} {nodes : List Node} {event : Event} {next : Run α} {trail : List Event}
      (unvisited : event.visited? = none)
      (goesOn : ∀ (arena' : Arena) (nodes' : List Node), arena'.Faithful nodes' → nodes <+: nodes' →
        Goes like result arena' nodes' next trail)
      (faithful : arena.Faithful nodes) :
      Goes like result arena nodes (.note event next) (event :: trail)
  | move {arena : Arena} {nodes nodes' visited : List Node} {advance : Arena → Arena}
      {next : Arena → Run α} {trail : List Event}
      (leaves : Leaves arena nodes visited (advance arena) nodes')
      (goesOn : Goes like result (advance arena) nodes' (next arena) trail) :
      Goes like result arena nodes (.move advance next)
        (visited.map (fun node => .visit (.node node)) ++ trail)

/-- A run on an arena goes as a run on nodes does. -/
def Run.Follows (like : List Node → α → β → Prop) (arena : Arena) (nodes : List Node) (run : Run α)
    (run' : PathQuery.Run β) : Prop :=
  Goes like run'.result arena nodes run run'.trail

/-- Runs are alike when the one goes as the other in all arenas that may come. -/
def Run.Like (nodes : List Node) (run : Run α) (run' : PathQuery.Run α) : Prop :=
  ∀ (arena : Arena) (nodes' : List Node), arena.Faithful nodes' → nodes <+: nodes' →
    Run.Follows (fun _ => (· = ·)) arena nodes' run run'

theorem Run.Like.mono {run : Run α} {run' : PathQuery.Run α} (h : run.Like nodes run')
    (hgrown : nodes <+: nodes') : run.Like nodes' run' :=
  fun arena nodes'' hfaithful hgrown' => h arena nodes'' hfaithful (hgrown.trans hgrown')

namespace Run.Follows

variable {like : List Node → α → β → Prop} {like' : List Node → γ → δ → Prop}

theorem pure (h : arena.Faithful nodes) {a : α} {b : β} (hlike : like nodes a b) :
    Follows like arena nodes (pure a) (pure b) :=
  .done h (.ok hlike)

theorem ofExcept (h : arena.Faithful nodes) {x : Except Error α} {y : Except Error β}
    (hagree : Except.Agree (like nodes) x y) :
    Follows like arena nodes (ofExcept x) (Traced.ofExcept y) :=
  .done h hagree

theorem ofExcept_self (h : arena.Faithful nodes) (x : Except Error γ) :
    Follows (fun _ => (· = ·)) arena nodes (Run.ofExcept x) (Traced.ofExcept x) :=
  .ofExcept h (.eq_self x)

theorem log (h : arena.Faithful nodes) (event : Event) (hevent : event.visited? = none) :
    Follows (fun _ => (· = ·)) arena nodes (log event) (Traced.note event) :=
  .note hevent (fun _ _ h' _ => .done h' (.ok rfl)) h

theorem note {event : Event} (hevent : event.visited? = none) {next : Run α}
    {run' : PathQuery.Run β} (h : arena.Faithful nodes)
    (hnext : ∀ (arena' : Arena) (nodes' : List Node), arena'.Faithful nodes' → nodes <+: nodes' →
      Follows like arena' nodes' next run') :
    Follows like arena nodes (.note event next) (run'.behind event) :=
  Goes.note hevent hnext h

theorem move {advance : Arena → Arena} {next : Arena → Run α} {run' : PathQuery.Run β}
    {visited : List Node} (h : Leaves arena nodes visited (advance arena) nodes')
    (hnext : Follows like (advance arena) nodes' (next arena) run') :
    Follows like arena nodes (.move advance next)
      (run'.behindAll (visited.map fun node => .visit (.node node))) :=
  Goes.move h hnext

theorem of_mirrors {visit : Visit α} {walk : Walk β} (h : Mirrors like arena nodes visit walk) :
    Follows like arena nodes (Run.visit visit) walk.run := by
  obtain ⟨nodes', hleaves, hagree⟩ := h
  have hmove : Follows like arena nodes (Run.visit visit)
      ((Traced.ofExcept walk.result).behindAll
        (walk.trail.map fun node => .visit (.node node))) :=
    .move hleaves (.ofExcept hleaves.faithful hagree)
  rwa [Traced.behindAll, Traced.ofExcept, List.append_nil] at hmove

theorem bind {run : Run α} {run' : PathQuery.Run β} {f : α → Run γ} {g : β → PathQuery.Run δ}
    (h : Follows like arena nodes run run')
    (hf : ∀ (arena' : Arena) (nodes' : List Node) a b, arena'.Faithful nodes' → nodes <+: nodes' →
      like nodes' a b → Follows like' arena' nodes' (f a) (g b)) :
    Follows like' arena nodes (run >>= f) (run' >>= g) := by
  obtain ⟨trail, result⟩ := run'
  change Goes like result arena nodes run trail at h
  induction h with
  | done hfaithful hagree =>
    cases hagree with
    | ok hlike => exact hf _ _ _ _ hfaithful List.prefix_rfl hlike
    | error error => exact .done hfaithful (.error error)
  | @note _ _ event _ trail hevent _ hfaithful ih =>
    have hbind : (⟨event :: trail, result⟩ : PathQuery.Run β) >>= g =
        ((⟨trail, result⟩ : PathQuery.Run β) >>= g).behind event :=
      Traced.behindAll_bind [event] ⟨trail, result⟩ g
    rw [hbind]
    exact .note hevent hfaithful fun arena' nodes' h' hgrown =>
      ih arena' nodes' h' hgrown fun arena'' nodes'' a b h'' hgrown' =>
        hf arena'' nodes'' a b h'' (hgrown.trans hgrown')
  | @move _ _ _ visited _ _ trail hleaves _ ih =>
    change Follows like' _ _ _ ((Traced.behindAll _ ⟨trail, result⟩) >>= g)
    rw [Traced.behindAll_bind]
    exact .move hleaves (ih fun arena'' nodes'' a b h'' hgrown' =>
      hf arena'' nodes'' a b h'' (hleaves.grown.trans hgrown'))

theorem map {run : Run γ} {run' : PathQuery.Run γ}
    (h : Follows (fun _ => (· = ·)) arena nodes run run') (f : γ → α) :
    Follows (fun _ => (· = ·)) arena nodes (f <$> run) (f <$> run') :=
  h.bind fun _ _ _ _ h' _ heq => .pure h' (congrArg f heq)

/-- The structure of a position is that of its node. -/
theorem read (h : arena.Faithful nodes) {id : Nat} {node : Node} (hid : Stands nodes id node)
    {f : Structure → Run α} {run' : PathQuery.Run β}
    (hf : Follows like arena nodes (f node.shape) run') :
    Follows like arena nodes (shape id >>= f) run' := by
  rw [Node.shape, ← h.site hid] at hf
  have hstays : Leaves arena nodes [] arena nodes := .refl h
  have hread : Goes like run'.result arena nodes
      (.move (fun arena => arena) fun arena => f (arena.site id).shape)
      (([] : List Node).map (fun node => .visit (.node node)) ++ run'.trail) := .move hstays hf
  exact hread

/-! ### Siblings -/

variable {waits : Event → Bool}

/-- Siblings do not take turns where nodes are visited. -/
def PassesVisits (waits : Event → Bool) : Prop := ∀ node, waits (.visit (.node node)) = false

theorem PassesVisits.of_mem (h : PassesVisits waits) {visited : List Node} {event : Event}
    (hevent : event ∈ visited.map fun node => Event.visit (.node node)) : waits event = false := by
  obtain ⟨node, _, rfl⟩ := List.mem_map.mp hevent
  exact h node

/-- While one run waits the other goes on, in the arena that it finds. -/
theorem meanwhile (hwaits : PassesVisits waits) {wait : Event} (hwait : wait.visited? = none)
    {goOn : Run γ → Run α} {goOn' : List Event → PathQuery.Run β} {other : Run γ}
    {other' : PathQuery.Run γ} (hother : Follows (fun _ => (· = ·)) arena nodes other other')
    (hgoOn : ∀ (arena' : Arena) (nodes' : List Node) (other : Run γ) (others : List Event),
      arena'.Faithful nodes' → nodes <+: nodes' → other.Like nodes' ⟨others, other'.result⟩ →
      Follows like arena' nodes' (goOn other) (goOn' others)) :
    Follows like arena nodes (meanwhile waits wait goOn other)
      (Traced.meanwhile waits wait goOn' other'.result other'.trail) := by
  obtain ⟨others, result⟩ := other'
  change Goes _ result arena nodes other others at hother
  dsimp only at hgoOn ⊢
  induction hother with
  | done hfaithful hagree =>
    cases hagree with
    | error error => exact .done hfaithful (.error error)
    | ok heq =>
      refine .note hwait hfaithful fun arena' nodes' h' hgrown => ?_
      exact hgoOn arena' nodes' _ [] h' hgrown fun _ _ h'' _ => .done h'' (.ok heq)
  | @note _ _ event next trail hevent hgoes hfaithful ih =>
    unfold Run.meanwhile Traced.meanwhile
    cases waits event with
    | true =>
      refine .note hwait hfaithful fun arena' nodes' h' hgrown => ?_
      exact hgoOn arena' nodes' next trail h' hgrown fun arena'' nodes'' h'' hgrown' =>
        hgoes arena'' nodes'' h'' (hgrown.trans hgrown')
    | false =>
      refine .note hevent hfaithful fun arena' nodes' h' hgrown => ?_
      exact ih arena' nodes' h' hgrown fun arena'' nodes'' other others h'' hgrown' =>
        hgoOn arena'' nodes'' other others h'' (hgrown.trans hgrown')
  | move hleaves _ ih =>
    rw [Traced.meanwhile_append fun _ => hwaits.of_mem]
    exact .move hleaves (ih fun arena'' nodes'' other others h'' hgrown =>
      hgoOn arena'' nodes'' other others h'' (hleaves.grown.trans hgrown))

theorem alongside (hwaits : PassesVisits waits) {run : Run α} {run' : PathQuery.Run α}
    {other : Run γ} {other' : PathQuery.Run γ} (h : Follows (fun _ => (· = ·)) arena nodes run run')
    (hother : other.Like nodes other') :
    Follows (fun _ => (· = ·)) arena nodes (alongside waits run other)
      (run'.alongside waits other') := by
  obtain ⟨trail, result⟩ := run'
  obtain ⟨others, result'⟩ := other'
  change Follows _ _ _ _ (Traced.takeTurns waits result result' trail others)
  change Goes _ result arena nodes run trail at h
  induction h generalizing other others with
  | done hfaithful hagree =>
    cases hagree with
    | error error => exact .done hfaithful (.error error)
    | @ok a _ heq =>
      subst heq
      rw [Traced.takeTurns_done]
      exact (hother _ _ hfaithful List.prefix_rfl).map (a, ·)
  | @note _ _ event next trail hevent hgoes hfaithful ih =>
    unfold Run.alongside
    cases hevent' : waits event with
    | false =>
      rw [Traced.takeTurns_note hevent']
      exact .note hevent hfaithful fun arena' nodes' h' hgrown =>
        ih arena' nodes' h' hgrown others (hother.mono hgrown)
    | true =>
      rw [Traced.takeTurns, if_pos hevent', if_pos rfl]
      exact meanwhile hwaits hevent (hother _ _ hfaithful List.prefix_rfl)
        fun arena' nodes' other others h' hgrown hother' =>
          ih arena' nodes' h' hgrown others hother'
  | move hleaves _ ih =>
    rw [Traced.takeTurns_append fun _ => hwaits.of_mem]
    exact .move hleaves (ih others (hother.mono hleaves.grown))

theorem together (hwaits : PassesVisits waits) {runs : List (Run α)}
    {runs' : List (PathQuery.Run α)} (h : List.Forall₂ (Run.Like nodes) runs runs') :
    (together waits runs).Like nodes (Traced.together waits runs') := by
  induction h with
  | nil => exact fun _ _ hfaithful _ => .pure hfaithful rfl
  | cons hfirst _ ih =>
    intro arena nodes' hfaithful hgrown
    exact (alongside hwaits (hfirst arena nodes' hfaithful hgrown) (ih.mono hgrown)).map _

/-- The runs of siblings on an arena go as those on nodes, in turns or one after another. -/
theorem all (parallel : Bool) {runs : List (Run α)} {runs' : List (PathQuery.Run α)}
    (h : List.Forall₂ (Run.Like nodes) runs runs') :
    (Run.all parallel runs).Like nodes (PathQuery.Run.all parallel runs') := by
  rw [PathQuery.Run.all_eq_together]
  exact together (fun _ => Bool.and_false parallel) h

theorem all_map (parallel : Bool) {δ : Type} (items : List δ) {f : δ → Run α}
    {g : δ → PathQuery.Run α} (h : ∀ item, (f item).Like nodes (g item)) :
    (Run.all parallel (items.map f)).Like nodes (PathQuery.Run.all parallel (items.map g)) :=
  all parallel (List.forall₂_map_left_iff.mpr (List.forall₂_map_right_iff.mpr
    (List.forall₂_same.mpr fun item _ => h item)))

/-! ### What they leave -/

/-- A run on an arena leaves it with the nodes that are visited, notes the same, and comes to a like
outcome. -/
theorem leaves {run : Run α} {run' : PathQuery.Run β} (h : Follows like arena nodes run run') :
    ∃ nodes', Leaves arena nodes run'.visited (run.left arena) nodes' ∧
      (run.observed arena).2 = run'.notes ∧
      Except.Agree (like nodes') (run.observed arena).1 run'.result := by
  obtain ⟨trail, result⟩ := run'
  change Goes like result arena nodes run trail at h
  induction h with
  | done hfaithful hagree => exact ⟨_, .refl hfaithful, rfl, hagree⟩
  | @note arena nodes event next trail hevent _ hfaithful ih =>
    obtain ⟨nodes', hleaves, hnotes, hagree⟩ := ih arena nodes hfaithful List.prefix_rfl
    refine ⟨nodes', ?_, ?_, hagree⟩
    · rwa [PathQuery.Run.visited, List.filterMap_cons_none hevent]
    · rw [PathQuery.Run.notes, List.filter_cons_of_pos (by rw [hevent]; rfl)]
      exact congrArg (event :: ·) hnotes
  | @move _ _ _ visited _ _ trail hleaves _ ih =>
    obtain ⟨nodes', hleaves', hnotes, hagree⟩ := ih
    refine ⟨nodes', ?_, ?_, hagree⟩
    · have hvisited : (visited.map fun node => Event.visit (.node node)).filterMap Event.visited? =
          visited := by
        rw [List.filterMap_map]
        exact List.filterMap_some
      rw [PathQuery.Run.visited, List.filterMap_append, hvisited]
      exact hleaves.trans hleaves'
    · have hunnoted : (visited.map fun node => Event.visit (.node node)).filter
          (fun event => event.visited?.isNone) = [] := by simp [Event.visited?]
      rw [PathQuery.Run.notes, List.filter_append, hunnoted]
      exact hnotes

end Run.Follows

/-! ## Middlewares that are alike -/

/-- They go on alike in all arenas that may come. -/
def Continues (nodes : List Node) (next : Continuation) (next' : PathQuery.Continuation) : Prop :=
  ∀ (arena : Arena) nodes', arena.Faithful nodes' → nodes <+: nodes' → ∀ context context',
    context.Like nodes' context' →
    Run.Follows Context.Like arena nodes' (next context) (next' context')

/-- They do the same, whatever numbers stand for the nodes. -/
def Middleware.Like (nodes : List Node) (middleware : Middleware)
    (middleware' : PathQuery.Middleware) : Prop :=
  ∀ (arena : Arena) nodes', arena.Faithful nodes' → nodes <+: nodes' → ∀ context context',
    context.Like nodes' context' → ∀ next next', Continues nodes' next next' →
    Run.Follows Context.Like arena nodes' (middleware context next) (middleware' context' next')

theorem Continues.mono {next : Continuation} {next' : PathQuery.Continuation}
    (h : Continues nodes next next') (hgrown : nodes <+: nodes') : Continues nodes' next next' :=
  fun arena nodes'' hfaithful hgrown' => h arena nodes'' hfaithful (hgrown.trans hgrown')

theorem continues_pure : Continues nodes pure pure :=
  fun _ _ hfaithful _ _ _ hlike => .pure hfaithful hlike

namespace Middleware.Like

variable {middleware inner : Middleware} {middleware' inner' : PathQuery.Middleware}

theorem mono (h : middleware.Like nodes middleware') (hgrown : nodes <+: nodes') :
    middleware.Like nodes' middleware' :=
  fun arena nodes'' hfaithful hgrown' => h arena nodes'' hfaithful (hgrown.trans hgrown')

theorem pass : Like nodes pass PathQuery.Middleware.pass :=
  fun arena _ hfaithful _ context context' hlike _ _ hnext =>
    hnext arena _ hfaithful List.prefix_rfl context context' hlike

theorem andThen (h : middleware.Like nodes middleware') (hinner : inner.Like nodes inner') :
    (andThen middleware inner).Like nodes (PathQuery.Middleware.andThen middleware' inner') := by
  intro arena nodes₁ hfaithful hgrown context context' hlike next next' hnext
  refine h arena nodes₁ hfaithful hgrown context context' hlike _ _ ?_
  -- by then the outer one may have entered positions
  intro arena₂ nodes₂ hfaithful₂ hgrown₂ context₂ context₂' hlike₂
  exact hinner arena₂ nodes₂ hfaithful₂ (hgrown.trans hgrown₂) context₂ context₂' hlike₂ next next'
    (hnext.mono hgrown₂)

theorem compose {middlewares : List Middleware} {middlewares' : List PathQuery.Middleware}
    (h : List.Forall₂ (Like nodes) middlewares middlewares') :
    (compose middlewares).Like nodes (PathQuery.Middleware.compose middlewares') := by
  induction h with
  | nil => exact pass
  | cons hfirst _ ih => exact hfirst.andThen ih

theorem evaluate (h : middleware.Like nodes middleware') (hfaithful : arena.Faithful nodes)
    {context : Context} {context' : PathQuery.Context} (hlike : context.Like nodes context') :
    Run.Follows (fun _ => (· = ·)) arena nodes (middleware.evaluate context)
      (middleware'.evaluate context') := by
  unfold Middleware.evaluate PathQuery.Middleware.evaluate PathQuery.Middleware.complete
  have hrun := h arena nodes hfaithful List.prefix_rfl context context' hlike pure pure continues_pure
  exact hrun.bind fun _ _ _ _ hfaithful' _ hlike' => .pure hfaithful' (hlike'.value?_eq hfaithful')

end Middleware.Like

/-- The same tables of middlewares that are alike. -/
structure Resolvers.Like (nodes : List Node) (resolvers : Resolvers)
    (resolvers' : PathQuery.Resolvers) : Prop where
  bound : List.Forall₂ (fun entry entry' => entry.1 = entry'.1 ∧
    List.Forall₂ (Middleware.Like nodes) entry.2 entry'.2) resolvers.bound resolvers'.bound

theorem Resolvers.Like.atShape {resolvers : Resolvers} {resolvers' : PathQuery.Resolvers}
    (h : resolvers.Like nodes resolvers') (shape : Structure) :
    List.Forall₂ (Middleware.Like nodes) (resolvers.atShape shape) (resolvers'.atShape shape) := by
  obtain ⟨bound⟩ := resolvers
  obtain ⟨bound'⟩ := resolvers'
  obtain ⟨hbound⟩ := h
  unfold Resolvers.atShape PathQuery.Resolvers.atShape
  dsimp only at hbound ⊢
  induction hbound with
  | nil => exact .nil
  | cons hfirst _ ih =>
    rw [List.flatMap_cons, List.flatMap_cons]
    refine List.rel_append ?_ ih
    rw [hfirst.1]
    split
    · exact hfirst.2
    · exact .nil

end Located

end PathQuery
