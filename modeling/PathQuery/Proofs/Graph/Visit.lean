import Mathlib.Data.List.Forall2
import PathQuery.Proofs.Graph.Arena
import PathQuery.Proofs.Graph.Navigation

/-!
# Navigation in an arena

A visit asks for positions where a walk asks for nodes, and every primitive step looks into the
table of the arena first. A visit has the outcome of its walk, position for node, and the arena is
left with just the nodes that the walk came to (`Visit.Mirrors`).
-/

set_option autoImplicit false

namespace PathQuery

/-! ## Steps through the table -/

/-- A computation that navigates by the positions of an arena. -/
abbrev Visit (α : Type) := ExceptT Error (StateM Arena) α

namespace Visit

def step (id : Nat) (step : Step) : Visit Nat := fun arena => arena.child id step

def shape (id : Nat) : Visit Structure := fun arena => (.ok (arena.site id).shape, arena)

def memberAmong (id : Nat) (name : String) : List Nat → Visit Nat
  | [] => do throw (.invalidUnionAccess (← shape id).key name)
  | index :: rest => do
    let member ← step id (.member index)
    if (← shape member).memberName? = some name then return member
    else memberAmong id name rest

def memberCount (id : Nat) : Visit Nat := do
  match ← shape id with
  | .union _ members => return members.length
  | _ => return 0

def memberNamed (id : Nat) (name : String) : Visit Nat := do
  memberAmong id name (List.range (← memberCount id))

def allMembers (id : Nat) : Visit (List Nat) := do
  (List.range (← memberCount id)).mapM fun index => step id (.member index)

def dereferenced : Nat → Nat → Visit Nat
  | 0, id => do throw (.endlessChain (← shape id).key)
  | reach + 1, id => do
    match (← shape id).kind with
    | .ref => dereferenced reach (← step id .target)
    | .typeAlias => dereferenced reach (← step id .body)
    | _ => return id

def named : Nat → Nat → String → Visit Nat
  | 0, id, _ => do throw (.endlessChain (← shape id).key)
  | reach + 1, id, name => do
    let shape ← shape id
    match shape.kind with
    | .root => step id (.entry name)
    | .object | .arguments => step id (.field name)
    | .typeAlias => named reach (← step id .body) name
    | .ref => named reach (← step id .target) name
    | .nullable => named reach (← step id .inner) name
    | .union => memberNamed id name
    | .array => if name = "items" then step id .items else throw (.unknownProperty shape.key name)
    | .function =>
      if name = "arguments" then step id .arguments
      else if name = "returns" then step id .returns
      else throw (.unknownProperty shape.key name)
    | .primitive | .literal => throw (.noPropertiesOnLeaf shape.key name)

def move (reach id : Nat) : Move → Visit (List Nat)
  | .get name => List.singleton <$> named reach id name
  | .items => List.singleton <$> step id .items
  | .arguments => List.singleton <$> step id .arguments
  | .returns => List.singleton <$> step id .returns
  | .inner => List.singleton <$> step id .inner
  | .body => List.singleton <$> step id .body
  | .target => List.singleton <$> step id .target
  | .concrete => List.singleton <$> dereferenced reach id
  | .member name => List.singleton <$> memberNamed id name
  | .memberAt index => List.singleton <$> step id (.member index)
  | .members => allMembers id

def follow (reach id : Nat) (path : List String) : Visit Nat :=
  path.foldlM (named reach) id

end Visit


/-! ## Walks and visits -/

namespace Arena

variable {arena : Arena} {nodes : List Node} {id : Nat} {node next : Node}

theorem absorb_append (arena : Arena) (before after : List Node) :
    arena.absorb (before ++ after) = (arena.absorb before).absorb after :=
  List.foldl_append

theorem absorb_singleton (h : node.graph.identity = arena.graph.identity) :
    arena.absorb [node] = (arena.enter node).2 :=
  if_pos h

/-- Entering the node of a step is taking the step. -/
theorem Faithful.absorb_step (h : arena.Faithful nodes) (hid : nodes[id]? = some node)
    {step : Step} (hstep : node.child? step = .ok next) :
    arena.absorb [next] = (arena.child id step).2 := by
  have hgraph : next.graph = arena.graph :=
    (Node.graph_of_child? hstep).trans (h.below_of hid).graph_eq
  obtain ⟨site, _, rfl⟩ := Node.child?_eq_ok_iff.mp hstep
  rw [absorb_singleton (congrArg Graph.identity hgraph), enter, Node.trace, descend,
    h.descend_trace hid]

end Arena

namespace Visit

variable {α β γ δ : Type} {arena : Arena} {nodes : List Node} {id : Nat} {node : Node}

/-- A position that stands for a node. -/
def Stands (nodes : List Node) (id : Nat) (node : Node) : Prop :=
  nodes[id]? = some node

theorem Stands.mono {nodes' : List Node} (h : nodes <+: nodes') (hid : Stands nodes id node) :
    Stands nodes' id node := by
  obtain ⟨entered, rfl⟩ := h
  rw [Stands, List.getElem?_append_left (List.getElem?_eq_some_iff.mp hid).1]
  exact hid

/-- The arena and the nodes after a visit are those of the walk. -/
structure Leaves (arena : Arena) (nodes trail : List Node) (arena' : Arena) (nodes' : List Node) :
    Prop where
  absorbed : arena' = arena.absorb trail
  faithful : arena'.Faithful nodes'
  grown : nodes <+: nodes'
  mem_iff : ∀ other, other ∈ nodes' ↔ other ∈ nodes ∨ other ∈ trail
  ne_root : ∀ other ∈ trail, other.trace ≠ []

/-- A visit goes as a walk does; `like` says which of their values are alike. -/
def Mirrors (like : List Node → α → β → Prop) (arena : Arena) (nodes : List Node)
    (visit : Visit α) (walk : Walk β) : Prop :=
  ∃ nodes', Leaves arena nodes walk.trail (visit arena).2 nodes' ∧
    Except.Agree (like nodes') (visit arena).1 walk.result

namespace Leaves

theorem refl (h : arena.Faithful nodes) : Leaves arena nodes [] arena nodes where
  absorbed := rfl
  faithful := h
  grown := List.prefix_rfl
  mem_iff other := by simp
  ne_root := nofun

theorem trans {arena' arena'' : Arena} {nodes' nodes'' before after : List Node}
    (h : Leaves arena nodes before arena' nodes') (h' : Leaves arena' nodes' after arena'' nodes'') :
    Leaves arena nodes (before ++ after) arena'' nodes'' where
  absorbed := by rw [h'.absorbed, h.absorbed, Arena.absorb_append]
  faithful := h'.faithful
  grown := h.grown.trans h'.grown
  mem_iff other := by rw [h'.mem_iff, h.mem_iff, List.mem_append, or_assoc]
  ne_root other hother := by
    rcases List.mem_append.mp hother with hother | hother
    · exact h.ne_root other hother
    · exact h'.ne_root other hother

end Leaves

theorem Mirrors.pure {like : List Node → α → β → Prop} (h : arena.Faithful nodes) {a : α} {b : β}
    (hlike : like nodes a b) : Mirrors like arena nodes (pure a) (pure b) :=
  ⟨nodes, .refl h, .ok hlike⟩

theorem Mirrors.throw {like : List Node → α → β → Prop} (h : arena.Faithful nodes) (error : Error) :
    Mirrors like arena nodes (throw error) (Traced.fail error) :=
  ⟨nodes, .refl h, .error error⟩

theorem Mirrors.bind {like : List Node → α → β → Prop} {like' : List Node → γ → δ → Prop}
    {visit : Visit α} {walk : Walk β} {f : α → Visit γ} {g : β → Walk δ}
    (h : Mirrors like arena nodes visit walk)
    (hf : ∀ (arena' : Arena) (nodes' : List Node) a b, arena'.Faithful nodes' → nodes <+: nodes' →
      like nodes' a b → Mirrors like' arena' nodes' (f a) (g b)) :
    Mirrors like' arena nodes (visit >>= f) (walk >>= g) := by
  obtain ⟨nodes', hleaves, hagree⟩ := h
  have hvisit : (visit >>= f) arena = match visit arena with
      | (.ok a, arena') => f a arena'
      | (.error error, arena') => (.error error, arena') := by
    change ExceptT.bindCont f (visit arena).1 (visit arena).2 = _
    rcases visit arena with ⟨_ | _, _⟩ <;> rfl
  rcases hv : visit arena with ⟨result, arena'⟩
  rw [hv] at hvisit hleaves hagree
  generalize hw : walk.result = outcome at hagree
  cases hagree with
  | error error =>
    refine ⟨nodes', ?_⟩
    rw [hvisit, Traced.bind_of_error hw]
    exact ⟨hleaves, .error error⟩
  | @ok a b hlike =>
    obtain ⟨nodes'', hleaves', hagree'⟩ := hf _ _ _ _ hleaves.faithful hleaves.grown hlike
    refine ⟨nodes'', ?_⟩
    rw [hvisit, Traced.bind_of_ok hw]
    exact ⟨hleaves.trans hleaves', hagree'⟩

theorem Mirrors.map {like : List Node → α → β → Prop} {like' : List Node → γ → δ → Prop}
    {visit : Visit α} {walk : Walk β} {f : α → γ} {g : β → δ}
    (h : Mirrors like arena nodes visit walk)
    (hf : ∀ nodes' a b, like nodes' a b → like' nodes' (f a) (g b)) :
    Mirrors like' arena nodes (f <$> visit) (g <$> walk) := by
  rw [map_eq_pure_bind, map_eq_pure_bind]
  exact h.bind fun _ _ _ _ hfaithful _ hlike => .pure hfaithful (hf _ _ _ hlike)

theorem Mirrors.read {like : List Node → α → β → Prop} (h : arena.Faithful nodes)
    (hid : nodes[id]? = some node) {f : Structure → Visit α} {walk : Walk β}
    (hf : Mirrors like arena nodes (f node.shape) walk) :
    Mirrors like arena nodes (shape id >>= f) walk := by
  have hread : (shape id >>= f) arena = f node.shape arena := by
    rw [Node.shape, ← h.site hid]
    rfl
  obtain ⟨nodes', hleaves, hagree⟩ := hf
  refine ⟨nodes', ?_⟩
  rw [hread]
  exact ⟨hleaves, hagree⟩

section Walks

variable (h : arena.Faithful nodes) (hid : nodes[id]? = some node)

include h hid

theorem mirrors_step (taken : Step) :
    Mirrors Stands arena nodes (step id taken) (node.step taken) := by
  unfold Node.step
  cases hstep : node.child? taken with
  | error error =>
    refine ⟨nodes, ?_⟩
    rw [step, h.child_of_error hid hstep]
    exact ⟨.refl h, .error error⟩
  | ok next =>
    obtain ⟨child, nodes', hchild, hstands, hfaithful, hgrown, hmem⟩ := h.child_of_ok hid hstep
    refine ⟨nodes', ⟨(h.absorb_step hid hstep).symm, hfaithful, hgrown, ?_, ?_⟩, ?_⟩
    · intro other
      rw [hmem, List.mem_singleton]
    · intro other hother
      cases List.mem_singleton.mp hother
      obtain ⟨site, _, rfl⟩ := Node.child?_eq_ok_iff.mp hstep
      exact List.cons_ne_nil _ _
    · rw [step, hchild]
      exact .ok hstands

theorem mirrors_memberAmong (name : String) (indexes : List Nat) :
    Mirrors Stands arena nodes (memberAmong id name indexes) (node.memberAmong name indexes) := by
  induction indexes generalizing arena nodes with
  | nil => exact .read h hid (.throw h _)
  | cons index rest ih =>
    refine (mirrors_step h hid (.member index)).bind fun _ _ _ _ h' hgrown hmember => ?_
    refine .read h' hmember ?_
    split
    · exact .pure h' hmember
    · exact ih h' (Stands.mono hgrown hid)

theorem Mirrors.memberCount {like : List Node → α → β → Prop} {f : Nat → Visit α} {walk : Walk β}
    (hf : Mirrors like arena nodes (f node.memberCount) walk) :
    Mirrors like arena nodes (memberCount id >>= f) walk := by
  unfold Visit.memberCount
  rw [bind_assoc]
  refine .read h hid ?_
  unfold Node.memberCount at hf
  split
  · next members heq =>
    rw [heq] at hf
    rwa [pure_bind]
  · next hne =>
    split at hf
    · next members heq => exact absurd heq (hne _ _)
    · rwa [pure_bind]

theorem mirrors_memberNamed (name : String) :
    Mirrors Stands arena nodes (memberNamed id name) (node.memberNamed name) :=
  .memberCount h hid (mirrors_memberAmong h hid name _)

theorem mirrors_allMembers :
    Mirrors (fun nodes => List.Forall₂ (Stands nodes)) arena nodes (allMembers id)
      node.allMembers := by
  refine .memberCount h hid ?_
  unfold Node.allMembers
  induction List.range node.memberCount generalizing arena nodes with
  | nil => exact .pure h .nil
  | cons index rest ih =>
    rw [List.mapM_cons, List.mapM_cons]
    refine (mirrors_step h hid (.member index)).bind fun _ _ _ _ h' hgrown hmember => ?_
    refine (ih h' (Stands.mono hgrown hid)).bind fun _ _ _ _ h'' hgrown' hothers => ?_
    exact .pure h'' (.cons (Stands.mono hgrown' hmember) hothers)

omit hid in
theorem mirrors_dereferenced (reach : Nat) (hid : nodes[id]? = some node) :
    Mirrors Stands arena nodes (dereferenced reach id) (node.dereferenced reach) := by
  induction reach generalizing arena nodes id node with
  | zero => exact .read h hid (.throw h _)
  | succ reach ih =>
    unfold dereferenced Node.dereferenced
    refine .read h hid ?_
    unfold Node.kind
    cases node.shape.kind with
    | ref => exact (mirrors_step h hid .target).bind fun _ _ _ _ h' _ hnext => ih h' hnext
    | typeAlias => exact (mirrors_step h hid .body).bind fun _ _ _ _ h' _ hnext => ih h' hnext
    | _ => exact .pure h hid

omit hid in
theorem mirrors_named (reach : Nat) (hid : nodes[id]? = some node) (name : String) :
    Mirrors Stands arena nodes (named reach id name) (node.named reach name) := by
  induction reach generalizing arena nodes id node with
  | zero => exact .read h hid (.throw h _)
  | succ reach ih =>
    unfold named Node.named
    refine .read h hid ?_
    unfold Node.kind Node.key
    cases node.shape.kind with
    | root => exact mirrors_step h hid _
    | object | arguments => exact mirrors_step h hid _
    | ref => exact (mirrors_step h hid .target).bind fun _ _ _ _ h' _ hnext => ih h' hnext
    | typeAlias => exact (mirrors_step h hid .body).bind fun _ _ _ _ h' _ hnext => ih h' hnext
    | nullable => exact (mirrors_step h hid .inner).bind fun _ _ _ _ h' _ hnext => ih h' hnext
    | union => exact mirrors_memberNamed h hid name
    | array =>
      dsimp only
      split
      · exact mirrors_step h hid _
      · exact .throw h _
    | function =>
      dsimp only
      split
      · exact mirrors_step h hid _
      · split
        · exact mirrors_step h hid _
        · exact .throw h _
    | primitive | literal => exact .throw h _

omit hid in
theorem mirrors_follow (reach : Nat) (hid : nodes[id]? = some node) (path : List String) :
    Mirrors Stands arena nodes (follow reach id path) (node.follow reach path) := by
  unfold follow Node.follow
  induction path generalizing arena nodes id node with
  | nil => exact .pure h hid
  | cons name rest ih =>
    rw [List.foldlM_cons, List.foldlM_cons]
    exact (mirrors_named h reach hid name).bind fun _ _ _ _ h' _ hnext => ih h' hnext

omit h hid in
theorem Mirrors.singleton {visit : Visit Nat} {walk : Walk Node}
    (h : Mirrors Stands arena nodes visit walk) :
    Mirrors (fun nodes => List.Forall₂ (Stands nodes)) arena nodes (List.singleton <$> visit)
      (List.singleton <$> walk) :=
  h.map fun _ _ _ hstands => .cons hstands .nil

/-- A move through the arena goes as the move without one. -/
theorem mirrors_move (reach : Nat) (asked : Move) :
    Mirrors (fun nodes => List.Forall₂ (Stands nodes)) arena nodes (move reach id asked)
      (node.move reach asked) := by
  cases asked with
  | get name => exact (mirrors_named h reach hid name).singleton
  | items | arguments | returns | inner | body | target | memberAt =>
    exact (mirrors_step h hid _).singleton
  | concrete => exact (mirrors_dereferenced h reach hid).singleton
  | member name => exact (mirrors_memberNamed h hid name).singleton
  | members => exact mirrors_allMembers h hid

end Walks

end Visit

end PathQuery
