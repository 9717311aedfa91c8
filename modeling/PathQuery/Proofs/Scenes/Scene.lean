import PathQuery.Proofs.Confinement.Run
import PathQuery.Proofs.Query.Inputs
import PathQuery.Proofs.Evaluation.Run
import PathQuery.Proofs.Scenes.Hosts

/-!
# Scenes

A scene is how a context came about: what was pushed for it, one moment after another, from the seed on
(`Scene.context`). `Scene.Arrives` says which scenes a query comes to a node with, and `Scene.Within`
which ones its hosts are shown. From a scene it can be read where a node is resolved, and a context tells
the same (`Scene.sighted`): nothing is in it but what was pushed on the way.
-/

set_option autoImplicit false

namespace PathQuery

inductive Scene where
  | seed (context : Context)
  /-- A node becomes the active one. -/
  | enter (before : Scene) (node : Node) (input : Option Json)
  /-- A host of the node adds something. -/
  | add (before : Scene) (node : Node) (contribution : Contribution)
  | put (before : Scene) (value : Option Json)
  /-- The marks of a node are passed on to the one behind it. -/
  | behind (before : Scene) (node child : Node)
  /-- Inside an object, at one of its members. -/
  | member (before : Scene) (whole : Json) (value : Option Json)
  /-- Inside a list, at one of its items. -/
  | item (before : Scene) (list : List Json) (index : Nat) (value : Json)

namespace Scene

def context : Scene → Context
  | seed context => context
  | enter before node input => Descent.attach node input (before.context.enter node)
  | add before node contribution => ⟨contribution.layers node ++ before.context.layers⟩
  | put before value => before.context.setValue value
  | behind before node child => Descent.passMarks node child before.context
  | member before whole value => (before.context.push .parent whole).setValue value
  | item before list index value =>
    ((before.context.push .parent (.array list)).push .index index).setValue (some value)

/-- The settled value of the object or list that encloses what is resolved. -/
def parent? : Scene → Option Json
  | seed _ => none
  | enter before _ _ | add before _ _ | put before _ | behind before _ _ => before.parent?
  | member _ whole _ => some whole
  | item _ list _ _ => some (.array list)

/-- The positions of the list items that enclose what is resolved, the innermost first. -/
def positions : Scene → List Nat
  | seed _ => []
  | enter before _ _ | add before _ _ | put before _ | behind before _ _ | member before _ _ =>
    before.positions
  | item before _ index _ => index :: before.positions

/-- The position of the list item that encloses what is resolved. -/
def index? (scene : Scene) : Option Nat := scene.positions.head?

/-- The scene and all that came before it. -/
def moments (scene : Scene) : List Scene :=
  scene :: match scene with
    | seed _ => []
    | enter before _ _ | add before _ _ | put before _ | behind before _ _ | member before _ _
    | item before _ _ _ => before.moments

/-- What is pushed at the last moment, the latest first. -/
def pushed : Scene → List Layer
  | seed context => context.layers
  | enter _ node input =>
    (input.map fun input => ⟨.input, some node, input⟩).toList ++ [⟨.node, none, node⟩]
  | add _ node contribution => contribution.layers node
  | put _ value => [⟨.value, none, value⟩]
  | behind before node child =>
    (if before.context.isSliced node then [⟨.sliced, some child, ()⟩] else []) ++
      if before.context.fillsEmpty node then [⟨.fillEmpty, some child, ()⟩] else []
  | member _ whole value => [⟨.value, none, value⟩, ⟨.parent, none, whole⟩]
  | item _ list index value =>
    [⟨.value, none, some value⟩, ⟨.index, none, index⟩, ⟨.parent, none, .array list⟩]

/-- Everything that hosts add, one after another. -/
def extend (scene : Scene) (node : Node) (added : List Contribution) : Scene :=
  added.foldl (fun scene contribution => .add scene node contribution) scene

/-! ## Where scenes come about -/

/-- What the hosts of a node are shown once a query has come to it: the node is active, and nothing but
hosts of its own have added anything since. -/
inductive Within (arrival : Scene) (node : Node) : Scene → Prop where
  | enter (input : Option Json) : Within arrival node (.enter arrival node input)
  | add {scene : Scene} (before : Within arrival node scene) (contribution : Contribution) :
      Within arrival node (.add scene node contribution)
  | put {scene : Scene} (before : Within arrival node scene) (value : Option Json) :
      Within arrival node (.put scene value)

/-- A query comes to a node: it begins at the root, or it goes on from a node above. The values of
objects, lists and unions that it goes into are settled. -/
inductive Arrives (setting : Setting) (seed : Context) : Scene → Node → Prop where
  | seed : Arrives setting seed (.seed seed) setting.graph.root
  | behind {arrival scene : Scene} {node child : Node} {step : Step}
      (above : Arrives setting seed arrival node) (within : Within arrival node scene)
      (kind : node.kind ≠ .object ∧ node.kind ≠ .array) (next : node.child? step = .ok child) :
      Arrives setting seed (.behind scene node child) child
  | member {arrival scene : Scene} {node child : Node} {optional : Bool} {whole : Json}
      {name : String} (above : Arrives setting seed arrival node)
      (within : Within arrival node scene) (kind : node.kind = .object)
      (settled : Descent.settle optional node scene.context = .ok (some whole))
      (next : node.child? (.field name) = .ok child) :
      Arrives setting seed (.member scene whole (whole.member? name)) child
  | item {arrival scene : Scene} {node child : Node} {optional : Bool} {list : List Json}
      {index : Nat} {value : Json} (above : Arrives setting seed arrival node)
      (within : Within arrival node scene) (kind : node.kind = .array)
      (settled : Descent.settle optional node scene.context = .ok (some (.array list)))
      (found : list[index]? = some value) (next : node.child? .items = .ok child) :
      Arrives setting seed (.item scene list index value) child
  | matched {arrival scene : Scene} {node child : Node} {optional : Bool} {value : Json}
      (above : Arrives setting seed arrival node) (within : Within arrival node scene)
      (settled : Descent.settle optional node scene.context = .ok (some value))
      (next : node.MemberOf child) : Arrives setting seed (.put scene (some value)) child

/-- A scene of a run at a node, as a query comes to it or as its hosts are shown it. -/
def At (setting : Setting) (seed : Context) (moment : Scene) (node : Node) : Prop :=
  Arrives setting seed moment node ∨
    ∃ arrival, Arrives setting seed arrival node ∧ Within arrival node moment

/-- What holds of a context in a scene of a node that a query has come to: where it is resolved, and
that everything in it was pushed on the way, at the node or above it, and inside no other items. -/
structure Sighted (setting : Setting) (seed : Context) (arrival : Scene) (node : Node)
    (scene : Scene) : Prop where
  arrives : Arrives setting seed arrival node
  within : Within arrival node scene
  active : scene.context.activeNode = .ok node
  parent : scene.context.get? .parent = arrival.parent?
  index : scene.context.get? .index = arrival.index?
  layers : scene.context.layers = scene.moments.flatMap pushed
  line : ∀ moment ∈ scene.moments, ∃ other ∈ node.ancestry, At setting seed moment other
  items : ∀ moment ∈ scene.moments, moment.positions <:+ scene.positions

end Scene

/-- The context holds values and data of the host only. -/
def Context.Bare (context : Context) : Prop :=
  ∀ layer ∈ context.layers, layer.key = .value ∨ ∃ name, layer.key = .host name

theorem Context.Bare.get?_eq_none {context : Context} (h : context.Bare) {key : Key}
    (hkey : key.positional = true) (scope : Option Node) : context.get? key scope = none := by
  refine Context.get?_eq_none (fun layer hlayer heq => ?_) scope
  rw [← heq] at hkey
  rcases h layer hlayer with hvalue | ⟨name, hname⟩
  · rw [hvalue] at hkey
    cases hkey
  · rw [hname] at hkey
    cases hkey

theorem Context.get?_setValue_of_positional {key : Key} (h : key.positional = true)
    (context : Context) (value : Option Json) :
    (context.setValue value).get? key = context.get? key := by
  have hvalue : Key.value ≠ key := by
    rintro rfl
    cases h
  exact context.get?_push_of_ne hvalue value none none

namespace Scene

/-! ## What is pushed -/

theorem layers_passMarks (context : Context) (node child : Node) :
    (Descent.passMarks node child context).layers =
      ((if context.isSliced node then [⟨.sliced, some child, ()⟩] else []) ++
        if context.fillsEmpty node then [⟨.fillEmpty, some child, ()⟩] else []) ++
          context.layers := by
  have hsliced : (context.push .fillEmpty () (some child)).isSliced node = context.isSliced node := by
    rw [Context.isSliced, context.get?_push_of_ne (by decide : Key.fillEmpty ≠ .sliced)]
    rfl
  unfold Descent.passMarks
  cases context.fillsEmpty node with
  | true =>
    simp only [if_true, hsliced]
    split <;> rfl
  | false =>
    simp only [Bool.false_eq_true, if_false]
    split <;> rfl

theorem layers_context (scene : Scene) :
    scene.context.layers = scene.moments.flatMap pushed := by
  induction scene with
  | seed context => exact (List.append_nil _).symm
  | enter before node input ih =>
    rw [moments, List.flatMap_cons, ← ih]
    cases input <;> rfl
  | behind before node child ih =>
    rw [moments, List.flatMap_cons, ← ih]
    exact layers_passMarks before.context node child
  | add before node contribution ih | put before value ih | member before whole value ih
  | item before list index value ih =>
    rw [moments, List.flatMap_cons, ← ih]
    rfl

/-- What has happened in a scene has happened inside the items that the scene is inside of. -/
theorem positions_suffix {scene moment : Scene} (h : moment ∈ scene.moments) :
    moment.positions <:+ scene.positions := by
  induction scene with
  | seed context =>
    cases List.mem_singleton.mp h
    exact List.suffix_rfl
  | enter before node input ih | add before node contribution ih | put before value ih
  | behind before node child ih | member before whole value ih =>
    rcases List.mem_cons.mp h with rfl | h
    · exact List.suffix_rfl
    · exact ih h
  | item before list index value ih =>
    rcases List.mem_cons.mp h with rfl | h
    · exact List.suffix_rfl
    · exact (ih h).trans (List.suffix_cons _ _)

/-- Marks are not where something is resolved. -/
theorem get?_passMarks {key : Key} (h : key.positional = true) (context : Context)
    (node child : Node) : (Descent.passMarks node child context).get? key = context.get? key := by
  have hmarks : ∀ layer ∈ (if context.isSliced node then [(⟨.sliced, some child, ()⟩ : Layer)] else []) ++
      (if context.fillsEmpty node then [(⟨.fillEmpty, some child, ()⟩ : Layer)] else []),
      layer.key ≠ key := by
    rintro layer hlayer rfl
    rcases List.mem_append.mp hlayer with hlayer | hlayer
    all_goals
      split at hlayer
      · cases List.mem_singleton.mp hlayer
        cases h
      · cases hlayer
  have hlayers := layers_passMarks context node child
  calc
    (Descent.passMarks node child context).get? key =
        (⟨(Descent.passMarks node child context).layers⟩ : Context).get? key := rfl
    _ = context.get? key := by rw [hlayers, Context.get?_append hmarks]

section

variable {arrival scene : Scene} {node : Node}

theorem Within.get?_node (h : Within arrival node scene) : scene.context.get? .node = some node := by
  induction h with
  | enter input => exact arrival.context.node_attach_enter node input
  | add _ contribution ih => exact (contribution.get?_layers rfl).trans ih
  | put _ value ih => exact (Context.get?_setValue_of_positional rfl _ value).trans ih

/-- The hosts of a node do not change where it is resolved. -/
theorem Within.get?_eq {key : Key} (hkey : key.positional = true) (hnode : key ≠ .node)
    (h : Within arrival node scene) : scene.context.get? key = arrival.context.get? key := by
  have hinput : key ≠ .input := by
    rintro rfl
    cases hkey
  induction h with
  | enter input =>
    exact (Descent.get?_attach_of_ne _ _ input hinput none).trans
      (arrival.context.get?_push_of_ne hnode.symm node none none)
  | add _ contribution ih => exact (contribution.get?_layers hkey).trans ih
  | put _ value ih => exact (Context.get?_setValue_of_positional hkey _ value).trans ih

theorem Within.parent? (h : Within arrival node scene) : scene.parent? = arrival.parent? := by
  induction h with
  | enter => rfl
  | add _ _ ih | put _ _ ih => exact ih

theorem Within.positions (h : Within arrival node scene) : scene.positions = arrival.positions := by
  induction h with
  | enter => rfl
  | add _ _ ih | put _ _ ih => exact ih

theorem Within.index? (h : Within arrival node scene) : scene.index? = arrival.index? :=
  congrArg List.head? h.positions

theorem Within.extend (h : Within arrival node scene) (added : List Contribution) :
    Within arrival node (scene.extend node added) := by
  induction added generalizing scene with
  | nil => exact h
  | cons first rest ih => exact ih (h.add first)

theorem Within.apply (h : Within arrival node scene) (added : List Contribution) :
    added.foldlM Contribution.apply scene.context = .ok (scene.extend node added).context := by
  induction added generalizing scene with
  | nil => rfl
  | cons first rest ih =>
    rw [List.foldlM_cons, Contribution.apply_eq h.get?_node]
    exact ih (h.add first)

/-- Everything in between was a scene of the same node. -/
theorem Within.mem_moments (h : Within arrival node scene) {moment : Scene}
    (hmoment : moment ∈ scene.moments) :
    moment ∈ arrival.moments ∨ Within arrival node moment := by
  induction h with
  | enter input =>
    rcases List.mem_cons.mp hmoment with rfl | hmoment
    · exact .inr (.enter input)
    · exact .inl hmoment
  | add before contribution ih =>
    rcases List.mem_cons.mp hmoment with rfl | hmoment
    · exact .inr (before.add contribution)
    · exact ih hmoment
  | put before value ih =>
    rcases List.mem_cons.mp hmoment with rfl | hmoment
    · exact .inr (before.put value)
    · exact ih hmoment

end

section

variable {setting : Setting} {seed : Context} {arrival scene : Scene} {node : Node}

theorem Arrives.get?_parent (h : Arrives setting seed arrival node) (hseed : seed.Bare) :
    arrival.context.get? .parent = arrival.parent? := by
  have kept {arrival scene : Scene} {node : Node} (within : Within arrival node scene)
      (ih : arrival.context.get? .parent = arrival.parent?) :
      scene.context.get? .parent = scene.parent? :=
    (within.get?_eq rfl (by decide)).trans (ih.trans within.parent?.symm)
  have shown := Context.get?_setValue_of_positional (rfl : Key.parent.positional = true)
  induction h with
  | seed => exact hseed.get?_eq_none rfl none
  | behind _ within _ _ ih => exact (get?_passMarks rfl _ _ _).trans (kept within ih)
  | @member _ scene _ _ _ whole =>
    exact (shown _ _).trans (scene.context.get?_push_self .parent whole)
  | @item _ scene _ _ _ list index =>
    refine (shown _ _).trans ?_
    refine (Context.get?_push_of_ne _ (by decide : Key.index ≠ .parent) index none none).trans ?_
    exact scene.context.get?_push_self .parent (.array list)
  | matched _ within _ _ ih => exact (shown _ _).trans (kept within ih)

theorem Arrives.get?_index (h : Arrives setting seed arrival node) (hseed : seed.Bare) :
    arrival.context.get? .index = arrival.index? := by
  have kept {arrival scene : Scene} {node : Node} (within : Within arrival node scene)
      (ih : arrival.context.get? .index = arrival.index?) :
      scene.context.get? .index = scene.index? :=
    (within.get?_eq rfl (by decide)).trans (ih.trans within.index?.symm)
  have shown := Context.get?_setValue_of_positional (rfl : Key.index.positional = true)
  induction h with
  | seed => exact hseed.get?_eq_none rfl none
  | behind _ within _ _ ih => exact (get?_passMarks rfl _ _ _).trans (kept within ih)
  | @member _ scene _ _ _ whole _ _ within _ _ _ ih =>
    refine (shown _ _).trans ?_
    refine (scene.context.get?_push_of_ne (by decide : Key.parent ≠ .index) whole none none).trans ?_
    exact kept within ih
  | item => exact (shown _ _).trans (Context.get?_push_self _ .index _)
  | matched _ within _ _ ih => exact (shown _ _).trans (kept within ih)

theorem ancestry_subset_of_child? {child : Node} {step : Step} (h : node.child? step = .ok child) :
    node.ancestry ⊆ child.ancestry := by
  obtain ⟨site, _, rfl⟩ := Node.child?_eq_ok_iff.mp h
  exact List.subset_cons_self _ _

theorem Within.line (h : Within arrival node scene) (harrives : Arrives setting seed arrival node)
    (hline : ∀ moment ∈ arrival.moments, ∃ other ∈ node.ancestry, At setting seed moment other)
    {moment : Scene} (hmoment : moment ∈ scene.moments) :
    ∃ other ∈ node.ancestry, At setting seed moment other := by
  rcases h.mem_moments hmoment with hmoment | hwithin
  · exact hline moment hmoment
  · exact ⟨node, node.mem_ancestry_self, .inr ⟨arrival, harrives, hwithin⟩⟩

/-- All that has happened in a scene has happened at the node or above it. -/
theorem Arrives.line (h : Arrives setting seed arrival node) :
    ∀ moment ∈ arrival.moments, ∃ other ∈ node.ancestry, At setting seed moment other := by
  -- what the hosts of a node were shown is left behind at the node, and one moment is added below it
  have next {arrival scene last : Scene} {node child : Node} {step : Step}
      (above : Arrives setting seed arrival node) (within : Within arrival node scene)
      (hchild : node.child? step = .ok child) (hlast : Arrives setting seed last child)
      (ih : ∀ moment ∈ arrival.moments, ∃ other ∈ node.ancestry, At setting seed moment other) :
      ∀ moment ∈ last :: scene.moments, ∃ other ∈ child.ancestry, At setting seed moment other := by
    intro moment hmoment
    rcases List.mem_cons.mp hmoment with rfl | hmoment
    · exact ⟨child, child.mem_ancestry_self, .inl hlast⟩
    · obtain ⟨other, hother, hat⟩ := within.line above ih hmoment
      exact ⟨other, ancestry_subset_of_child? hchild hother, hat⟩
  induction h with
  | seed =>
    intro moment hmoment
    cases List.mem_singleton.mp hmoment
    exact ⟨_, Node.mem_ancestry_self _, .inl .seed⟩
  | behind above within kind hchild ih => exact next above within hchild (.behind above within kind hchild) ih
  | member above within kind settled hchild ih =>
    exact next above within hchild (.member above within kind settled hchild) ih
  | item above within kind settled found hchild ih =>
    exact next above within hchild (.item above within kind settled found hchild) ih
  | matched above within settled hmember ih =>
    obtain ⟨index, hchild⟩ := hmember
    exact next above within hchild (.matched above within settled ⟨index, hchild⟩) ih

theorem sighted (hseed : seed.Bare) (harrives : Arrives setting seed arrival node)
    (hwithin : Within arrival node scene) : Sighted setting seed arrival node scene where
  arrives := harrives
  within := hwithin
  active := Context.activeNode_of_get? hwithin.get?_node
  parent := (hwithin.get?_eq rfl (by decide)).trans (harrives.get?_parent hseed)
  index := (hwithin.get?_eq rfl (by decide)).trans (harrives.get?_index hseed)
  layers := scene.layers_context
  line _ hmoment := hwithin.line harrives harrives.line hmoment
  items _ hmoment := positions_suffix hmoment

end

end Scene

end PathQuery
