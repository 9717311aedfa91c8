import Mathlib.Data.List.Dedup
import PathQuery.Proofs.Graph.Visit
import PathQuery.Proofs.Structure.Parts

/-!
# Navigation sessions

In a session calls are made on the handles obtained so far. Through an arena a handle is a position
(`Graph.session`), without one it is a node, and every step is taken anew (`Graph.tour`). Each call
keeps both ways in step (`Paired.serve`), and so does every session (`Graph.paired_session`).
-/

set_option autoImplicit false

namespace PathQuery

inductive Ask where
  | move (move : Move)
  | follow (path : List String)
  | parent

def Visit.ask (reach id : Nat) : Ask → Visit (List Nat)
  | .move move => Visit.move reach id move
  | .follow path => List.singleton <$> Visit.follow reach id path
  | .parent => fun arena => (.ok (arena.parent? id).toList, arena)

def Node.ask (reach : Nat) (node : Node) : Ask → Walk (List Node)
  | .move move => node.move reach move
  | .follow path => List.singleton <$> node.follow reach path
  | .parent => return node.parent?.toList

/-- Which of the handles obtained so far is asked, and for what. -/
structure Call where
  handle : Nat
  ask : Ask

/-- The handles obtained so far, and what each call gave. -/
structure Ledger (α : Type) where
  handles : List α
  outcomes : List (Except Error (List α))

def Ledger.record {α : Type} (ledger : Ledger α) (outcome : Except Error (List α)) : Ledger α where
  handles := ledger.handles ++ outcome.toOption.getD []
  outcomes := ledger.outcomes ++ [outcome]

/-- Answers a call through the arena; there is no call on a handle that was not obtained. -/
def Arena.serve (reach : Nat) (state : Arena × Ledger Nat) (call : Call) : Arena × Ledger Nat :=
  match state.2.handles[call.handle]? with
  | some id =>
    let (outcome, arena) := Visit.ask reach id call.ask state.1
    (arena, state.2.record outcome)
  | none => state

/-- Answers a call without an arena, and adds to the nodes that were come to. -/
def Node.serve (reach : Nat) (state : List Node × Ledger Node) (call : Call) :
    List Node × Ledger Node :=
  match state.2.handles[call.handle]? with
  | some node =>
    let walk := node.ask reach call.ask
    (state.1 ++ walk.trail, state.2.record walk.result)
  | none => state

namespace Graph

def session (graph : Graph) (reach : Nat) (calls : List Call) : Arena × Ledger Nat :=
  calls.foldl (Arena.serve reach) (.ofGraph graph, ⟨[0], []⟩)

def tour (graph : Graph) (reach : Nat) (calls : List Call) : List Node × Ledger Node :=
  calls.foldl (Node.serve reach) ([], ⟨[graph.root], []⟩)

end Graph

/-! ## Calls in step -/

open Visit (Stands Mirrors Leaves)

variable {graph : Graph} {reach : Nat} {arena : Arena} {nodes : List Node} {id : Nat} {node : Node}

theorem Arena.Faithful.parent?_stands (h : arena.Faithful nodes) (hid : nodes[id]? = some node) :
    List.Forall₂ (Stands nodes) (arena.parent? id).toList node.parent?.toList := by
  rw [Arena.parent?_eq]
  cases node with
  | root other =>
    rw [h.origin_root hid]
    exact .nil
  | child parent step site =>
    obtain ⟨before, _, horigin, hbefore⟩ := h.origin_child hid
    rw [horigin]
    exact .cons hbefore .nil

theorem mirrors_ask (h : arena.Faithful nodes) (hid : nodes[id]? = some node) (ask : Ask) :
    Mirrors (fun nodes => List.Forall₂ (Stands nodes)) arena nodes (Visit.ask reach id ask)
      (node.ask reach ask) := by
  cases ask with
  | move asked => exact Visit.mirrors_move h hid reach asked
  | follow path => exact (Visit.mirrors_follow h reach hid path).singleton
  | parent => exact ⟨nodes, .refl h, .ok (h.parent?_stands hid)⟩

theorem rel_getElem? {α β : Type} {like : α → β → Prop} {as : List α} {bs : List β}
    (h : List.Forall₂ like as bs) (index : Nat) : Option.Rel like as[index]? bs[index]? := by
  induction h generalizing index with
  | nil => exact .none
  | cons hfirst _ ih =>
    cases index with
    | zero => exact .some hfirst
    | succ index => exact ih index

/-- The handles and outcomes of one ledger are like those of the other. -/
structure Ledger.Agrees {α β : Type} (like : α → β → Prop) (ledger : Ledger α)
    (account : Ledger β) : Prop where
  handles : List.Forall₂ like ledger.handles account.handles
  outcomes : List.Forall₂ (Except.Agree (List.Forall₂ like)) ledger.outcomes account.outcomes

namespace Ledger.Agrees

variable {α β : Type} {like like' : α → β → Prop} {ledger : Ledger α} {account : Ledger β}

theorem imp (h : ledger.Agrees like account) (himp : ∀ a b, like a b → like' a b) :
    ledger.Agrees like' account where
  handles := h.handles.imp himp
  outcomes := h.outcomes.imp fun _ _ hagree => hagree.imp fun _ _ hlike => hlike.imp himp

theorem record (h : ledger.Agrees like account) {outcome : Except Error (List α)}
    {outcome' : Except Error (List β)} (hagree : Except.Agree (List.Forall₂ like) outcome outcome') :
    (ledger.record outcome).Agrees like (account.record outcome') := by
  constructor
  case handles =>
    apply List.rel_append h.handles
    cases hagree with
    | ok hlike => exact hlike
    | error e => exact .nil
  case outcomes => exact List.rel_append h.outcomes (.cons hagree .nil)

end Ledger.Agrees

/-- The same calls were answered through an arena and without one. -/
structure Paired (graph : Graph) (nodes : List Node) (state : Arena × Ledger Nat)
    (state' : List Node × Ledger Node) : Prop where
  leaves : Leaves (.ofGraph graph) [graph.root] state'.1 state.1 nodes
  agrees : state.2.Agrees (Stands nodes) state'.2

namespace Paired

variable {state : Arena × Ledger Nat} {state' : List Node × Ledger Node}

theorem start (graph : Graph) :
    Paired graph [graph.root] (.ofGraph graph, ⟨[0], []⟩) ([], ⟨[graph.root], []⟩) where
  leaves := .refl (Arena.faithful_ofGraph graph)
  agrees := ⟨.cons rfl .nil, .nil⟩

theorem serve (h : Paired graph nodes state state') (call : Call) :
    ∃ nodes', nodes <+: nodes' ∧ Paired graph nodes' (Arena.serve reach state call)
      (Node.serve reach state' call) := by
  have hhandle := rel_getElem? h.agrees.handles call.handle
  unfold Arena.serve Node.serve
  generalize state.2.handles[call.handle]? = asked at hhandle ⊢
  generalize state'.2.handles[call.handle]? = asked' at hhandle ⊢
  cases hhandle with
  | none => exact ⟨nodes, List.prefix_rfl, h⟩
  | @some id node hstands =>
    obtain ⟨nodes', hleaves, hagree⟩ :=
      mirrors_ask h.leaves.faithful hstands call.ask
    refine ⟨nodes', hleaves.grown, h.leaves.trans hleaves, ?_⟩
    have hgrown := h.agrees.imp fun _ _ hstands => Visit.Stands.mono hleaves.grown hstands
    exact hgrown.record hagree

theorem foldl (h : Paired graph nodes state state') (calls : List Call) :
    ∃ nodes', nodes <+: nodes' ∧ Paired graph nodes' (calls.foldl (Arena.serve reach) state)
      (calls.foldl (Node.serve reach) state') := by
  induction calls generalizing nodes state state' with
  | nil => exact ⟨nodes, List.prefix_rfl, h⟩
  | cons call rest ih =>
    obtain ⟨nodes', hgrown, h'⟩ := h.serve call
    obtain ⟨nodes'', hgrown', h''⟩ := ih h'
    exact ⟨nodes'', hgrown.trans hgrown', h''⟩

end Paired

theorem Graph.paired_session (graph : Graph) (reach : Nat) (calls : List Call) :
    ∃ nodes, Paired graph nodes (graph.session reach calls) (graph.tour reach calls) := by
  obtain ⟨nodes, _, h⟩ := (Paired.start graph).foldl calls
  exact ⟨nodes, h⟩

end PathQuery
