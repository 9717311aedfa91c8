import Mathlib.Data.List.Dedup
import PathQuery.Proofs.Graph.Session
import PathQuery.Proofs.Structure.Parts

/-!
# The tree that an arena represents

After every session the positions of the arena correspond to sequences of steps from the root, each
with the site that these steps lead to when none of them is looked up (`Graph.represented`). What
was navigated before is found again and enters nothing.
-/

set_option autoImplicit false

namespace PathQuery

open Visit (Stands)

variable {graph : Graph} {reach : Nat} {arena : Arena} {nodes : List Node} {id : Nat}
  {node next : Node}

/-! ## Steps through wrappers -/

/-- Whether a step goes through a reference, an alias or a nullable. -/
def Step.crosses : Step → Bool
  | .target | .body | .inner => true
  | _ => false

namespace Node

/-- Some steps through wrappers, and a last one by name. -/
def Crosses (node next : Node) : Prop :=
  ∃ last crossed, next.trace = last :: (crossed ++ node.trace) ∧ last.crosses = false ∧
    ∀ step ∈ crossed, step.crosses = true

theorem crosses_of_last {last : Step} (h : node.child? last = .ok next)
    (hlast : last.crosses = false) : node.Crosses next :=
  ⟨last, [], trace_of_child? h, hlast, nofun⟩

theorem Crosses.of_step {inner : Node} {first : Step} (hfirst : node.child? first = .ok inner)
    (hcrosses : first.crosses = true) (h : inner.Crosses next) : node.Crosses next := by
  obtain ⟨last, crossed, htrace, hlast, hcrossed⟩ := h
  refine ⟨last, crossed ++ [first], ?_, hlast, ?_⟩
  · rw [htrace, trace_of_child? hfirst, List.append_assoc]
    rfl
  · intro step hstep
    rcases List.mem_append.mp hstep with hstep | hstep
    · exact hcrossed step hstep
    · rw [List.mem_singleton.mp hstep]
      exact hcrosses

theorem crosses_of_named {name : String} (h : (node.named reach name).result = .ok next) :
    node.Crosses next := by
  induction reach generalizing node with
  | zero => cases h
  | succ reach ih =>
    have through {step : Step} (hstep : step.crosses = true)
        (h : (node.step step >>= fun inner => inner.named reach name).result = .ok next) :
        node.Crosses next := by
      rw [Traced.result_bind, result_step] at h
      obtain ⟨inner, hinner, h⟩ := Except.bind_eq_ok_iff.mp h
      exact (ih h).of_step hinner hstep
    have last {step : Step} (hstep : step.crosses = false)
        (h : (node.step step).result = .ok next) : node.Crosses next := by
      rw [result_step] at h
      exact crosses_of_last h hstep
    unfold named at h
    split at h
    · exact last rfl h
    · exact last rfl h
    · exact last rfl h
    · exact through rfl h
    · exact through rfl h
    · exact through rfl h
    · obtain ⟨index, hindex⟩ := memberOf_of_memberAmong h
      exact crosses_of_last hindex rfl
    · split at h
      · exact last rfl h
      · cases h
    · split at h
      · exact last rfl h
      · split at h
        · exact last rfl h
        · cases h
    · cases h
    · cases h

end Node

/-! ## Positions and sequences of steps -/

namespace Arena

/-- A position at the end of the steps to a node, with the site of that node. -/
def Holds (arena : Arena) (id : Nat) (node : Node) : Prop :=
  id < arena.size ∧ arena.trace id = node.trace ∧ arena.site id = node.site

/-- The positions are the sequences of steps that succeeded, and every step goes as one that is not
looked up. -/
structure Represents (arena : Arena) (graph : Graph) (visited : List Node) : Prop where
  find?_iff : ∀ steps id, arena.find? steps = some id ↔ id < arena.size ∧ arena.trace id = steps
  eq_iff : ∀ id < arena.size, ∀ other < arena.size,
    id = other ↔ arena.trace id = arena.trace other
  site : ∀ id < arena.size, ∃ node, graph.node? (arena.trace id) = .ok node ∧
    arena.site id = node.site
  shape_mem : ∀ id < arena.size, (arena.site id).shape ∈ graph.schema.root.parts
  parent : ∀ id < arena.size, ∀ parent, arena.parent? id = some parent →
    parent < id ∧ ∃ step, arena.trace id = step :: arena.trace parent
  child_ok : ∀ id < arena.size, ∀ step node, graph.node? (step :: arena.trace id) = .ok node →
    ∃ child, (arena.child id step).1 = .ok child ∧ (arena.child id step).2.Holds child node
  child_error : ∀ id < arena.size, ∀ step error,
    graph.node? (step :: arena.trace id) = .error error →
      arena.child id step = (.error error, arena)
  size_eq : arena.size = 1 + (visited.map Node.trace).dedup.length

namespace Faithful

variable (h : arena.Faithful nodes)

include h

theorem holds (hid : nodes[id]? = some node) : arena.Holds id node :=
  ⟨h.lt_size hid, h.trace_eq hid, h.site hid⟩

theorem node?_trace (hid : nodes[id]? = some node) :
    arena.graph.node? (arena.trace id) = .ok node := by
  rw [h.trace_eq hid]
  exact (h.below_of hid).node?_trace

/-- The steps to the nodes of an arena are all different. -/
theorem nodup_traces : (nodes.map Node.trace).Nodup := by
  apply List.Nodup.map_on _ h.nodup
  intro a ha b hb htrace
  exact (h.below a ha).eq_of_trace (h.below b hb) htrace

theorem absorb_of_mem {trail : List Node} (htrail : ∀ node ∈ trail, node ∈ nodes) :
    arena.absorb trail = arena := by
  induction trail with
  | nil => rfl
  | cons first rest ih =>
    have hfirst := htrail first List.mem_cons_self
    obtain ⟨id, hid⟩ := List.mem_iff_getElem?.mp hfirst
    have hidentity : first.graph.identity = arena.graph.identity :=
      congrArg Graph.identity (h.below first hfirst).graph_eq
    have hsingle : arena.absorb [first] = arena := by
      rw [absorb_singleton hidentity, enter, h.descend_trace hid]
    calc
      arena.absorb (first :: rest) = (arena.absorb [first]).absorb rest :=
        absorb_append arena [first] rest
      _ = arena.absorb rest := by rw [hsingle]
      _ = arena := ih fun node hnode => htrail node (List.mem_cons_of_mem _ hnode)

end Faithful

end Arena

namespace Visit.Leaves

variable {trail : List Node} (h : Leaves (.ofGraph graph) [graph.root] trail arena nodes)

include h

theorem graph_eq : arena.graph = graph := by
  have hroot : Stands nodes 0 graph.root := Stands.mono h.grown rfl
  have heq : some arena.graph.root = some graph.root := h.faithful.first.symm.trans hroot
  exact Node.root.inj (Option.some.inj heq)

theorem length_eq : nodes.length = 1 + (trail.map Node.trace).dedup.length := by
  have hperm : (nodes.map Node.trace).Perm ([] :: (trail.map Node.trace).dedup) := by
    apply (List.perm_ext_iff_of_nodup h.faithful.nodup_traces ?_).mpr
    · intro steps
      simp only [List.mem_map, List.mem_cons, List.mem_dedup]
      constructor
      · rintro ⟨node, hnode, rfl⟩
        rcases (h.mem_iff node).mp hnode with hroot | hentered
        · cases List.mem_singleton.mp hroot
          exact .inl rfl
        · exact .inr ⟨node, hentered, rfl⟩
      · rintro (rfl | ⟨node, hentered, rfl⟩)
        · exact ⟨graph.root, (h.mem_iff _).mpr (.inl List.mem_cons_self), rfl⟩
        · exact ⟨node, (h.mem_iff _).mpr (.inr hentered), rfl⟩
    · refine List.nodup_cons.mpr ⟨?_, List.nodup_dedup _⟩
      intro hmem
      obtain ⟨node, hentered, htrace⟩ := List.mem_map.mp (List.mem_dedup.mp hmem)
      exact h.ne_root node hentered htrace
  have hlength := hperm.length_eq
  rw [List.length_map, List.length_cons] at hlength
  omega

theorem represents : arena.Represents graph trail where
  find?_iff steps id := by
    constructor
    · intro hfind
      obtain ⟨node, hid, rfl⟩ := h.faithful.node_of_find? hfind
      exact ⟨h.faithful.lt_size hid, h.faithful.trace_eq hid⟩
    · rintro ⟨hlt, htrace⟩
      exact (h.faithful.find?_eq_some_iff hlt steps).mpr htrace
  eq_iff id hid other hother := by
    constructor
    · rintro rfl
      rfl
    · intro htrace
      have hfind := (h.faithful.find?_eq_some_iff hid _).mpr rfl
      have hfind' := (h.faithful.find?_eq_some_iff hother _).mpr htrace.symm
      exact Option.some.inj (hfind.symm.trans hfind')
  site id hid := by
    obtain ⟨node, hnode⟩ := h.faithful.exists_node hid
    refine ⟨node, ?_, h.faithful.site hnode⟩
    rw [← h.graph_eq]
    exact h.faithful.node?_trace hnode
  shape_mem id hid := by
    obtain ⟨node, hnode⟩ := h.faithful.exists_node hid
    rw [← h.graph_eq, h.faithful.site hnode]
    exact (h.faithful.below_of hnode).shape_mem_parts
  parent id hid parent hparent := h.faithful.parent_of hid hparent
  child_ok id hid step next hnext := by
    obtain ⟨node, hnode⟩ := h.faithful.exists_node hid
    rw [← h.graph_eq, Graph.node?, h.faithful.node?_trace hnode, Except.ok_bind] at hnext
    obtain ⟨child, nodes', hchild, hstands, hfaithful, _⟩ := h.faithful.child_of_ok hnode hnext
    exact ⟨child, hchild, hfaithful.holds hstands⟩
  child_error id hid step error herror := by
    obtain ⟨node, hnode⟩ := h.faithful.exists_node hid
    rw [← h.graph_eq, Graph.node?, h.faithful.node?_trace hnode, Except.ok_bind] at herror
    exact h.faithful.child_of_error hnode herror
  size_eq := h.faithful.size_eq.trans h.length_eq

end Visit.Leaves

/-! ## Sessions -/

theorem Node.serve_grows (reach : Nat) (state : List Node × Ledger Node) (call : Call) :
    state.1 <+: (Node.serve reach state call).1 ∧
      state.2.handles <+: (Node.serve reach state call).2.handles := by
  unfold Node.serve
  split
  · exact ⟨List.prefix_append _ _, List.prefix_append _ _⟩
  · exact ⟨List.prefix_rfl, List.prefix_rfl⟩

theorem Node.foldl_serve_grows (reach : Nat) (state : List Node × Ledger Node)
    (calls : List Call) :
    state.1 <+: (calls.foldl (Node.serve reach) state).1 ∧
      state.2.handles <+: (calls.foldl (Node.serve reach) state).2.handles := by
  induction calls generalizing state with
  | nil => exact ⟨List.prefix_rfl, List.prefix_rfl⟩
  | cons call rest ih =>
    obtain ⟨hvisited, hhandles⟩ := Node.serve_grows reach state call
    obtain ⟨hvisited', hhandles'⟩ := ih (Node.serve reach state call)
    exact ⟨hvisited.trans hvisited', hhandles.trans hhandles'⟩

namespace Graph

/-- A session leaves an arena that represents what was navigated, and gives what navigation without
an arena gives. -/
structure Represented (graph : Graph) (reach : Nat) (calls : List Call) : Prop where
  arena : (graph.session reach calls).1.Represents graph (graph.tour reach calls).1
  absorbed : (graph.session reach calls).1 = (Arena.ofGraph graph).absorb (graph.tour reach calls).1
  ledger : (graph.session reach calls).2.Agrees (graph.session reach calls).1.Holds
    (graph.tour reach calls).2
  get : ∀ id < (graph.session reach calls).1.size, ∀ name next arena',
    Visit.named reach id name (graph.session reach calls).1 = (.ok next, arena') →
      ∃ last crossed,
        arena'.trace next = last :: (crossed ++ (graph.session reach calls).1.trace id) ∧
          last.crosses = false ∧ ∀ step ∈ crossed, step.crosses = true
  again : ∀ before call, before ++ [call] <+: calls →
    call.handle < (graph.session reach before).2.handles.length →
      (Arena.serve reach (graph.session reach calls) call).1 = (graph.session reach calls).1

theorem tour_append (graph : Graph) (reach : Nat) (before after : List Call) :
    graph.tour reach (before ++ after) =
      after.foldl (Node.serve reach) (graph.tour reach before) :=
  List.foldl_append

/-- A call made again on a handle that it was made on before enters nothing. -/
theorem serve_again {before calls : List Call} {call : Call} (hbefore : before ++ [call] <+: calls)
    (hcall : call.handle < (graph.session reach before).2.handles.length) :
    (Arena.serve reach (graph.session reach calls) call).1 = (graph.session reach calls).1 := by
  obtain ⟨after, rfl⟩ := hbefore
  obtain ⟨earlier, hearlier⟩ := graph.paired_session reach before
  obtain ⟨nodes, hnodes⟩ := graph.paired_session reach (before ++ [call] ++ after)
  obtain ⟨node, hnode⟩ : ∃ node, (graph.tour reach before).2.handles[call.handle]? = some node := by
    rw [hearlier.agrees.handles.length_eq] at hcall
    exact ⟨_, List.getElem?_eq_getElem hcall⟩
  have hmade : (node.ask reach call.ask).trail <:+ (graph.tour reach (before ++ [call])).1 := by
    rw [tour_append, List.foldl_cons, List.foldl_nil, Node.serve, hnode]
    exact List.suffix_append _ _
  have hgrows := Node.foldl_serve_grows reach (graph.tour reach (before ++ [call])) after
  have hgrows' := Node.foldl_serve_grows reach (graph.tour reach before) ([call] ++ after)
  rw [← tour_append] at hgrows hgrows'
  rw [← List.append_assoc] at hgrows'
  have hnode' : (graph.tour reach (before ++ [call] ++ after)).2.handles[call.handle]? =
      some node := Stands.mono hgrows'.2 hnode
  have hhandle := rel_getElem? hnodes.agrees.handles call.handle
  rw [hnode'] at hhandle
  generalize hid : (graph.session reach (before ++ [call] ++ after)).2.handles[call.handle]? = asked
    at hhandle
  cases hhandle with
  | @some id _ hstands =>
    have hmem : ∀ other ∈ (node.ask reach call.ask).trail, other ∈ nodes := by
      intro other hother
      exact (hnodes.leaves.mem_iff other).mpr (.inr (hgrows.1.subset (hmade.subset hother)))
    obtain ⟨_, hleaves, _⟩ := mirrors_ask hnodes.leaves.faithful hstands call.ask
    rw [Arena.serve, hid]
    exact hleaves.absorbed.trans (hnodes.leaves.faithful.absorb_of_mem hmem)

/-- The arena represents the navigation tree after every session of calls. -/
theorem represented (graph : Graph) (reach : Nat) (calls : List Call) :
    graph.Represented reach calls := by
  obtain ⟨nodes, h⟩ := graph.paired_session reach calls
  constructor
  case arena => exact h.leaves.represents
  case absorbed => exact h.leaves.absorbed
  case ledger => exact h.agrees.imp fun _ _ hstands => h.leaves.faithful.holds hstands
  case get =>
    intro id hlt name next arena' hget
    obtain ⟨node, hid⟩ := h.leaves.faithful.exists_node hlt
    obtain ⟨nodes', hleaves, hagree⟩ := Visit.mirrors_named h.leaves.faithful reach hid name
    rw [hget] at hleaves hagree
    generalize hwalk : (node.named reach name).result = outcome at hagree
    cases hagree with
    | @ok _ found hstands =>
      rw [hleaves.faithful.trace_eq hstands, h.leaves.faithful.trace_eq hid]
      exact Node.crosses_of_named hwalk
  case again => exact fun before call => serve_again

end Graph

end PathQuery
