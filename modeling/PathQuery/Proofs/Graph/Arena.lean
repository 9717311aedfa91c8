import Mathlib.Data.List.Nodup
import PathQuery.Graph.Arena
import PathQuery.Proofs.Graph.Below

/-!
# What an arena stands for

`Faithful arena nodes` ties an arena to the nodes that its positions stand for, number by number: a
position was entered from the one of its parent, which has a smaller number, and the table knows a
child exactly if its node is among them. Then there is one sequence of steps to a position
(`Faithful.find?_eq_some_iff`). `Arena.child` enters the node of a step if it is new and changes
nothing else (`Faithful.child_of_ok`, `Faithful.child_of_error`).
-/

set_option autoImplicit false

namespace PathQuery

/-- Takes steps from the root without a table, the last one of the list first. -/
def Graph.node? (graph : Graph) : List Step → Except Error Node
  | [] => .ok graph.root
  | step :: before => (graph.node? before).bind fun node => node.child? step

namespace Node.Below

variable {graph : Graph} {parent node : Node} {step : Step} {site : Site}

theorem child_of_eq (h : Below graph.root (.child parent step site)) :
    Below graph.root parent ∧ parent.child? step = .ok (.child parent step site) := by
  cases h with
  | step hparent hstep =>
    obtain ⟨found, _, heq⟩ := child?_eq_ok_iff.mp hstep
    cases heq
    exact ⟨hparent, hstep⟩

theorem eq_root_of_root {other : Graph} (h : Below graph.root (.root other)) :
    Node.root other = graph.root := by
  cases h with
  | start => rfl
  | step _ hstep =>
    obtain ⟨_, _, heq⟩ := child?_eq_ok_iff.mp hstep
    cases heq

theorem node?_trace (h : Below graph.root node) : graph.node? node.trace = .ok node := by
  induction h with
  | start => rfl
  | @step before _ step _ hstep ih =>
    obtain ⟨site, _, rfl⟩ := child?_eq_ok_iff.mp hstep
    rw [trace, Graph.node?, ih]
    exact hstep

end Node.Below

namespace Arena

variable {arena : Arena} {nodes : List Node} {id : Nat} {node next : Node} {step : Step}

/-! ## Ways up and down -/

def origin? (arena : Arena) (id : Nat) : Option (Nat × Step) :=
  arena.cells[id]?.bind Cell.origin

/-- The steps from the root to a position, the last one first, read upwards. -/
def trace (arena : Arena) (id : Nat) : List Step :=
  match arena.origin? id with
  | some (parent, step) => if _h : parent < id then step :: arena.trace parent else []
  | none => []
termination_by id

/-- The position at the end of steps that were all taken before, read downwards in the table. -/
def find? (arena : Arena) : List Step → Option Nat
  | [] => some 0
  | step :: before => (arena.find? before).bind fun id => arena.known? id step

theorem parent?_eq (arena : Arena) (id : Nat) :
    arena.parent? id = (arena.origin? id).map Prod.fst := by
  unfold parent? origin?
  cases arena.cells[id]? with
  | none => rfl
  | some cell =>
    obtain ⟨origin, site, children⟩ := cell
    cases origin <;> rfl

theorem trace_of_origin? {parent : Nat} (h : arena.origin? id = some (parent, step))
    (hlt : parent < id) : arena.trace id = step :: arena.trace parent := by
  rw [trace, h]
  simp only [dif_pos hlt]

/-! ## A new position -/

theorem size_insert (arena : Arena) (id : Nat) (step : Step) (site : Site) :
    (arena.insert id step site).size = arena.size + 1 := by
  simp [insert, size]

theorem cells_insert (arena : Arena) (id : Nat) (step : Step) (site : Site) (other : Nat) :
    (arena.insert id step site).cells[other]? =
      if other = arena.size then some ⟨some (id, step), site, []⟩
      else if id = other then arena.cells[other]?.map fun cell =>
        { cell with children := (step, arena.size) :: cell.children }
      else arena.cells[other]? := by
  simp only [insert, Array.getElem?_push, Array.getElem?_modify, Array.size_modify, size]
  rfl

section Insert

variable (id : Nat) (step : Step) (site : Site) {other : Nat}

theorem site_insert_of_lt (h : other < arena.size) :
    (arena.insert id step site).site other = arena.site other := by
  have hother : ¬ other = arena.size := by omega
  have hgraph : (arena.insert id step site).graph = arena.graph := rfl
  unfold Arena.site
  rw [cells_insert, if_neg hother, hgraph]
  split
  · cases arena.cells[other]? <;> rfl
  · rfl

theorem origin?_insert_of_lt (h : other < arena.size) :
    (arena.insert id step site).origin? other = arena.origin? other := by
  have hother : ¬ other = arena.size := by omega
  unfold origin?
  rw [cells_insert, if_neg hother]
  split
  · cases arena.cells[other]? <;> rfl
  · rfl

theorem site_insert_new : (arena.insert id step site).site arena.size = site := by
  unfold Arena.site
  rw [cells_insert, if_pos rfl]
  rfl

theorem origin?_insert_new :
    (arena.insert id step site).origin? arena.size = some (id, step) := by
  unfold origin?
  rw [cells_insert, if_pos rfl]
  rfl

theorem known?_insert (h : other < arena.size) (asked : Step) :
    (arena.insert id step site).known? other asked =
      if other = id ∧ asked = step then some arena.size else arena.known? other asked := by
  have hother : ¬ other = arena.size := by omega
  obtain ⟨cell, hcell⟩ : ∃ cell, arena.cells[other]? = some cell :=
    ⟨_, Array.getElem?_eq_getElem h⟩
  unfold known?
  rw [cells_insert, if_neg hother, hcell]
  by_cases hid : id = other
  · subst hid
    by_cases hasked : asked = step
    · simp [hasked]
    · simp [hasked, List.lookup_cons, beq_false_of_ne hasked]
  · have hother' : ¬ other = id := fun heq => hid heq.symm
    simp [hid, hother']

theorem known?_insert_new (asked : Step) :
    (arena.insert id step site).known? arena.size asked = none := by
  unfold known?
  rw [cells_insert, if_pos rfl]
  rfl

end Insert

/-! ## Faithful arenas -/

/-- The positions of an arena stand for these nodes, number by number. -/
structure Faithful (arena : Arena) (nodes : List Node) : Prop where
  size_eq : arena.size = nodes.length
  first : nodes[0]? = some arena.graph.root
  nodup : nodes.Nodup
  below : ∀ node ∈ nodes, Node.Below arena.graph.root node
  site : ∀ {id node}, nodes[id]? = some node → arena.site id = node.site
  origin_root : ∀ {id graph}, nodes[id]? = some (.root graph) → arena.origin? id = none
  origin_child : ∀ {id parent step site}, nodes[id]? = some (.child parent step site) →
    ∃ before < id, arena.origin? id = some (before, step) ∧ nodes[before]? = some parent
  known_iff : ∀ {id node}, nodes[id]? = some node → ∀ step child,
    arena.known? id step = some child ↔
      ∃ next, node.child? step = .ok next ∧ nodes[child]? = some next

theorem faithful_ofGraph (graph : Graph) : (ofGraph graph).Faithful [graph.root] where
  size_eq := rfl
  first := rfl
  nodup := List.nodup_singleton _
  below node hnode := by
    cases List.mem_singleton.mp hnode
    exact .start
  site {id node} h := by
    obtain ⟨hid, rfl⟩ := List.getElem?_eq_some_iff.mp h
    cases Nat.lt_one_iff.mp hid
    rfl
  origin_root {id _} h := by
    obtain ⟨hid, _⟩ := List.getElem?_eq_some_iff.mp h
    cases Nat.lt_one_iff.mp hid
    rfl
  origin_child {id _ _ _} h := by
    cases List.mem_singleton.mp (List.mem_of_getElem? h)
  known_iff {id node} h step child := by
    obtain ⟨hid, rfl⟩ := List.getElem?_eq_some_iff.mp h
    cases Nat.lt_one_iff.mp hid
    constructor
    · intro hknown
      cases hknown
    · rintro ⟨next, hnext, hchild⟩
      -- a child is no root
      obtain ⟨_, _, rfl⟩ := Node.child?_eq_ok_iff.mp hnext
      cases List.mem_singleton.mp (List.mem_of_getElem? hchild)

namespace Faithful

variable (h : arena.Faithful nodes)

include h

theorem lt_size (hid : nodes[id]? = some node) : id < arena.size := by
  rw [h.size_eq]
  exact (List.getElem?_eq_some_iff.mp hid).1

theorem exists_node (hid : id < arena.size) : ∃ node, nodes[id]? = some node := by
  rw [h.size_eq] at hid
  exact ⟨_, List.getElem?_eq_getElem hid⟩

theorem id_inj {other : Nat} (hid : nodes[id]? = some node) (hother : nodes[other]? = some node) :
    id = other :=
  (List.getElem?_inj (List.getElem?_eq_some_iff.mp hid).1 h.nodup).mp (hid.trans hother.symm)

theorem below_of (hid : nodes[id]? = some node) : Node.Below arena.graph.root node :=
  h.below node (List.mem_of_getElem? hid)

/-- What the site of a position leads to is what its node leads to. -/
theorem site_child (hid : nodes[id]? = some node) (step : Step) :
    (arena.site id).child arena.graph.schema.entries step =
      node.site.child node.graph.schema.entries step := by
  rw [h.site hid, (h.below_of hid).graph_eq]
  rfl

theorem trace_eq (hid : nodes[id]? = some node) : arena.trace id = node.trace := by
  induction node generalizing id with
  | root graph =>
    rw [trace, h.origin_root hid]
    rfl
  | child parent step site ih =>
    obtain ⟨before, hlt, horigin, hbefore⟩ := h.origin_child hid
    rw [trace_of_origin? horigin hlt, ih hbefore]
    rfl

theorem find?_trace (hid : nodes[id]? = some node) : arena.find? node.trace = some id := by
  induction node generalizing id with
  | root graph =>
    have hroot := (h.below_of hid).eq_root_of_root
    rw [hroot] at hid
    rw [h.id_inj hid h.first]
    rfl
  | child parent step site ih =>
    obtain ⟨before, _, _, hbefore⟩ := h.origin_child hid
    have hstep := (h.below_of hid).child_of_eq.2
    rw [Node.trace, find?, ih hbefore, Option.bind_some]
    exact (h.known_iff hbefore step id).mpr ⟨_, hstep, hid⟩

theorem node_of_find? {steps : List Step} (hfind : arena.find? steps = some id) :
    ∃ node, nodes[id]? = some node ∧ node.trace = steps := by
  induction steps generalizing id with
  | nil =>
    cases hfind
    exact ⟨_, h.first, rfl⟩
  | cons step before ih =>
    obtain ⟨parent, hparent, hknown⟩ := Option.bind_eq_some_iff.mp hfind
    obtain ⟨node, hnode, rfl⟩ := ih hparent
    obtain ⟨next, hnext, hid⟩ := (h.known_iff hnode step id).mp hknown
    obtain ⟨site, _, rfl⟩ := Node.child?_eq_ok_iff.mp hnext
    exact ⟨_, hid, rfl⟩

/-- There is one sequence of steps to a position, upwards as well as downwards. -/
theorem find?_eq_some_iff (hid : id < arena.size) (steps : List Step) :
    arena.find? steps = some id ↔ arena.trace id = steps := by
  constructor
  · intro hfind
    obtain ⟨node, hnode, rfl⟩ := h.node_of_find? hfind
    exact h.trace_eq hnode
  · rintro rfl
    obtain ⟨node, hnode⟩ := h.exists_node hid
    rw [h.trace_eq hnode]
    exact h.find?_trace hnode

theorem parent_of {parent : Nat} (hid : id < arena.size) (hparent : arena.parent? id = some parent) :
    parent < id ∧ ∃ step, arena.trace id = step :: arena.trace parent := by
  obtain ⟨node, hnode⟩ := h.exists_node hid
  rw [parent?_eq] at hparent
  cases node with
  | root graph =>
    rw [h.origin_root hnode] at hparent
    cases hparent
  | child before step site =>
    obtain ⟨earlier, hlt, horigin, _⟩ := h.origin_child hnode
    rw [horigin] at hparent
    cases hparent
    exact ⟨hlt, step, trace_of_origin? horigin hlt⟩

/-! ## One step -/

theorem child_of_error {error : Error} (hid : nodes[id]? = some node)
    (hstep : node.child? step = .error error) : arena.child id step = (.error error, arena) := by
  have hknown : arena.known? id step = none := by
    rw [Option.eq_none_iff_forall_ne_some]
    intro child hchild
    obtain ⟨next, hnext, _⟩ := (h.known_iff hid step child).mp hchild
    rw [hstep] at hnext
    cases hnext
  have hsite := h.site_child hid step
  rw [Node.child?_eq_error_iff.mp hstep] at hsite
  simp only [Arena.child, hknown, hsite]

theorem child_of_known {child : Nat} (hid : nodes[id]? = some node)
    (hstep : node.child? step = .ok next) (hchild : nodes[child]? = some next) :
    arena.child id step = (.ok child, arena) := by
  have hknown := (h.known_iff hid step child).mpr ⟨next, hstep, hchild⟩
  simp only [Arena.child, hknown]

theorem child_of_new (hid : nodes[id]? = some node) (hstep : node.child? step = .ok next)
    (hnew : next ∉ nodes) : arena.child id step = (.ok arena.size, arena.insert id step next.site) := by
  have hknown : arena.known? id step = none := by
    rw [Option.eq_none_iff_forall_ne_some]
    intro child hchild
    obtain ⟨other, hother, hmem⟩ := (h.known_iff hid step child).mp hchild
    cases hstep.symm.trans hother
    exact hnew (List.mem_of_getElem? hmem)
  obtain ⟨site, hsite, rfl⟩ := Node.child?_eq_ok_iff.mp hstep
  rw [← h.site_child hid step] at hsite
  simp only [Arena.child, hknown, hsite]
  rfl

theorem insert (hid : nodes[id]? = some node) (hstep : node.child? step = .ok next)
    (hnew : next ∉ nodes) : (arena.insert id step next.site).Faithful (nodes ++ [next]) := by
  obtain ⟨site, hsite, rfl⟩ := Node.child?_eq_ok_iff.mp hstep
  have hlast : (nodes ++ [Node.child node step site])[arena.size]? =
      some (.child node step site) := by
    rw [h.size_eq]
    exact List.getElem?_concat_length
  -- a position of the longer list is an old one or the new one
  have cases_of {other : Nat} {found : Node}
      (hfound : (nodes ++ [Node.child node step site])[other]? = some found) :
      other < arena.size ∧ nodes[other]? = some found ∨
        other = arena.size ∧ found = .child node step site := by
    rcases Nat.lt_trichotomy other arena.size with hlt | rfl | hgt
    · rw [List.getElem?_append_left (h.size_eq ▸ hlt)] at hfound
      exact .inl ⟨hlt, hfound⟩
    · rw [hlast] at hfound
      cases hfound
      exact .inr ⟨rfl, rfl⟩
    · have hlt := (List.getElem?_eq_some_iff.mp hfound).1
      rw [List.length_append, List.length_singleton, ← h.size_eq] at hlt
      omega
  have keep {other : Nat} {found : Node} (hfound : nodes[other]? = some found) :
      (nodes ++ [Node.child node step site])[other]? = some found := by
    rw [List.getElem?_append_left (List.getElem?_eq_some_iff.mp hfound).1]
    exact hfound
  constructor
  case size_eq => rw [size_insert, h.size_eq, List.length_append, List.length_singleton]
  case first => exact keep h.first
  case nodup =>
    rw [List.nodup_append]
    refine ⟨h.nodup, List.nodup_singleton _, ?_⟩
    rintro other hother last hlast rfl
    cases List.mem_singleton.mp hlast
    exact hnew hother
  case below =>
    intro found hfound
    rcases List.mem_append.mp hfound with hfound | hfound
    · exact h.below found hfound
    · cases List.mem_singleton.mp hfound
      exact (h.below_of hid).step hstep
  case site =>
    intro other found hfound
    rcases cases_of hfound with ⟨hlt, hfound⟩ | ⟨rfl, rfl⟩
    · rw [site_insert_of_lt _ _ _ hlt]
      exact h.site hfound
    · exact site_insert_new _ _ _
  case origin_root =>
    intro other graph hfound
    rcases cases_of hfound with ⟨hlt, hfound⟩ | ⟨_, heq⟩
    · rw [origin?_insert_of_lt _ _ _ hlt]
      exact h.origin_root hfound
    · cases heq
  case origin_child =>
    intro other parent last below hfound
    rcases cases_of hfound with ⟨hlt, hfound⟩ | ⟨rfl, heq⟩
    · rw [origin?_insert_of_lt _ _ _ hlt]
      obtain ⟨before, hbefore, horigin, hparent⟩ := h.origin_child hfound
      exact ⟨before, hbefore, horigin, keep hparent⟩
    · cases heq
      exact ⟨id, h.lt_size hid, origin?_insert_new _ _ _, keep hid⟩
  case known_iff =>
    intro other found hfound asked child
    rcases cases_of hfound with ⟨hlt, hold⟩ | ⟨rfl, rfl⟩
    · rw [known?_insert _ _ _ hlt]
      split
      · next heq =>
        rw [heq.1, hid] at hold
        rw [heq.2, ← Option.some.inj hold, hstep]
        constructor
        · intro hchild
          cases hchild
          exact ⟨_, rfl, hlast⟩
        · rintro ⟨reached, hreached, hchild⟩
          cases hreached
          rcases cases_of hchild with ⟨_, hchild⟩ | ⟨rfl, _⟩
          · exact absurd (List.mem_of_getElem? hchild) hnew
          · rfl
      · next hne =>
        rw [h.known_iff hold asked child]
        refine exists_congr fun reached => and_congr_right fun hreached => ?_
        constructor
        · exact keep
        · intro hchild
          rcases cases_of hchild with ⟨_, hchild⟩ | ⟨_, rfl⟩
          · exact hchild
          · -- the new node has one parent and was reached by one step
            obtain ⟨_, _, heq⟩ := Node.child?_eq_ok_iff.mp hreached
            cases heq
            exact absurd ⟨h.id_inj hold hid, rfl⟩ hne
    · rw [known?_insert_new]
      constructor
      · intro hknown
        cases hknown
      · rintro ⟨reached, hreached, hchild⟩
        obtain ⟨_, _, rfl⟩ := Node.child?_eq_ok_iff.mp hreached
        rcases cases_of hchild with ⟨_, hchild⟩ | ⟨_, heq⟩
        · -- with the new node its parent would be old
          obtain ⟨_, _, _, hparent⟩ := h.origin_child hchild
          exact absurd (List.mem_of_getElem? hparent) hnew
        · injection heq with hparent
          exact absurd (List.mem_of_getElem? (hparent ▸ hid)) hnew

/-- A step that succeeds comes to the position of its node; it enters that node if it is new. -/
theorem child_of_ok (hid : nodes[id]? = some node) (hstep : node.child? step = .ok next) :
    ∃ child nodes', (arena.child id step).1 = .ok child ∧ nodes'[child]? = some next ∧
      (arena.child id step).2.Faithful nodes' ∧ nodes <+: nodes' ∧
      ∀ other, other ∈ nodes' ↔ other ∈ nodes ∨ other = next := by
  by_cases hmem : next ∈ nodes
  · obtain ⟨child, hchild⟩ := List.mem_iff_getElem?.mp hmem
    rw [h.child_of_known hid hstep hchild]
    refine ⟨child, nodes, rfl, hchild, h, List.prefix_rfl, fun other => ?_⟩
    constructor
    · exact .inl
    · rintro (hother | rfl)
      · exact hother
      · exact hmem
  · rw [h.child_of_new hid hstep hmem]
    refine ⟨arena.size, nodes ++ [next], rfl, ?_, h.insert hid hstep hmem,
      List.prefix_append _ _, fun other => ?_⟩
    · rw [h.size_eq]
      exact List.getElem?_concat_length
    · rw [List.mem_append, List.mem_singleton]

/-- Steps that were all taken before lead to the position of their node. -/
theorem descend_trace (hid : nodes[id]? = some node) :
    arena.descend node.trace = (.ok id, arena) := by
  induction node generalizing id with
  | root graph =>
    have hroot := (h.below_of hid).eq_root_of_root
    rw [hroot] at hid
    rw [h.id_inj hid h.first]
    rfl
  | child parent step site ih =>
    obtain ⟨before, _, _, hbefore⟩ := h.origin_child hid
    rw [Node.trace, descend, ih hbefore]
    exact h.child_of_known hbefore (h.below_of hid).child_of_eq.2 hid

end Faithful

end Arena

end PathQuery
