import PathQuery.Matching
import PathQuery.Proofs.Outcome

/-!
# Nodes below a node

`Below start node` says that steps lead from `start` to `node`. Below the root of a graph a node is
known by its trace alone, so that the comparison of nodes is equality there. Walks that look for a
union member come to members only.
-/

set_option autoImplicit false

namespace PathQuery.Node

variable {graph : Graph} {start node next a b : Node}

theorem child?_eq_ok_iff {step : Step} :
    node.child? step = .ok next ↔
      ∃ site, node.site.child node.graph.schema.entries step = .ok site ∧
        next = .child node step site := by
  unfold child?
  rw [Except.map_eq_ok_iff]
  exact exists_congr fun site => and_congr_right fun _ => eq_comm

theorem graph_of_child? {step : Step} (h : node.child? step = .ok next) :
    next.graph = node.graph := by
  obtain ⟨site, _, rfl⟩ := child?_eq_ok_iff.mp h
  rfl

theorem trace_of_child? {step : Step} (h : node.child? step = .ok next) :
    next.trace = step :: node.trace := by
  obtain ⟨site, _, rfl⟩ := child?_eq_ok_iff.mp h
  rfl

theorem child?_eq_error_iff {step : Step} {error : Error} :
    node.child? step = .error error ↔
      node.site.child node.graph.schema.entries step = .error error := by
  unfold child?
  exact Except.map_eq_error_iff

@[simp] theorem result_step (node : Node) (step : Step) :
    (node.step step).result = node.child? step := by
  unfold Node.step
  split
  · next h => exact h.symm
  · next h => exact h.symm

/-- The nodes that steps lead to from a start. -/
inductive Below (start : Node) : Node → Prop where
  | start : Below start start
  | step {node next : Node} {step : Step} :
      Below start node → node.child? step = .ok next → Below start next

theorem Below.trans (h : Below start node) (hn : Below node next) : Below start next := by
  induction hn with
  | start => exact h
  | step _ hstep ih => exact .step ih hstep

theorem Below.graph_eq (h : Below start node) : node.graph = start.graph := by
  induction h with
  | start => rfl
  | step _ hstep ih => exact (graph_of_child? hstep).trans ih

/-- The steps from the root tell the nodes of a graph apart. -/
theorem Below.eq_of_trace (ha : Below graph.root a) (hb : Below graph.root b)
    (h : a.trace = b.trace) : a = b := by
  induction ha generalizing b with
  | start =>
    cases hb with
    | start => rfl
    | step _ hstep =>
      obtain ⟨site, _, rfl⟩ := child?_eq_ok_iff.mp hstep
      cases h
  | @step parent _ step hparent hstep ih =>
    obtain ⟨site, hsite, rfl⟩ := child?_eq_ok_iff.mp hstep
    cases hb with
    | start => cases h
    | @step parent' _ step' hparent' hstep' =>
      obtain ⟨site', hsite', rfl⟩ := child?_eq_ok_iff.mp hstep'
      obtain ⟨rfl, htrace⟩ := List.cons.inj h
      obtain rfl := ih hparent' htrace
      rw [hsite] at hsite'
      cases hsite'
      rfl

theorem Below.beq_iff (ha : Below graph.root a) (hb : Below graph.root b) :
    (a == b) = true ↔ a = b := by
  rw [Node.beq_iff, ha.graph_eq, hb.graph_eq]
  constructor
  · rintro ⟨_, htrace⟩
    exact ha.eq_of_trace hb htrace
  · rintro rfl
    exact ⟨rfl, rfl⟩

/-- The node one step further, if the step can be taken. -/
def advance (node : Node) (step : Step) : Node :=
  match node.child? step with
  | .ok next => next
  | .error _ => node

theorem Below.advance (h : Below start node) (step : Step) : Below start (node.advance step) := by
  unfold Node.advance
  split
  · next hstep => exact .step h hstep
  · exact h

/-! ## Members of unions -/

/-- A node is a member of a union, at some position. -/
def MemberOf (union member : Node) : Prop :=
  ∃ index, union.child? (.member index) = .ok member

theorem MemberOf.below {union member : Node} (h : MemberOf union member)
    (hu : Below start union) : Below start member := by
  obtain ⟨index, hindex⟩ := h
  exact .step hu hindex

theorem memberOf_of_memberAmong {union member : Node} {name : String} {indexes : List Nat}
    (h : (union.memberAmong name indexes).result = .ok member) : MemberOf union member := by
  induction indexes with
  | nil => cases h
  | cons index rest ih =>
    simp only [memberAmong, Traced.result_bind, result_step] at h
    obtain ⟨found, hfound, h⟩ := Except.bind_eq_ok_iff.mp h
    split at h
    · cases h
      exact ⟨index, hfound⟩
    · exact ih h

theorem memberOf_of_allMembers {union member : Node} {members : List Node}
    (h : union.allMembers.result = .ok members) (hm : member ∈ members) :
    MemberOf union member := by
  obtain ⟨index, _, hindex⟩ := Traced.exists_of_mem_mapM h hm
  rw [result_step] at hindex
  exact ⟨index, hindex⟩

end PathQuery.Node

namespace PathQuery

/-! ## Nodes of a graph -/

def Graph.Owns (graph : Graph) (node : Node) : Prop :=
  node.graph.identity = graph.identity

instance (graph : Graph) (node : Node) : Decidable (graph.Owns node) :=
  inferInstanceAs (Decidable (_ = _))

theorem Node.top_bne_iff {graph : Graph} {node : Node} :
    (node.top != graph.root) = true ↔ ¬ graph.Owns node := by
  have htop : node.top = node.graph.root := by
    induction node with
    | root => rfl
    | child parent _ _ ih => exact ih
  rw [htop, bne, Bool.not_eq_true', Bool.eq_false_iff, ne_eq, Node.beq_iff, Graph.Owns]
  exact not_congr (and_iff_left rfl)

/-- The node that steps from the root lead to, as far as they can be taken. -/
def Graph.nodeAt (graph : Graph) (steps : List Step) : Node :=
  steps.foldl Node.advance graph.root

theorem Graph.below_nodeAt (graph : Graph) (steps : List Step) :
    Node.Below graph.root (graph.nodeAt steps) := by
  unfold nodeAt
  suffices h : ∀ node, Node.Below graph.root node →
      Node.Below graph.root (steps.foldl Node.advance node) from h graph.root .start
  induction steps with
  | nil => exact fun node h => h
  | cons step rest ih => exact fun node h => ih _ (h.advance step)

/-! ## Members that are selected -/

theorem Traced.mem_of_filterM {ε α : Type} {test : α → Traced ε Bool} {items kept : List α}
    {item : α} (h : (filterM test items).result = .ok kept) (hi : item ∈ kept) :
    item ∈ items := by
  induction items generalizing kept with
  | nil =>
    cases h
    cases hi
  | cons first rest ih =>
    simp only [filterM, result_bind] at h
    obtain ⟨passes, _, h⟩ := Except.bind_eq_ok_iff.mp h
    obtain ⟨others, hothers, h⟩ := Except.bind_eq_ok_iff.mp h
    cases h
    split at hi
    · rcases List.mem_cons.mp hi with rfl | hi
      · exact List.mem_cons_self
      · exact List.mem_cons_of_mem _ (ih hothers hi)
    · exact List.mem_cons_of_mem _ (ih hothers hi)

namespace Matching

theorem mem_of_choose {union member : Node} {value : Json} {candidates : List Node}
    (h : choose union value candidates = .ok member) : member ∈ candidates := by
  unfold choose at h
  split at h
  · cases h
  · cases h
    exact List.mem_cons_self
  · cases h

theorem memberOf_of_selectMember {reach : Nat} {union member : Node} {value : Option Json}
    {hint : Option String} (h : (selectMember reach union value hint).result = .ok member) :
    union.MemberOf member := by
  cases hint with
  | some hint =>
    simp only [selectMember, Traced.catchError] at h
    split at h
    · exact Node.memberOf_of_memberAmong h
    · cases h
  | none =>
    cases value with
    | none => cases h
    | some value =>
      simp only [selectMember, Traced.result_bind, Traced.result_ofExcept] at h
      obtain ⟨members, hmembers, h⟩ := Except.bind_eq_ok_iff.mp h
      obtain ⟨candidates, hcandidates, h⟩ := Except.bind_eq_ok_iff.mp h
      exact Node.memberOf_of_allMembers hmembers
        (Traced.mem_of_filterM hcandidates (mem_of_choose h))

end Matching

end PathQuery
