import PathQuery.Graph.Arena
import PathQuery.Proofs.Graph.Scope

/-!
# Navigation

Moves are what can be asked of a node: walks by name, single steps, the members of a union. They are
made of steps, so that they do not leave a set of nodes that no step leaves, and fail as steps do or
with an error of their own (`Closed.meets_move`); so does matching a value against a node. Below a
node in scope no move fails for a reference.
-/

set_option autoImplicit false

namespace PathQuery

inductive Move where
  | get (name : String)
  | items
  | arguments
  | returns
  | inner
  | body
  | target
  /-- Down to the first node that is neither a reference nor an alias. -/
  | concrete
  | member (name : String)
  | memberAt (index : Nat)
  | members

namespace Node

variable {node start next : Node}

/-- The nodes that a move comes to. -/
def move (reach : Nat) (node : Node) : Move → Walk (List Node)
  | .get name => List.singleton <$> node.named reach name
  | .items => List.singleton <$> node.step .items
  | .arguments => List.singleton <$> node.step .arguments
  | .returns => List.singleton <$> node.step .returns
  | .inner => List.singleton <$> node.step .inner
  | .body => List.singleton <$> node.step .body
  | .target => List.singleton <$> node.step .target
  | .concrete => List.singleton <$> node.dereferenced reach
  | .member name => List.singleton <$> node.memberNamed name
  | .memberAt index => List.singleton <$> node.step (.member index)
  | .members => node.allMembers

/-- The nodes that moves lead to from a start. -/
inductive Reached (reach : Nat) (start : Node) : Node → Prop where
  | start : Reached reach start start
  | move {node next : Node} {move : Move} {nodes : List Node} (before : Reached reach start node)
      (moved : (node.move reach move).result = .ok nodes) (found : next ∈ nodes) :
      Reached reach start next

/-! ## Walks -/

/-- Steps from good nodes lead to good nodes, or end in errors that are fine; and so are the errors
that do not tell of a reference. -/
structure Closed (good : Node → Prop) (fine : Error → Prop) : Prop where
  child : ∀ {node}, good node → ∀ step, (node.child? step).Meets good fine
  resolved : ∀ {error : Error}, error.Resolved → fine error

theorem closed_below (start : Node) : Closed (Below start) fun _ => True where
  child h _ := Except.Meets.iff.mpr ⟨fun _ hnext => .step h hnext, fun _ _ => trivial⟩
  resolved _ := trivial

theorem closed_scoped : Closed Scoped Error.Resolved where
  child h step := h.meets_child step
  resolved h := h

namespace Closed

variable {good : Node → Prop} {fine : Error → Prop} (closed : Closed good fine)

include closed

theorem meets_step (h : good node) (step : Step) :
    (node.step step).result.Meets good fine := by
  rw [result_step]
  exact closed.child h step

theorem meets_memberAmong (h : good node) (name : String) (indexes : List Nat) :
    (node.memberAmong name indexes).result.Meets good fine := by
  induction indexes with
  | nil => exact closed.resolved rfl
  | cons index rest ih =>
    simp only [memberAmong, Traced.result_bind]
    refine (closed.meets_step h (.member index)).bind fun member _ hmember => ?_
    split
    · exact hmember
    · exact ih

theorem meets_memberNamed (h : good node) (name : String) :
    (node.memberNamed name).result.Meets good fine :=
  closed.meets_memberAmong h name _

theorem meets_allMembers (h : good node) :
    node.allMembers.result.Meets (fun members => ∀ member ∈ members, good member) fine := by
  rw [result_allMembers]
  intro member hmember
  obtain ⟨index, hchild⟩ := mem_members.mp hmember
  exact (closed.child h _).good_of hchild

theorem meets_dereferenced (h : good node) (reach : Nat) :
    (dereferenced reach node).result.Meets good fine := by
  induction reach generalizing node with
  | zero => exact closed.resolved rfl
  | succ reach ih =>
    unfold dereferenced
    split
    · rw [Traced.result_bind]
      exact (closed.meets_step h .target).bind fun next _ hnext => ih hnext
    · rw [Traced.result_bind]
      exact (closed.meets_step h .body).bind fun next _ hnext => ih hnext
    · exact h

theorem meets_named (h : good node) (reach : Nat) (name : String) :
    (named reach node name).result.Meets good fine := by
  induction reach generalizing node with
  | zero => exact closed.resolved rfl
  | succ reach ih =>
    unfold named
    split
    · exact closed.meets_step h _
    · exact closed.meets_step h _
    · exact closed.meets_step h _
    · rw [Traced.result_bind]
      exact (closed.meets_step h .body).bind fun next _ hnext => ih hnext
    · rw [Traced.result_bind]
      exact (closed.meets_step h .target).bind fun next _ hnext => ih hnext
    · rw [Traced.result_bind]
      exact (closed.meets_step h .inner).bind fun next _ hnext => ih hnext
    · exact closed.meets_memberNamed h name
    · split
      · exact closed.meets_step h _
      · exact closed.resolved rfl
    · split
      · exact closed.meets_step h _
      · split
        · exact closed.meets_step h _
        · exact closed.resolved rfl
    · exact closed.resolved rfl
    · exact closed.resolved rfl

omit closed in
theorem meets_singleton {walk : Walk Node} (h : walk.result.Meets good fine) :
    (List.singleton <$> walk).result.Meets (fun nodes => ∀ node ∈ nodes, good node) fine := by
  rw [Traced.result_map]
  refine h.map fun node _ hnode other hother => ?_
  cases List.mem_singleton.mp hother
  exact hnode

theorem meets_move (h : good node) (reach : Nat) (move : Move) :
    (node.move reach move).result.Meets (fun nodes => ∀ node ∈ nodes, good node) fine := by
  cases move with
  | get name => exact meets_singleton (closed.meets_named h reach name)
  | concrete => exact meets_singleton (closed.meets_dereferenced h reach)
  | member name => exact meets_singleton (closed.meets_memberNamed h name)
  | members => exact closed.meets_allMembers h
  | _ => exact meets_singleton (closed.meets_step h _)

/-- Moves do not lead out of a set of nodes that no step leaves. -/
theorem good_of_reached {reach : Nat} (h : Reached reach start node) (hstart : good start) :
    good node := by
  induction h with
  | start => exact hstart
  | @move node _ move _ _ moved found ih =>
    exact (closed.meets_move ih reach move).good_of moved _ found

end Closed

end Node

/-! ## Matching -/

namespace Traced

variable {ε α : Type} {test : α → Traced ε Bool} {items : List α}

theorem meets_allM {fine : Error → Prop}
    (h : ∀ item ∈ items, (test item).result.Meets (fun _ => True) fine) :
    (allM test items).result.Meets (fun _ => True) fine := by
  induction items with
  | nil => exact trivial
  | cons item rest ih =>
    simp only [allM, result_bind]
    refine (h item List.mem_cons_self).bind fun passes _ _ => ?_
    split
    · exact ih fun other hother => h other (List.mem_cons_of_mem _ hother)
    · exact trivial

theorem meets_anyM {fine : Error → Prop}
    (h : ∀ item ∈ items, (test item).result.Meets (fun _ => True) fine) :
    (anyM test items).result.Meets (fun _ => True) fine := by
  induction items with
  | nil => exact trivial
  | cons item rest ih =>
    simp only [anyM, result_bind]
    refine (h item List.mem_cons_self).bind fun passes _ _ => ?_
    split
    · exact trivial
    · exact ih fun other hother => h other (List.mem_cons_of_mem _ hother)

theorem meets_filterM {fine : Error → Prop}
    (h : ∀ item ∈ items, (test item).result.Meets (fun _ => True) fine) :
    (filterM test items).result.Meets (fun _ => True) fine := by
  induction items with
  | nil => exact trivial
  | cons item rest ih =>
    simp only [filterM, result_bind]
    refine (h item List.mem_cons_self).bind fun passes _ _ => ?_
    refine (ih fun other hother => h other (List.mem_cons_of_mem _ hother)).bind fun _ _ _ => ?_
    exact trivial

theorem meets_forM {fine : Error → Prop} {action : α → Traced ε Unit}
    (h : ∀ item ∈ items, (action item).result.Meets (fun _ => True) fine) :
    (items.forM action).result.Meets (fun _ => True) fine := by
  induction items with
  | nil => exact trivial
  | cons item rest ih =>
    rw [List.forM, result_bind]
    refine (h item List.mem_cons_self).bind fun _ _ _ => ?_
    exact ih fun other hother => h other (List.mem_cons_of_mem _ hother)

end Traced

/-- What matching asks of nodes: no step leaves the good ones, and references fail with errors that are
fine, as chains do that are given up. Other steps are taken only where they lead somewhere. -/
structure Matching.Closed (good : Node → Prop) (fine : Error → Prop) : Prop where
  child : ∀ {node next step}, good node → node.child? step = .ok next → good next
  target : ∀ {node label target typeArguments error}, good node →
    node.shape = .ref label target typeArguments → node.child? .target = .error error → fine error
  endless : ∀ key, fine (.endlessChain key)

theorem Node.Closed.matching {good : Node → Prop} {fine : Error → Prop} (closed : Node.Closed good fine) :
    Matching.Closed good fine where
  child h := (closed.child h _).good_of
  target h _ := (closed.child h .target).fine_of
  endless _ := closed.resolved rfl

namespace Matching

variable {node : Node} {good : Node → Prop} {fine : Error → Prop}

theorem meets_fits (closed : Closed good fine) (h : good node) (reach : Nat) (value : Json) :
    (fits reach node value).result.Meets (fun _ => True) fine := by
  induction reach generalizing node value with
  | zero => exact closed.endless _
  | succ reach ih =>
    have component {step : Step} {part : Structure} (hpart : node.shape.component? step = some part) :
        (node.step step).result.Meets good fine := by
      have hchild := Node.child?_of_component? hpart
      rw [Node.result_step, hchild]
      exact closed.child h hchild
    have through {step : Step} (hstep : (node.step step).result.Meets good fine) (value : Json) :
        (do fits reach (← node.step step) value : Walk Bool).result.Meets (fun _ => True) fine := by
      rw [Traced.result_bind]
      exact hstep.bind fun next _ hnext => ih hnext value
    unfold fits
    split
    · exact trivial
    · next hshape =>
      refine through ?_ value
      rw [Node.result_step]
      exact Except.Meets.iff.mpr ⟨fun _ => closed.child h, fun _ => closed.target h hshape⟩
    · next hshape => exact through (component (by rw [hshape]; rfl)) value
    · exact trivial
    · exact trivial
    · next hshape =>
      split
      · exact trivial
      · exact through (component (by rw [hshape]; rfl)) value
    · next hshape =>
      split
      · rw [Traced.result_bind]
        refine (component (by rw [hshape]; rfl)).bind fun item _ hitem => ?_
        exact Traced.meets_allM fun value _ => ih hitem value
      · exact trivial
    · rw [Traced.result_bind, Node.result_allMembers]
      refine Traced.meets_anyM fun member hmember => ?_
      obtain ⟨index, hchild⟩ := Node.mem_members.mp hmember
      exact ih (closed.child h hchild) value
    -- objects and argument lists are matched member by member, as far as these are declared
    iterate 2
      split
      · apply Traced.meets_allM
        rintro ⟨name, value⟩ _
        dsimp only
        split
        · next child hchild =>
          rw [Traced.result_bind, Node.result_step, hchild]
          exact ih (closed.child h hchild) value
        · exact trivial
      · exact trivial
    · exact trivial

variable (closed : Node.Closed good fine)

include closed

theorem meets_choose (union : Node) (value : Json) (candidates : List Node) :
    (choose union value candidates).Meets (· ∈ candidates) fine := by
  unfold choose
  split
  · exact closed.resolved rfl
  · exact List.mem_cons_self
  · exact closed.resolved rfl

theorem meets_selectMember (h : good node) (reach : Nat) (value : Option Json)
    (hint : Option String) :
    (selectMember reach node value hint).result.Meets good fine := by
  cases hint with
  | some hint =>
    simp only [selectMember, Traced.catchError]
    split
    · exact closed.meets_memberNamed h hint
    · exact closed.resolved rfl
  | none =>
    cases value with
    | none => exact closed.resolved rfl
    | some value =>
      simp only [selectMember, Traced.result_bind, Traced.result_ofExcept]
      refine (closed.meets_allMembers h).bind fun members _ hmembers => ?_
      refine (Traced.meets_filterM fun member hm =>
        meets_fits closed.matching (hmembers member hm) reach value).bind fun candidates hkept _ => ?_
      exact (meets_choose closed node value candidates).mono fun member _ hm =>
        hmembers member (Traced.mem_of_filterM hkept hm)

theorem meets_checkCall (h : good node) (reach : Nat) (given : Json) :
    (checkCall reach node given).result.Meets (fun _ => True) fine := by
  simp only [checkCall, Traced.result_bind]
  refine (closed.meets_step h .arguments).bind fun arguments _ harguments => ?_
  split
  · split
    · split
      · exact closed.resolved rfl
      · refine Traced.meets_forM fun (name, value) _ => ?_
        simp only
        split
        · exact closed.resolved rfl
        · next item hitem =>
          simp only [Traced.result_bind]
          refine (closed.meets_step harguments (.field name)).bind fun _ _ _ => ?_
          refine (meets_fits closed.matching ((closed.child harguments _).good_of hitem) reach value).bind fun passes _ _ => ?_
          split
          · exact trivial
          · exact closed.resolved rfl
    · exact closed.resolved rfl
  · exact closed.resolved rfl

end Matching

end PathQuery
