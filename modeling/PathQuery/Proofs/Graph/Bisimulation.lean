import Mathlib.Data.List.Forall2
import PathQuery.Matching
import PathQuery.Proofs.Graph.Renumbering

/-!
# Nodes that steps do not tell apart

Nodes of two graphs are alike if they have the same structure, up to the identities, and steps lead
from them to nodes that are alike (`Node.Bisimulation`). Walks then come to nodes that are alike, or end
in the same error, and values match the one as they match the other (`Matching.result_fits_eq`,
`Matching.agree_selectMember`).
-/

set_option autoImplicit false

namespace PathQuery

open Except (Agree)

namespace Node

/-- The same structure with other identities, and steps to nodes that are alike again. -/
structure Bisimulation (f : Nat → Nat) (alike : Node → Node → Prop) : Prop where
  shape : ∀ {node node'}, alike node node' → node'.shape = node.shape.renumber f
  child : ∀ {node node'}, alike node node' → ∀ step,
    Agree alike (node.child? step) (node'.child? step)

namespace Bisimulation

variable {f : Nat → Nat} {alike : Node → Node → Prop} (bisimulation : Bisimulation f alike)
  {node node' : Node}
  (h : alike node node')

include bisimulation h

theorem kind_eq : node'.kind = node.kind := by
  rw [kind, kind, bisimulation.shape h, Structure.kind_renumber]

theorem key_eq : node'.key = node.key := by
  rw [key, key, bisimulation.shape h, Structure.key_renumber]

theorem agree_step (step : Step) :
    Agree alike (node.step step).result (node'.step step).result := by
  rw [result_step, result_step]
  exact bisimulation.child h step

theorem memberCount_eq : node'.memberCount = node.memberCount := by
  rw [memberCount, memberCount, bisimulation.shape h]
  cases node.shape with
  | union label members =>
    show (Structure.renumberAll f members).length = members.length
    rw [Structure.renumberAll_eq_map, List.length_map]
  | _ => rfl

theorem agree_allMembers :
    Agree (List.Forall₂ alike) node.allMembers.result node'.allMembers.result := by
  unfold allMembers
  rw [bisimulation.memberCount_eq h]
  induction List.range node.memberCount with
  | nil => exact .ok .nil
  | cons index rest ih =>
    rw [Traced.result_mapM_cons, Traced.result_mapM_cons]
    refine (bisimulation.agree_step h (.member index)).bind fun member member' hmember => ?_
    exact ih.map fun others others' hothers => .cons hmember hothers

theorem agree_memberAmong (name : String) (indexes : List Nat) :
    Agree alike (node.memberAmong name indexes).result (node'.memberAmong name indexes).result := by
  induction indexes with
  | nil =>
    rw [memberAmong, memberAmong, bisimulation.key_eq h]
    exact .error _
  | cons index rest ih =>
    simp only [memberAmong, Traced.result_bind]
    refine (bisimulation.agree_step h (.member index)).bind fun member member' hmember => ?_
    rw [bisimulation.shape hmember, Structure.memberName?_renumber]
    split
    · exact .ok hmember
    · exact ih

theorem agree_memberNamed (name : String) :
    Agree alike (node.memberNamed name).result (node'.memberNamed name).result := by
  rw [memberNamed, memberNamed, bisimulation.memberCount_eq h]
  exact bisimulation.agree_memberAmong h name _

end Bisimulation

end Node

namespace Traced

variable {ε α β : Type} {test : α → Traced ε Bool} {test' : β → Traced ε Bool}

theorem result_allM_eq {test test' : α → Traced ε Bool} {items : List α}
    (h : ∀ item ∈ items, (test' item).result = (test item).result) :
    (allM test' items).result = (allM test items).result := by
  induction items with
  | nil => rfl
  | cons item rest ih =>
    obtain ⟨hitem, hrest⟩ := List.forall_mem_cons.mp h
    simp only [allM, result_bind, hitem]
    refine congrArg (Except.bind _) (funext fun passes => ?_)
    cases passes with
    | true => exact ih hrest
    | false => rfl

theorem result_anyM_eq {items : List α} {items' : List β}
    (h : List.Forall₂ (fun item item' => (test' item').result = (test item).result) items items') :
    (anyM test' items').result = (anyM test items).result := by
  induction h with
  | nil => rfl
  | cons hitem _ ih =>
    simp only [anyM, result_bind, hitem]
    refine congrArg (Except.bind _) (funext fun passes => ?_)
    cases passes with
    | true => rfl
    | false => exact ih

theorem agree_filterM {like : α → β → Prop} {items : List α} {items' : List β}
    (h : List.Forall₂ like items items')
    (htest : ∀ item item', like item item' → (test' item').result = (test item).result) :
    Agree (List.Forall₂ like) (filterM test items).result (filterM test' items').result := by
  induction h with
  | nil => exact .ok .nil
  | @cons item item' rest rest' hitem _ ih =>
    simp only [filterM, result_bind, htest item item' hitem]
    refine (Agree.eq_self _).bind ?_
    rintro passes _ rfl
    refine ih.bind fun others others' hothers => ?_
    cases passes with
    | true => exact .ok (.cons hitem hothers)
    | false => exact .ok hothers

theorem result_forM_eq {action action' : α → Traced ε Unit} {items : List α}
    (h : ∀ item ∈ items, (action' item).result = (action item).result) :
    (items.forM action').result = (items.forM action).result := by
  induction items with
  | nil => rfl
  | cons item rest ih =>
    obtain ⟨hitem, hrest⟩ := List.forall_mem_cons.mp h
    rw [List.forM, List.forM, result_bind, result_bind, hitem]
    exact congrArg (Except.bind _) (funext fun _ => ih hrest)

end Traced

namespace Matching

theorem missingArgument?_renumber (f : Nat → Nat) (declared : List (Property Structure))
    (given : List (String × Json)) :
    missingArgument? (Structure.renumberProperties f declared) given =
      missingArgument? declared given := by
  unfold missingArgument?
  induction declared with
  | nil => rfl
  | cons item rest ih =>
    rw [Structure.renumberProperties, List.find?_cons, List.find?_cons]
    dsimp only
    split
    · rfl
    · exact ih

variable {f : Nat → Nat} {alike : Node → Node → Prop} (bisimulation : Node.Bisimulation f alike)
  {node node' : Node}
  (h : alike node node')

include bisimulation h

/-- A value fits both or neither. -/
theorem result_fits_eq (reach : Nat) (value : Json) :
    (fits reach node' value).result = (fits reach node value).result := by
  -- every step that is taken leads to nodes that are alike, with one less to go
  induction reach generalizing node node' value with
  | zero =>
    rw [fits, fits, Node.endless, Node.endless, bisimulation.key_eq h]
  | succ reach ih =>
    have through (step : Step) (value : Json) :
        (do fits reach (← node'.step step) value : Walk Bool).result =
          (do fits reach (← node.step step) value : Walk Bool).result := by
      rw [Traced.result_bind, Traced.result_bind]
      exact (bisimulation.agree_step h step).bind_eq fun next next' hnext => ih hnext value
    unfold fits
    rw [bisimulation.shape h]
    cases node.shape with
    | root | primitive | literal | function => rfl
    | ref => exact through .target value
    | typeAlias => exact through .body value
    | nullable =>
      dsimp only [Structure.renumber]
      split
      · rfl
      · exact through .inner value
    | array =>
      cases value with
      | array items =>
        dsimp only [Structure.renumber]
        rw [Traced.result_bind, Traced.result_bind]
        refine (bisimulation.agree_step h .items).bind_eq fun item item' hitem => ?_
        exact Traced.result_allM_eq fun value _ => ih hitem value
      | _ => rfl
    | union =>
      dsimp only [Structure.renumber]
      rw [Traced.result_bind, Traced.result_bind]
      refine (bisimulation.agree_allMembers h).bind_eq fun members members' hmembers => ?_
      exact Traced.result_anyM_eq (hmembers.imp fun member member' hmember => ih hmember value)
    | object | arguments =>
      cases value with
      | object members =>
        apply Traced.result_allM_eq
        rintro ⟨name, value⟩ _
        have hchild := bisimulation.child h (.field name)
        generalize hfound : node.child? (.field name) = found at hchild
        generalize hfound' : node'.child? (.field name) = found' at hchild
        dsimp only
        rw [hfound, hfound']
        cases hchild with
        | ok _ => exact through (.field name) value
        | error _ => rfl
      | _ => rfl

theorem agree_choose (value : Json) {members members' : List Node}
    (hmembers : List.Forall₂ alike members members') :
    Agree alike (choose node value members) (choose node' value members') := by
  have hshown : (members'.map fun member => s!"'{member.key}'") =
      members.map fun member => s!"'{member.key}'" := by
    induction hmembers with
    | nil => rfl
    | cons hmember _ ih => rw [List.map_cons, List.map_cons, bisimulation.key_eq hmember, ih]
  cases hmembers with
  | nil =>
    rw [choose, choose, bisimulation.key_eq h]
    exact .error _
  | cons hfirst hrest =>
    cases hrest with
    | nil => exact .ok hfirst
    | cons hsecond hothers =>
      unfold choose
      dsimp only
      rw [hshown, bisimulation.key_eq h]
      exact .error _

theorem agree_selectMember (reach : Nat) (value : Option Json) (hint : Option String) :
    Agree alike (selectMember reach node value hint).result
      (selectMember reach node' value hint).result := by
  cases hint with
  | some hint =>
    have hnamed := bisimulation.agree_memberNamed h hint
    simp only [selectMember, Traced.catchError, bisimulation.key_eq h]
    generalize hfound : (node.memberNamed hint).result = found at hnamed
    generalize hfound' : (node'.memberNamed hint).result = found' at hnamed
    cases hnamed with
    | ok hmember =>
      dsimp only
      rw [hfound, hfound']
      exact .ok hmember
    | error _ => exact .error _
  | none =>
    cases value with
    | none =>
      rw [selectMember, selectMember, bisimulation.key_eq h]
      exact .error _
    | some value =>
      simp only [selectMember, Traced.result_bind, Traced.result_ofExcept]
      refine (bisimulation.agree_allMembers h).bind fun members members' hmembers => ?_
      refine Agree.bind (Traced.agree_filterM hmembers fun member member' hmember => ?_)
        fun candidates candidates' hcandidates => agree_choose bisimulation h value hcandidates
      exact result_fits_eq bisimulation hmember reach value

theorem result_checkCall_eq (reach : Nat) (given : Json) :
    (checkCall reach node' given).result = (checkCall reach node given).result := by
  have hkey := bisimulation.key_eq h
  simp only [checkCall, Traced.result_bind, hkey]
  refine (bisimulation.agree_step h .arguments).bind_eq fun arguments arguments' harguments => ?_
  rw [bisimulation.shape harguments]
  cases arguments.shape with
  | arguments label declared =>
    cases given with
    | object members =>
      dsimp only [Structure.renumber]
      rw [missingArgument?_renumber]
      split
      · rfl
      · refine Traced.result_forM_eq fun (name, value) _ => ?_
        have hchild := bisimulation.child harguments (.field name)
        have hstep := bisimulation.agree_step harguments (.field name)
        generalize arguments.child? (.field name) = found at hchild
        generalize arguments'.child? (.field name) = found' at hchild
        cases hchild with
        | error _ => rfl
        | @ok item item' hitem =>
          dsimp only
          simp only [Traced.result_bind, result_fits_eq bisimulation hitem,
            bisimulation.key_eq hitem]
          exact hstep.bind_eq fun _ _ _ => rfl
    | _ => rfl
  | _ => rfl

end Matching

end PathQuery
