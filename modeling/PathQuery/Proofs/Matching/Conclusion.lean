import PathQuery.Proofs.Json.Positions
import PathQuery.Proofs.Matching.Conformance
import Mathlib.Order.Filter.AtTopBot.Basic
import Mathlib.Order.Filter.Finite
import Mathlib.Order.WellFounded

/-!
# Where matching comes to an end

Matching gives up on chains of wrappers and union members that are longer than its reach. Below a
node from which no such chain goes on for ever it gives up on no value, once the reach is great
enough (`Matching.eventually_concludes_fits`).
-/

set_option autoImplicit false

open Filter

namespace PathQuery

/-- No chain was given up. -/
def Concludes {α : Type} (x : Except Error α) : Prop :=
  x.Meets (fun _ => True) fun error => ¬ error.Endless

namespace Concludes

variable {α β : Type} {x : Except Error α}

theorem ok (a : α) : Concludes (.ok a : Except Error α) :=
  trivial

theorem error {e : Error} (h : e.category = .client) : Concludes (.error e : Except Error α) := by
  rintro ⟨_, rfl⟩
  cases h

theorem bind {f : α → Except Error β} (h : Concludes x) (hf : ∀ a, x = .ok a → Concludes (f a)) :
    Concludes (x.bind f) :=
  Except.Meets.bind h fun a ha _ => hf a ha

theorem map (h : Concludes x) (f : α → β) : Concludes (x.map f) :=
  Except.Meets.map h fun _ _ _ => trivial

end Concludes

/-- What holds of all successors from some number on holds of all numbers from some number on. -/
theorem eventually_of_succ {p : Nat → Prop} (h : ∀ᶠ n in atTop, p (n + 1)) :
    ∀ᶠ n in atTop, p n := by
  rw [← map_add_atTop_eq_nat 1]
  exact h

theorem eventually_forall_mem {α : Type} {p : α → Nat → Prop} {items : List α}
    (h : ∀ item ∈ items, ∀ᶠ n in atTop, p item n) : ∀ᶠ n in atTop, ∀ item ∈ items, p item n :=
  (eventually_all_finite items.finite_toSet).mpr h

namespace Traced

variable {ε α : Type} {items : List α}

theorem concludes_allM {test : α → Traced ε Bool}
    (h : ∀ item ∈ items, Concludes (test item).result) : Concludes (allM test items).result := by
  induction items with
  | nil => exact .ok true
  | cons first rest ih =>
    obtain ⟨hfirst, hrest⟩ := List.forall_mem_cons.mp h
    simp only [allM, result_bind]
    refine hfirst.bind fun passes _ => ?_
    cases passes with
    | true => exact ih hrest
    | false => exact .ok false

theorem concludes_anyM {test : α → Traced ε Bool}
    (h : ∀ item ∈ items, Concludes (test item).result) : Concludes (anyM test items).result := by
  induction items with
  | nil => exact .ok false
  | cons first rest ih =>
    obtain ⟨hfirst, hrest⟩ := List.forall_mem_cons.mp h
    simp only [anyM, result_bind]
    refine hfirst.bind fun passes _ => ?_
    cases passes with
    | true => exact .ok true
    | false => exact ih hrest

theorem concludes_forM {f : α → Traced ε Unit} (h : ∀ item ∈ items, Concludes (f item).result) :
    Concludes (items.forM f).result := by
  induction items with
  | nil => exact .ok ()
  | cons first rest ih =>
    obtain ⟨hfirst, hrest⟩ := List.forall_mem_cons.mp h
    rw [List.forM, result_bind]
    exact hfirst.bind fun _ _ => ih hrest

end Traced

/-- Matching hands a value on to the next node as it is. -/
def Node.HandsOn (node next : Node) : Prop :=
  node.Wraps next ∨ node.MemberOf next

/-- Nothing is handed on for ever from here. -/
def Node.Anchored (node : Node) : Prop :=
  Acc (fun next node => HandsOn node next) node

theorem Node.anchored_of_chains {node : Node}
    (h : ∀ chain : Nat → Node, chain 0 = node → ∃ n, ¬ (chain n).HandsOn (chain (n + 1))) :
    node.Anchored := by
  by_contra hnot
  obtain ⟨chain, hstart, hchain⟩ := not_acc_iff_exists_descending_chain.mp hnot
  obtain ⟨n, hn⟩ := h chain hstart
  exact hn (hchain n)

/-- Where no chain goes on for ever, every node below is anchored. -/
theorem Node.anchored_below {start node : Node}
    (h : ∀ chain : Nat → Node, Node.Below start (chain 0) → ∃ n, ¬ (chain n).HandsOn (chain (n + 1)))
    (hnode : Node.Below start node) : node.Anchored := by
  refine anchored_of_chains fun chain hchain => h chain ?_
  rw [hchain]
  exact hnode

namespace Matching

variable {start node : Node} {value : Json}

/-- The members that are declared, each at the child of its name. -/
theorem eventually_fields (hnode : Node.Below start node) (members : List (String × Json))
    (hmembers : ∀ field ∈ members, ∀ node, Node.Below start node →
      ∀ᶠ reach in atTop, Concludes (fits reach node field.2).result) :
    ∀ᶠ reach in atTop, ∀ field ∈ members, ∀ child, node.child? (.field field.1) = .ok child →
      Concludes (fits reach child field.2).result := by
  refine eventually_forall_mem fun field hfield => ?_
  cases hchild : node.child? (.field field.1) with
  | error e => exact .of_forall nofun
  | ok child =>
    refine (hmembers field hfield child (.step hnode hchild)).mono ?_
    rintro reach h _ ⟨⟩
    exact h

/-- It is enough that matching comes to an end for the parts of the value. -/
theorem eventually_concludes_of_parts (hscoped : start.Scoped)
    (hanchored : ∀ node, Node.Below start node → node.Anchored) (hnode : Node.Below start node)
    (hitems : ∀ items, value = .array items → ∀ item ∈ items, ∀ node, Node.Below start node →
      ∀ᶠ reach in atTop, Concludes (fits reach node item).result)
    (hmembers : ∀ members, value = .object members → ∀ field ∈ members, ∀ node,
      Node.Below start node → ∀ᶠ reach in atTop, Concludes (fits reach node field.2).result) :
    ∀ᶠ reach in atTop, Concludes (fits reach node value).result := by
  have hacc := hanchored node hnode
  induction hacc with
  | intro node _ ih =>
    apply eventually_of_succ
    have wrapped {step : Step} (hstep : node.shape.wrapping? = some step) :
        ∀ᶠ reach in atTop,
          Concludes (do fits reach (← node.step step) value : Walk Bool).result := by
      obtain ⟨next, hnext⟩ := (hscoped.below hnode).exists_wrapped hstep
      simp only [Traced.result_bind, Node.result_step, hnext, Except.ok_bind]
      exact ih next (.inl ⟨step, hstep, hnext⟩) (.step hnode hnext)
    simp only [fits]
    cases hs : node.shape with
    | root | primitive | literal | function => exact .of_forall fun _ => .ok _
    | ref | typeAlias => exact wrapped (by rw [hs]; rfl)
    | nullable =>
      cases value.isNull with
      | true => exact .of_forall fun _ => .ok true
      | false => exact wrapped (by rw [hs]; rfl)
    | array =>
      cases value with
      | array items =>
        have hitem := Node.child?_of_component? (show node.shape.component? .items = some _ by
          rw [hs]; rfl)
        simp only [Traced.result_bind, Node.result_step, hitem, Except.ok_bind]
        refine (eventually_forall_mem fun item h => hitems items rfl item h _ (.step hnode hitem)).mono
          fun reach h => ?_
        exact Traced.concludes_allM h
      | _ => exact .of_forall fun _ => .ok false
    | union =>
      simp only [Traced.result_bind, Node.result_allMembers, Except.ok_bind]
      refine (eventually_forall_mem fun member h => ?_).mono fun reach h => Traced.concludes_anyM h
      have hmember := Node.mem_members.mp h
      exact ih member (.inr hmember) (hmember.below hnode)
    | object | arguments =>
      cases value with
      | object members =>
        refine (eventually_fields hnode members (hmembers members rfl)).mono fun reach h => ?_
        refine Traced.concludes_allM fun field hfield => ?_
        split
        · next child hchild =>
          rw [Traced.result_bind, Node.result_step, hchild]
          exact h field hfield child hchild
        · exact .ok false
      | _ => exact .of_forall fun _ => .ok false

/-- With enough reach no chain is given up. -/
theorem eventually_concludes_fits (hscoped : start.Scoped)
    (hanchored : ∀ node, Node.Below start node → node.Anchored) (hnode : Node.Below start node)
    (value : Json) : ∀ᶠ reach in atTop, Concludes (fits reach node value).result := by
  induction value using Json.induction generalizing node with
  | array items ih =>
    refine eventually_concludes_of_parts hscoped hanchored hnode ?_ nofun
    rintro _ ⟨⟩ item hitem node hnode
    exact ih item hitem hnode
  | object members ih =>
    refine eventually_concludes_of_parts hscoped hanchored hnode nofun ?_
    rintro _ ⟨⟩ field hfield node hnode
    exact ih field hfield hnode
  | _ => exact eventually_concludes_of_parts hscoped hanchored hnode nofun nofun

theorem eventually_concludes_checkCall (hscoped : start.Scoped)
    (hanchored : ∀ node, Node.Below start node → node.Anchored) (hnode : Node.Below start node)
    (given : Json) : ∀ᶠ reach in atTop, Concludes (checkCall reach node given).result := by
  cases harguments : node.child? .arguments with
  | error e =>
    have hcategory := (hscoped.below hnode).category_of_child? harguments
    refine .of_forall fun reach => ?_
    rw [checkCall, Traced.result_bind, Node.result_step, harguments]
    exact .error hcategory
  | ok arguments =>
    have hbelow : Node.Below start arguments := .step hnode harguments
    have hfields : ∀ᶠ reach in atTop, ∀ members, given = .object members → ∀ field ∈ members,
        ∀ item, arguments.child? (.field field.1) = .ok item →
          Concludes (fits reach item field.2).result := by
      cases given with
      | object members =>
        refine (eventually_fields hbelow members fun field _ node hnode =>
          eventually_concludes_fits hscoped hanchored hnode field.2).mono ?_
        rintro reach h _ ⟨⟩
        exact h
      | _ => exact .of_forall nofun
    refine hfields.mono fun reach h => ?_
    unfold checkCall
    rw [Traced.result_bind, Node.result_step, harguments, Except.ok_bind]
    split
    · split
      · next members =>
        split
        · exact .error rfl
        · refine Traced.concludes_forM fun (name, value) hfield => ?_
          dsimp only
          split
          · exact .error rfl
          · next item hitem =>
            rw [Traced.result_bind, Node.result_step, hitem, Except.ok_bind, Traced.result_bind]
            refine (h members rfl (name, value) hfield item hitem).bind fun passes _ => ?_
            cases passes with
            | true => exact .ok ()
            | false => exact .error rfl
      · exact .error rfl
    · exact .error rfl

end Matching

end PathQuery
