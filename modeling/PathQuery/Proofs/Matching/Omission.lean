import PathQuery.Proofs.Matching.Decision
import Mathlib.Logic.Relation

/-!
# Values with members left out

Matching looks at the members that are present and asks for none. A value that conforms to a node
goes on to conform when members are left out of its objects, at any depth (`Node.Conforms.omits`):
what is compared with a literal is a scalar, of which nothing can be left out. What changes is which
other structures a value conforms to as well. So a union that was left for one of its members is
left for the same one, or the choice becomes ambiguous with that member among the candidates
(`Matching.keeps_choice_of_omits`).
-/

set_option autoImplicit false

open Filter

namespace PathQuery

namespace Json

/-- One member is left out of an object, at any depth. -/
inductive OmitsOne : Json → Json → Prop where
  | here (before : List (String × Json)) (omitted : String × Json)
      (after : List (String × Json)) :
      OmitsOne (.object (before ++ omitted :: after)) (.object (before ++ after))
  | member (before : List (String × Json)) (name : String) {value less : Json}
      (after : List (String × Json)) (inside : OmitsOne value less) :
      OmitsOne (.object (before ++ (name, value) :: after)) (.object (before ++ (name, less) :: after))
  | item (before : List Json) {value less : Json} (after : List Json)
      (inside : OmitsOne value less) :
      OmitsOne (.array (before ++ value :: after)) (.array (before ++ less :: after))

/-- Any number of members are left out of objects, at any depth. -/
def Omits (value less : Json) : Prop :=
  Relation.ReflTransGen OmitsOne value less

variable {value less : Json}

theorem OmitsOne.not_scalar (h : OmitsOne value less) : ¬ value.isScalar = true := by
  cases h <;> exact Bool.false_ne_true

theorem isScalar_of_isNull (h : value.isNull = true) : value.isScalar = true := by
  cases value with
  | null => rfl
  | _ => cases h

theorem isScalar_of_beq {constant : Json} (h : (constant == value) = true)
    (hconstant : constant.isScalar = true) : value.isScalar = true := by
  cases value with
  | array | object =>
    cases constant with
    | array | object => cases hconstant
    | _ => cases h
  | _ => rfl

end Json

theorem Primitive.isScalar_of_admits {type : Primitive} {value : Json}
    (h : type.admits value = true) : value.isScalar = true := by
  cases value with
  | array | object => cases type <;> cases h
  | _ => rfl

namespace Node

variable {node : Node} {value less : Json}

theorem Scoped.isScalar_of_literal (h : node.Scoped) {label : Label} {constant : Json}
    (hshape : node.shape = .literal label constant) : constant.isScalar = true := by
  obtain ⟨scope, _, hcheck⟩ := h.here.checked
  rw [hshape, Declarations.check] at hcheck
  split at hcheck
  · assumption
  · cases hcheck

theorem Conforms.omitsOne (h : node.Conforms value) (hscoped : node.Scoped)
    (homits : value.OmitsOne less) : node.Conforms less := by
  -- along the derivation: nothing is asked of a member that is missing
  induction h generalizing less with
  | wrapped step _ ih =>
    obtain ⟨_, _, hchild⟩ := id step
    exact .wrapped step (ih (hscoped.child hchild) homits)
  | null _ null => exact absurd (Json.isScalar_of_isNull null) homits.not_scalar
  | primitive _ admits => exact absurd (Primitive.isScalar_of_admits admits) homits.not_scalar
  | literal shape equal =>
    -- a literal could tell the difference if it were an object, which no accepted schema has
    have hconstant := hscoped.isScalar_of_literal shape
    exact absurd (Json.isScalar_of_beq equal hconstant) homits.not_scalar
  | items kind step each ih =>
    cases homits with
    | item before after inside =>
      refine .items kind step fun value hvalue => ?_
      rcases List.mem_append.mp hvalue with hbefore | hvalue
      · exact each value (List.mem_append_left _ hbefore)
      · rcases List.mem_cons.mp hvalue with rfl | hafter
        · exact ih _ (List.mem_append_right _ List.mem_cons_self) (hscoped.child step) inside
        · exact each value (List.mem_append_right _ (List.mem_cons_of_mem _ hafter))
  | member member _ ih =>
    obtain ⟨_, hchild⟩ := id member
    exact .member member (ih (hscoped.child hchild) homits)
  | @members node given child kind declared each ih =>
    have kept {field : String × Json} (hfield : field ∈ given) :
        ∃ next, node.child? (.field field.1) = .ok next ∧ next.Conforms field.2 :=
      ⟨_, declared field hfield, each field hfield⟩
    cases homits with
    | here before omitted after =>
      refine conforms_object kind fun field hfield => ?_
      rcases List.mem_append.mp hfield with hbefore | hafter
      · exact kept (List.mem_append_left _ hbefore)
      · exact kept (List.mem_append_right _ (List.mem_cons_of_mem _ hafter))
    | @member before name value less after inside =>
      refine conforms_object kind fun field hfield => ?_
      rcases List.mem_append.mp hfield with hbefore | hfield
      · exact kept (List.mem_append_left _ hbefore)
      · rcases List.mem_cons.mp hfield with rfl | hafter
        · have hgiven : (name, value) ∈ before ++ (name, value) :: after :=
            List.mem_append_right _ List.mem_cons_self
          have hchild := declared _ hgiven
          exact ⟨_, hchild, ih _ hgiven (hscoped.child hchild) inside⟩
        · exact kept (List.mem_append_right _ (List.mem_cons_of_mem _ hafter))
  | function kind => exact .function kind

/-- Members that are missing never disqualify. -/
theorem Conforms.omits (h : node.Conforms value) (hscoped : node.Scoped)
    (homits : value.Omits less) : node.Conforms less := by
  induction homits with
  | refl => exact h
  | tail _ omits ih => exact ih.omitsOne hscoped omits

end Node

namespace Matching

variable {union member : Node} {value : Json}

theorem choose_of_mem_conforming (h : member ∈ union.conforming value) :
    choose union value (union.conforming value) = .ok member ∨
      choose union value (union.conforming value) =
        .error (.ambiguousUnionMatch union.key value.text (named (union.conforming value))) := by
  by_cases honly : union.conforming value = [member]
  · exact .inl (choose_eq_ok_iff.mpr honly)
  · have hother : ¬ union.ConformsOnly value member := fun h => honly (Node.conformsOnly_iff.mp h)
    simp only [Node.ConformsOnly, Node.mem_conforming.mp h, and_self, true_and, not_forall] at hother
    obtain ⟨other, hmember, hconforms, hne⟩ := hother
    exact .inr (choose_of_several (Node.mem_conforming.mpr ⟨hmember, hconforms⟩) h hne)

/-- With enough reach, a union is left for the member that the conforming ones decide on. -/
theorem eventually_result_selectMember {start node : Node} (hscoped : start.Scoped)
    (hanchored : ∀ node, Node.Below start node → node.Anchored) (hnode : Node.Below start node)
    (value : Json) :
    ∀ᶠ reach in atTop, (selectMember reach node (some value) none).result =
      choose node value (node.conforming value) := by
  have hmembers : ∀ᶠ reach in atTop, ∀ member ∈ node.members, ∃ passes,
      (fits reach member value).result = .ok passes ∧ (passes = true ↔ member.Conforms value) :=
    eventually_forall_mem fun member hmember =>
      eventually_decides_fits hscoped hanchored ((Node.mem_members.mp hmember).below hnode) value
  refine hmembers.mono fun reach hdecides => result_selectMember fun member hmember => ?_
  exact hdecides member (Node.mem_members.mpr hmember)

/-- Below an entry without parameters, if no chain goes on for ever there: a value from whose objects
members are left out fits what it fitted before, and selects the member of a union that it selected
before or is ambiguous, with that member among the candidates. -/
theorem keeps_choice_of_omits {graph : Graph} {entry : String} {start node : Node}
    (hstart : graph.root.child? (.entry entry) = .ok start) (hplain : start.shape.parameters = [])
    (hchains : ∀ chain : Nat → Node, Node.Below start (chain 0) →
      ∃ n, ¬ (chain n).HandsOn (chain (n + 1)))
    (hnode : Node.Below start node) {value less : Json} (homits : value.Omits less) :
    ∃ enough, ∀ reach, enough ≤ reach →
      ((fits reach node value).result = .ok true → (fits reach node less).result = .ok true) ∧
      ∀ hint? member, (selectMember reach node (some value) hint?).result = .ok member →
        (selectMember reach node (some less) hint?).result = .ok member ∨
        (node.MemberOf member ∧ member.Conforms less) ∧
          (selectMember reach node (some less) hint?).result =
            .error (.ambiguousUnionMatch node.key less.text (named (node.conforming less))) := by
  have hscoped := Node.scoped_of_entry hstart hplain
  have hanchored (node : Node) (hnode : Node.Below start node) : node.Anchored :=
    Node.anchored_below hchains hnode
  obtain ⟨enough, henough⟩ := eventually_atTop.mp
    ((eventually_decides_fits hscoped hanchored hnode less).and
      ((eventually_result_selectMember hscoped hanchored hnode value).and
        (eventually_result_selectMember hscoped hanchored hnode less)))
  refine ⟨enough, fun reach hreach => ?_⟩
  obtain ⟨⟨passes, hpasses, hiff⟩, hvalue, hless⟩ := henough reach hreach
  refine ⟨fun hfits => ?_, fun hint? member hselected => ?_⟩
  · have hconforms : node.Conforms value :=
      ((meets_fits_iff (hscoped.below hnode) reach value).good_of hfits).mp rfl
    rw [hpasses, hiff.mpr (hconforms.omits (hscoped.below hnode) homits)]
  · cases hint? with
    | some hint => exact .inl hselected
    | none =>
      rw [hvalue, choose_eq_ok_iff] at hselected
      have hmem : member ∈ node.conforming value := by
        rw [hselected]
        exact List.mem_singleton_self member
      obtain ⟨hmember, hconforms⟩ := Node.mem_conforming.mp hmem
      have hkept := hconforms.omits ((hscoped.below hnode).below (hmember.below .start)) homits
      rw [hless]
      exact (choose_of_mem_conforming (Node.mem_conforming.mpr ⟨hmember, hkept⟩)).imp_right
        fun hambiguous => ⟨⟨hmember, hkept⟩, hambiguous⟩

end Matching

/-! ## A parcel -/

namespace Parcel

def number : Structure := .primitive ⟨2, "Parcel.0.width"⟩ .number

def side : Structure := .object ⟨4, "Parcel.0.sides.items"⟩ none []
  [⟨"colour", .primitive ⟨5, "Parcel.0.sides.items.colour"⟩ .string, false⟩]

def box : Structure := .object ⟨1, "Parcel.0"⟩ none []
  [⟨"width", number, false⟩, ⟨"sides", .array ⟨3, "Parcel.0.sides"⟩ side, false⟩]

def coat : Structure := .object ⟨9, "Parcel.1.sides.items"⟩ none []
  [⟨"paper", .primitive ⟨10, "Parcel.1.sides.items.paper"⟩ .boolean, true⟩]

def tube : Structure := .object ⟨6, "Parcel.1"⟩ none []
  [⟨"radius", .primitive ⟨7, "Parcel.1.radius"⟩ .number, false⟩,
    ⟨"sides", .array ⟨8, "Parcel.1.sides"⟩ coat, true⟩]

/-- A parcel is a box or a tube; both have sides. -/
def parcel : Structure := .union ⟨0, "Parcel"⟩ [box, tube]

def graph : Graph := ⟨0, ⟨[("Parcel", parcel)], by decide, by rfl⟩⟩

def union : Node := .child graph.root (.entry "Parcel") (.declared parcel [])

def boxes : Node := .child union (.member 0) (.nested [] box)

def given : Json :=
  .object [("width", .ofNat 3), ("sides", .array [.object [("colour", .string "red")]])]

/-- Without the width and the colour the box may be a tube. -/
def bare : Json :=
  .object [("sides", .array [.object []])]

theorem given_omits_bare : given.Omits bare := by
  have hwidth : given.OmitsOne
      (.object [("sides", .array [.object [("colour", .string "red")]])]) := .here [] _ _
  have hcolour : Json.OmitsOne
      (.object [("sides", .array [.object [("colour", .string "red")]])]) bare :=
    .member [] "sides" [] (.item [] [] (.here [] _ []))
  exact .tail (.single hwidth) hcolour

theorem selectMember_given (reach : Nat) :
    (Matching.selectMember (reach + 8) union (some given) none).result = .ok boxes := rfl

theorem selectMember_bare :
    ∃ enough, ∀ reach, enough ≤ reach →
      (Matching.selectMember (reach + 8) union (some bare) none).result = .ok boxes ∨
      (union.MemberOf boxes ∧ boxes.Conforms bare) ∧
        (Matching.selectMember (reach + 8) union (some bare) none).result =
          .error (.ambiguousUnionMatch "Parcel" bare.text
            (Matching.named (union.conforming bare))) := by
  have hstart : graph.root.child? (.entry "Parcel") = .ok union := rfl
  have hfree : union.shape.RefFree := by decide
  obtain ⟨enough, henough⟩ := Matching.keeps_choice_of_omits hstart rfl
    (Node.chains_end_of_refFree hfree rfl) .start given_omits_bare
  exact ⟨enough, fun reach hreach => (henough (reach + 8) (by omega)).2 none boxes
    (selectMember_given reach)⟩

end Parcel

end PathQuery
