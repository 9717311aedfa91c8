import PathQuery.Json.Basic

/-!
# Positions in a value

A position counts, level by level, the values inside a list or an object. The subtree at a position
may be replaced, and so may those at many positions at once; below a position that is replaced
nothing else is. A member keeps its name and its place.
-/

set_option autoImplicit false

namespace PathQuery

namespace Json

@[elab_as_elim]
theorem induction {motive : Json → Prop} (null : motive null) (bool : ∀ b, motive (bool b))
    (number : ∀ n, motive (number n)) (string : ∀ s, motive (string s))
    (array : ∀ items, (∀ item ∈ items, motive item) → motive (array items))
    (object : ∀ members, (∀ field ∈ members, motive field.2) → motive (object members))
    (value : Json) : motive value :=
  @Json.rec motive (fun items => ∀ item ∈ items, motive item)
    (fun members => ∀ field ∈ members, motive field.2) (fun field => motive field.2) null bool
    number string array object nofun (fun _ _ first rest => List.forall_mem_cons.mpr ⟨first, rest⟩)
    nofun (fun _ _ first rest => List.forall_mem_cons.mpr ⟨first, rest⟩) (fun _ _ h => h) value

/-! ## Subtrees -/

/-- The values directly inside, in their order. -/
def children : Json → List Json
  | .array items => items
  | .object members => members.map Prod.snd
  | _ => []

/-- A property of values that all of them inherit from the values inside. -/
theorem induction_children {motive : Json → Prop}
    (h : ∀ value : Json, (∀ child ∈ value.children, motive child) → motive value) (value : Json) :
    motive value := by
  induction value using induction with
  | null | bool | number | string => exact h _ nofun
  | array items ih => exact h _ ih
  | object members ih =>
    refine h _ fun child hchild => ?_
    obtain ⟨field, hfield, rfl⟩ := List.mem_map.mp hchild
    exact ih field hfield

def subtreeAt (value : Json) : List Nat → Option Json
  | [] => some value
  | index :: rest => value.children[index]?.bind fun child => child.subtreeAt rest

/-! ## Replacement -/

mutual

/-- Puts other values at the outermost of the chosen positions. -/
def replace (chosen : List Nat → Option Json) : Json → Json
  | .array items => (chosen []).getD (.array (replaceItems chosen 0 items))
  | .object members => (chosen []).getD (.object (replaceMembers chosen 0 members))
  | value => (chosen []).getD value

def replaceItems (chosen : List Nat → Option Json) (index : Nat) : List Json → List Json
  | [] => []
  | item :: rest =>
    replace (fun position => chosen (index :: position)) item ::
      replaceItems chosen (index + 1) rest

def replaceMembers (chosen : List Nat → Option Json) (index : Nat) :
    List (String × Json) → List (String × Json)
  | [] => []
  | (name, value) :: rest =>
    (name, replace (fun position => chosen (index :: position)) value) ::
      replaceMembers chosen (index + 1) rest

end

variable {value child found : Json} {chosen : List Nat → Option Json} {position : List Nat}
  {index : Nat}

@[simp] theorem subtreeAt_nil : value.subtreeAt [] = some value := rfl

theorem subtreeAt_cons_eq_some_iff :
    value.subtreeAt (index :: position) = some found ↔
      ∃ child, value.children[index]? = some child ∧ child.subtreeAt position = some found := by
  rw [subtreeAt, Option.bind_eq_some_iff]

theorem children_object {members : List (String × Json)} {field : String × Json}
    (h : members[index]? = some field) : (object members).children[index]? = some field.2 := by
  rw [children, List.getElem?_map, h, Option.map_some]

theorem string?_replace (h : chosen [] = none) : (value.replace chosen).string? = value.string? := by
  cases value <;> simp only [replace, h, Option.getD_none, string?]

theorem replace_of_chosen (h : chosen [] = some found) : value.replace chosen = found := by
  cases value <;> simp only [replace, h, Option.getD_some]

/-- A member keeps its name, and the first of a name stays the first. -/
theorem lookup_replaceMembers {name : String} (members : List (String × Json))
    (h : (replaceMembers chosen index members).lookup name = some found) :
    ∃ offset value, members[offset]? = some (name, value) ∧ members.lookup name = some value ∧
      found = value.replace fun position => chosen ((index + offset) :: position) := by
  induction members generalizing index with
  | nil => cases h
  | cons first rest ih =>
    obtain ⟨other, value⟩ := first
    rw [replaceMembers, List.lookup_cons] at h
    rw [List.lookup_cons]
    split at h
    · next heq =>
      cases h
      rw [beq_iff_eq] at heq
      subst heq
      exact ⟨0, value, rfl, rfl, rfl⟩
    · next heq =>
      obtain ⟨offset, found, hmember, hlookup, hreplace⟩ := ih h
      refine ⟨offset + 1, found, hmember, hlookup, ?_⟩
      rw [hreplace]
      simp only [Nat.add_assoc, Nat.add_comm 1 offset]

end Json

end PathQuery
