import PathQuery.Proofs.Json.Positions
import PathQuery.Query.Variables
import Mathlib.Logic.Basic

/-!
# Variables and what they stand for

Subtrees of a query may be abstracted: a variable is put in the place of each, and the subtrees
are supplied with the query. Substitution puts them back as they were, provided that all objects that
look like variables are in an abstracted part, where nothing is substituted again. It fails
exactly for a variable that stands for no value that was supplied, and that is not inside another
variable.
-/

set_option autoImplicit false

namespace PathQuery

namespace Variables

variable {key : String} {values : List Json} {query reference value : Json}

/-- An object that substitution takes for a variable. -/
def IsVariable (value : Json) : Prop :=
  Instruction.kind? value = some "variable"

instance (value : Json) : Decidable (IsVariable value) :=
  inferInstanceAs (Decidable (_ = _))

/-- A variable that stands for a value which was supplied. -/
structure StandsFor (values : List Json) (reference value : Json) : Prop where
  kind : IsVariable reference
  index : ∃ index n, reference.member? "index" = some index ∧ index.unsigned? = some n ∧
    values[n]? = some value

/-- The index of a variable is missing, is not an unsigned integer or is out of range. -/
inductive Dangling (values : List Json) (reference : Json) : Prop where
  | missing (absent : reference.member? "index" = none)
  | untyped {index : Json} (given : reference.member? "index" = some index)
      (untyped : index.unsigned? = none)
  | outOfRange {index : Json} {n : Nat} (given : reference.member? "index" = some index)
      (unsigned : index.unsigned? = some n) (range : values.length ≤ n)

/-- A variable at a position of the query that is not inside another variable. -/
structure Exposed (query : Json) (position : List Nat) (reference : Json) : Prop where
  found : query.subtreeAt position = some reference
  kind : IsVariable reference
  outermost : ∀ above inside, above <+: position → above ≠ position →
    query.subtreeAt above = some inside → ¬ IsVariable inside

/-! ## Substitution, one value at a time -/

theorem referent_of_standsFor (h : StandsFor values reference value) :
    referent key values reference = .ok value := by
  obtain ⟨_, n, hindex, hunsigned, hvalue⟩ := h.index
  simp only [referent, hindex, Option.bind_some, hunsigned, hvalue]

theorem exists_error_referent_iff :
    (∃ error, referent key values reference = .error error) ↔ Dangling values reference := by
  unfold referent
  constructor
  · rintro ⟨error, herror⟩
    cases hindex : reference.member? "index" with
    | none => exact .missing hindex
    | some index =>
      cases hunsigned : index.unsigned? with
      | none => exact .untyped hindex hunsigned
      | some n =>
        rw [hindex, Option.bind_some, hunsigned, Option.bind_some] at herror
        cases hvalue : values[n]? with
        | none => exact .outOfRange hindex hunsigned (List.getElem?_eq_none_iff.mp hvalue)
        | some value =>
          rw [hvalue] at herror
          cases herror
  · intro h
    have hnone : ((reference.member? "index").bind Json.unsigned?).bind
        (fun index => values[index]?) = none := by
      cases h with
      | missing hindex => rw [hindex, Option.bind_none, Option.bind_none]
      | untyped hindex hunsigned =>
        rw [hindex, Option.bind_some, hunsigned, Option.bind_none]
      | outOfRange hindex hunsigned hrange =>
        rw [hindex, Option.bind_some, hunsigned, Option.bind_some,
          List.getElem?_eq_none_iff.mpr hrange]
    rw [hnone]
    exact ⟨_, rfl⟩

theorem isObject_of_isVariable (h : IsVariable value) : ∃ members, value = .object members := by
  cases value with
  | object members => exact ⟨members, rfl⟩
  | _ => cases h

theorem substitute_of_isVariable (h : IsVariable reference) :
    substitute key values reference = referent key values reference := by
  obtain ⟨members, rfl⟩ := isObject_of_isVariable h
  rw [substitute]
  exact if_pos h

theorem substitute_object {members : List (String × Json)} (h : ¬ IsVariable (.object members)) :
    substitute key values (.object members) =
      (substituteMembers key values members).map .object := by
  rw [substitute]
  exact if_neg h

/-! ## What is abstracted comes back -/

theorem substituteItems_replace {chosen : List Nat → Option Json} {index : Nat} (items : List Json)
    (h : ∀ offset item, items[offset]? = some item →
      substitute key values (item.replace fun position => chosen ((index + offset) :: position)) =
        .ok item) :
    substituteItems key values (Json.replaceItems chosen index items) = .ok items := by
  induction items generalizing index with
  | nil => rfl
  | cons first rest ih =>
    have hfirst : substitute key values
        (first.replace fun position => chosen (index :: position)) = .ok first := h 0 first rfl
    have hrest : substituteItems key values (Json.replaceItems chosen (index + 1) rest) = .ok rest :=
      ih fun offset item hitem => by
        rw [Nat.add_assoc, Nat.add_comm 1]
        exact h (offset + 1) item hitem
    rw [Json.replaceItems, substituteItems, hfirst, hrest]
    rfl

theorem substituteMembers_replace {chosen : List Nat → Option Json} {index : Nat}
    (members : List (String × Json))
    (h : ∀ (offset : Nat) (field : String × Json), members[offset]? = some field →
      substitute key values (field.2.replace fun position => chosen ((index + offset) :: position)) =
        .ok field.2) :
    substituteMembers key values (Json.replaceMembers chosen index members) = .ok members := by
  induction members generalizing index with
  | nil => rfl
  | cons first rest ih =>
    have hfirst : substitute key values
        (first.2.replace fun position => chosen (index :: position)) = .ok first.2 := h 0 first rfl
    have hrest : substituteMembers key values (Json.replaceMembers chosen (index + 1) rest) =
        .ok rest :=
      ih fun offset field hfield => by
        rw [Nat.add_assoc, Nat.add_comm 1]
        exact h (offset + 1) field hfield
    rw [Json.replaceMembers, substituteMembers, hfirst, hrest]
    rfl

section

variable {chosen : List Nat → Option Json}

/-- The chosen positions are in the query, and a variable for what is there stands at each. -/
def Abstracts (values : List Json) (query : Json) (chosen : List Nat → Option Json) : Prop :=
  ∀ position reference, chosen position = some reference →
    ∃ value, query.subtreeAt position = some value ∧ StandsFor values reference value

/-- Whatever looks like a variable is at or below a chosen position. -/
def Covers (query : Json) (chosen : List Nat → Option Json) : Prop :=
  ∀ position value, query.subtreeAt position = some value → IsVariable value →
    ∃ above, above <+: position ∧ (chosen above).isSome

theorem Abstracts.child {child : Json} {index : Nat} (h : Abstracts values query chosen)
    (hchild : query.children[index]? = some child) :
    Abstracts values child fun position => chosen (index :: position) := by
  intro position reference hchosen
  obtain ⟨value, hvalue, hstands⟩ := h _ reference hchosen
  obtain ⟨other, hother, hfound⟩ := Json.subtreeAt_cons_eq_some_iff.mp hvalue
  cases hchild.symm.trans hother
  exact ⟨value, hfound, hstands⟩

theorem Covers.child {child : Json} {index : Nat} (h : Covers query chosen)
    (hnone : chosen [] = none) (hchild : query.children[index]? = some child) :
    Covers child fun position => chosen (index :: position) := by
  intro position value hvalue hvariable
  obtain ⟨above, habove, hchosen⟩ :=
    h (index :: position) value (Json.subtreeAt_cons_eq_some_iff.mpr ⟨child, hchild, hvalue⟩) hvariable
  cases above with
  | nil =>
    rw [hnone] at hchosen
    cases hchosen
  | cons first rest =>
    obtain ⟨rfl, hrest⟩ := List.cons_prefix_cons.mp habove
    exact ⟨rest, hrest, hchosen⟩

theorem Covers.of_chosen (h : (chosen []).isSome) : Covers query chosen :=
  fun position _ _ _ => ⟨[], position.nil_prefix, h⟩

theorem Covers.of_children (hnot : ¬ IsVariable query)
    (h : ∀ index child, query.children[index]? = some child →
      Covers child fun position => chosen (index :: position)) : Covers query chosen := by
  intro position value hvalue hvariable
  cases position with
  | nil =>
    cases hvalue
    exact absurd hvariable hnot
  | cons index position =>
    obtain ⟨child, hchild, hvalue⟩ := Json.subtreeAt_cons_eq_some_iff.mp hvalue
    obtain ⟨above, habove, hchosen⟩ := h index child hchild position value hvalue hvariable
    exact ⟨index :: above, List.cons_prefix_cons.mpr ⟨rfl, habove⟩, hchosen⟩

theorem Covers.not_isVariable (h : Covers query chosen) (hnone : chosen [] = none) :
    ¬ IsVariable query := by
  intro hvariable
  obtain ⟨above, habove, hchosen⟩ := h [] query rfl hvariable
  rw [List.prefix_nil.mp habove, hnone] at hchosen
  cases hchosen

/-- What was put in the place of members makes no variable of an object: its kind is a text only
where it was before. -/
theorem not_isVariable_replaceMembers {members : List (String × Json)}
    (habstracts : Abstracts values (.object members) chosen)
    (h : ¬ IsVariable (.object members)) :
    ¬ IsVariable (.object (Json.replaceMembers chosen 0 members)) := by
  intro hvariable
  obtain ⟨kind, hkind, htext⟩ := Option.bind_eq_some_iff.mp hvariable
  obtain ⟨offset, value, hmember, hlookup, rfl⟩ := Json.lookup_replaceMembers members hkind
  cases hchosen : chosen [0 + offset] with
  | none =>
    rw [Json.string?_replace hchosen] at htext
    exact h (Option.bind_eq_some_iff.mpr ⟨value, hlookup, htext⟩)
  | some reference =>
    obtain ⟨_, _, hstands⟩ := habstracts _ reference hchosen
    obtain ⟨_, rfl⟩ := isObject_of_isVariable hstands.kind
    rw [Json.replace_of_chosen hchosen] at htext
    cases htext

/-- Substitution puts back what was abstracted, and leaves it as it was. -/
theorem substitute_replace (habstracts : Abstracts values query chosen)
    (hcovers : Covers query chosen) :
    substitute key values (query.replace chosen) = .ok query := by
  -- what is known of the choice is inherited by the values inside as long as nothing is chosen here
  induction query using Json.induction_children generalizing chosen with
  | h query ih =>
    cases hchosen : chosen [] with
    | some reference =>
      obtain ⟨_, hvalue, hstands⟩ := habstracts [] reference hchosen
      cases hvalue
      rw [Json.replace_of_chosen hchosen, substitute_of_isVariable hstands.kind,
        referent_of_standsFor hstands]
    | none =>
      have hchild {index : Nat} {child : Json} (hchild : query.children[index]? = some child) :
          substitute key values (child.replace fun position => chosen ((0 + index) :: position)) =
            .ok child := by
        rw [Nat.zero_add]
        exact ih child (List.mem_of_getElem? hchild) (habstracts.child hchild)
          (hcovers.child hchosen hchild)
      cases query with
      | array items =>
        have hitems := substituteItems_replace items fun offset item hitem => hchild hitem
        rw [Json.replace, hchosen, Option.getD_none, substitute, hitems]
        rfl
      | object members =>
        -- an object is substituted member by member unless the replacement made it a variable
        have hmembers := substituteMembers_replace members fun offset field hfield =>
          hchild (Json.children_object hfield)
        have hnot := not_isVariable_replaceMembers habstracts (hcovers.not_isVariable hchosen)
        rw [Json.replace, hchosen, Option.getD_none, substitute_object hnot, hmembers]
        rfl
      | _ =>
        rw [Json.replace, hchosen, Option.getD_none]
        · rfl
        · rintro _ ⟨⟩
        · rintro _ ⟨⟩

end

/-! ## When substitution fails -/

theorem exposed_nil_iff : Exposed query [] reference ↔ query = reference ∧ IsVariable query := by
  constructor
  · rintro ⟨found, hvariable, _⟩
    cases found
    exact ⟨rfl, hvariable⟩
  · rintro ⟨rfl, hvariable⟩
    refine ⟨rfl, hvariable, fun above _ habove hne => ?_⟩
    exact absurd (List.prefix_nil.mp habove) hne

theorem exposed_cons_iff {index : Nat} {position : List Nat} :
    Exposed query (index :: position) reference ↔
      ¬ IsVariable query ∧
        ∃ child, query.children[index]? = some child ∧ Exposed child position reference := by
  constructor
  · rintro ⟨found, hvariable, outermost⟩
    obtain ⟨child, hchild, found⟩ := Json.subtreeAt_cons_eq_some_iff.mp found
    refine ⟨outermost [] query List.nil_prefix nofun rfl, child, hchild, found, hvariable, ?_⟩
    intro above inside habove hne hinside
    refine outermost (index :: above) inside (List.cons_prefix_cons.mpr ⟨rfl, habove⟩) ?_
      (Json.subtreeAt_cons_eq_some_iff.mpr ⟨child, hchild, hinside⟩)
    exact fun heq => hne (List.cons.inj heq).2
  · rintro ⟨hnot, child, hchild, found, hvariable, outermost⟩
    refine ⟨Json.subtreeAt_cons_eq_some_iff.mpr ⟨child, hchild, found⟩, hvariable, ?_⟩
    intro above inside habove hne hinside
    cases above with
    | nil =>
      cases hinside
      exact hnot
    | cons first rest =>
      obtain ⟨rfl, hrest⟩ := List.cons_prefix_cons.mp habove
      obtain ⟨other, hother, hinside⟩ := Json.subtreeAt_cons_eq_some_iff.mp hinside
      cases hchild.symm.trans hother
      exact outermost rest inside hrest (fun heq => hne (congrArg _ heq)) hinside

theorem exists_error_bind_iff {α β γ : Type} {x : Except Error α} {y : Except Error β}
    {f : α → β → γ} :
    (∃ error, (do let a ← x; let b ← y; return f a b) = Except.error error) ↔
      (∃ error, x = .error error) ∨ ∃ error, y = .error error := by
  cases x with
  | error e => exact iff_of_true ⟨e, rfl⟩ (.inl ⟨e, rfl⟩)
  | ok a =>
    cases y with
    | error e => exact iff_of_true ⟨e, rfl⟩ (.inr ⟨e, rfl⟩)
    | ok b => exact iff_of_false nofun (by rintro (⟨_, h⟩ | ⟨_, h⟩) <;> cases h)

theorem exists_error_substituteItems_iff {items : List Json} :
    (∃ error, substituteItems key values items = .error error) ↔
      ∃ item ∈ items, ∃ error, substitute key values item = .error error := by
  induction items with
  | nil => exact iff_of_false nofun nofun
  | cons first rest ih =>
    rw [substituteItems, exists_error_bind_iff, ih]
    simp only [List.mem_cons, exists_eq_or_imp]

theorem exists_error_substituteMembers_iff {members : List (String × Json)} :
    (∃ error, substituteMembers key values members = .error error) ↔
      ∃ field ∈ members, ∃ error, substitute key values field.2 = .error error := by
  induction members with
  | nil => exact iff_of_false nofun nofun
  | cons first rest ih =>
    rw [substituteMembers, exists_error_bind_iff, ih]
    simp only [List.mem_cons, exists_eq_or_imp]

theorem exists_error_substitute_iff_children (h : ¬ IsVariable query) :
    (∃ error, substitute key values query = .error error) ↔
      ∃ child ∈ query.children, ∃ error, substitute key values child = .error error := by
  have hmap {α β : Type} {x : Except Error α} {f : α → β} :
      (∃ error, x.map f = .error error) ↔ ∃ error, x = .error error := by
    cases x <;> simp [Except.map]
  cases query with
  | array items => rw [substitute, hmap, exists_error_substituteItems_iff, Json.children]
  | object members =>
    rw [substitute_object h, hmap, exists_error_substituteMembers_iff, Json.children]
    simp only [List.mem_map, exists_exists_and_eq_and]
  | _ =>
    refine iff_of_false ?_ ?_
    · rintro ⟨_, ⟨⟩⟩
    · rintro ⟨_, ⟨⟩, _⟩

theorem exists_error_substitute_iff :
    (∃ error, substitute key values query = .error error) ↔
      ∃ position reference, Exposed query position reference ∧ Dangling values reference := by
  induction query using Json.induction_children with
  | h query ih =>
    by_cases hvariable : IsVariable query
    · rw [substitute_of_isVariable hvariable, exists_error_referent_iff]
      constructor
      · intro hdangling
        exact ⟨[], query, exposed_nil_iff.mpr ⟨rfl, hvariable⟩, hdangling⟩
      · rintro ⟨position, reference, hexposed, hdangling⟩
        -- nothing is exposed inside a variable
        cases position with
        | nil =>
          obtain ⟨rfl, _⟩ := exposed_nil_iff.mp hexposed
          exact hdangling
        | cons => exact absurd hvariable (exposed_cons_iff.mp hexposed).1
    · rw [exists_error_substitute_iff_children hvariable]
      constructor
      · rintro ⟨child, hchild, herror⟩
        obtain ⟨position, reference, hexposed, hdangling⟩ := (ih child hchild).mp herror
        obtain ⟨index, hindex⟩ := List.mem_iff_getElem?.mp hchild
        exact ⟨index :: position, reference,
          exposed_cons_iff.mpr ⟨hvariable, child, hindex, hexposed⟩, hdangling⟩
      · rintro ⟨position, reference, hexposed, hdangling⟩
        cases position with
        | nil => exact absurd (exposed_nil_iff.mp hexposed).2 hvariable
        | cons index position =>
          obtain ⟨_, child, hindex, hexposed⟩ := exposed_cons_iff.mp hexposed
          have hchild := List.mem_iff_getElem?.mpr ⟨index, hindex⟩
          exact ⟨child, hchild, (ih child hchild).mpr ⟨position, reference, hexposed, hdangling⟩⟩

/-- Substitution undoes abstraction, whatever else the variables carry; and it fails exactly for a
variable without a value that is not inside another variable. -/
theorem undoes_abstraction (key : String) (values : List Json) :
    (∀ (query : Json) (chosen : List Nat → Option Json), Abstracts values query chosen →
      Covers query chosen → substitute key values (query.replace chosen) = .ok query) ∧
    ∀ query : Json, (∃ error, substitute key values query = .error error) ↔
      ∃ position reference, Exposed query position reference ∧ Dangling values reference :=
  ⟨fun _ _ => substitute_replace, fun _ => exists_error_substitute_iff⟩

end Variables

/-! ## A template -/

namespace Template

def term : Json :=
  .object [("kind", .string "variable"), ("index", .ofNat 7)]

def query : Json :=
  .array [.string "Search", .object [("kind", .string "call"), ("args", .object [("term", term)])]]

def values : List Json := [.object [("term", term)], .string "Search"]

/-- The entry and the arguments of the call are variables. -/
def chosen : List Nat → Option Json
  | [0] => some (.object [("kind", .string "variable"), ("index", .ofNat 1)])
  | [1, 1] => some (.object [("index", .ofNat 0), ("note", .null), ("kind", .string "variable")])
  | _ => none

theorem abstracts_query : Variables.Abstracts values query chosen := by
  intro position reference hchosen
  unfold chosen at hchosen
  split at hchosen
  · cases hchosen
    exact ⟨_, rfl, rfl, _, 1, rfl, rfl, rfl⟩
  · cases hchosen
    exact ⟨_, rfl, rfl, _, 0, rfl, rfl, rfl⟩
  · cases hchosen

theorem covers_query : Variables.Covers query chosen := by
  refine .of_children (by decide) fun index item hitem => ?_
  match index with
  | 0 => exact .of_chosen rfl
  | 1 =>
    cases hitem
    refine .of_children (by decide) fun index field hfield => ?_
    match index with
    | 0 =>
      cases hfield
      exact .of_children (by decide) nofun
    | 1 => exact .of_chosen rfl
    | _ + 2 => cases hfield
  | _ + 2 => cases hitem

theorem substitute_template :
    Variables.substitute "Graph" values (query.replace chosen) = .ok query ∧
      ∃ error, Variables.substitute "Graph" [] (query.replace chosen) = .error error := by
  refine ⟨(Variables.undoes_abstraction "Graph" values).1 query chosen abstracts_query covers_query, ?_⟩
  have hexposed : Variables.Exposed (query.replace chosen) [0]
      (.object [("kind", .string "variable"), ("index", .ofNat 1)]) :=
    Variables.exposed_cons_iff.mpr ⟨by decide, _, rfl, Variables.exposed_nil_iff.mpr ⟨rfl, rfl⟩⟩
  have hindex : Json.member? "index" (.object [("kind", .string "variable"), ("index", .ofNat 1)]) =
      some (.ofNat 1) := rfl
  exact ((Variables.undoes_abstraction "Graph" []).2 (query.replace chosen)).mpr
    ⟨_, _, hexposed, .outOfRange hindex rfl (Nat.zero_le 1)⟩

end Template

end PathQuery
