import PathQuery.Proofs.Graph.Scope
import PathQuery.Proofs.Structure.Parts

/-!
# What it takes to be well formed

Every structure obeys a rule of its own, whatever it is written in; a declaration is well formed if
all of its parts obey theirs. The check of a declaration stops at the first fault on its way through
the structure, and passes exactly the well formed ones (`Declarations.check_eq_ok_iff`).
-/

set_option autoImplicit false

namespace PathQuery

namespace Structure

variable {holds : Structure → Prop}

theorem forall_mem_parts_iff (s : Structure) :
    (∀ part ∈ s.parts, holds part) ↔ holds s ∧ ∀ part ∈ s.inside, holds part :=
  List.forall_mem_cons

theorem forall_mem_insideAll_iff {structures : List Structure} :
    (∀ part ∈ insideAll structures, holds part) ↔
      ∀ s ∈ structures, ∀ part ∈ s.parts, holds part := by
  simp only [mem_insideAll_iff, forall_exists_index, and_imp]
  exact ⟨fun h s hs part hpart => h part s hs hpart, fun h part s hs hpart => h s hs part hpart⟩

theorem forall_mem_insideProperties_iff {properties : List (Property Structure)} :
    (∀ part ∈ insideProperties properties, holds part) ↔
      ∀ property ∈ properties, ∀ part ∈ property.shape.parts, holds part := by
  simp only [mem_insideProperties_iff, forall_exists_index, and_imp]
  exact ⟨fun h s hs part hpart => h part s hs hpart, fun h part s hs hpart => h s hs part hpart⟩

end Structure

namespace Declarations

/-- What a structure has to obey by itself. A reference names a type parameter in scope and takes no
type arguments, or it names a declaration and takes as many as that declares. -/
def WellPlaced (declarations : Declarations) (scope : List String) : Structure → Prop
  | .root _ => False
  | .ref _ target typeArguments =>
    target ∈ scope ∧ typeArguments = [] ∨
      ∃ declaration, declarations.lookup target = some declaration ∧
        declaration.parameters.length = typeArguments.length
  | .function _ args _ => args.kind = .arguments
  | .literal _ value => value.isScalar = true
  | _ => True

/-- Every part of every declaration is in order, in the scope of the declaration's parameters. -/
def WellFormed (declarations : Declarations) : Prop :=
  ∀ entry ∈ declarations, ∀ part ∈ entry.2.parts,
    declarations.WellPlaced entry.2.parameters part

/-- No type parameter goes by the name of a declaration. -/
def ParametersApart (declarations : Declarations) : Prop :=
  ∀ entry ∈ declarations, ∀ parameter ∈ entry.2.parameters,
    parameter ∉ Keyed.names declarations

variable {declarations : Declarations} {scope : List String}

theorem mem_names_of_lookup {name : String} {declaration : Structure}
    (h : declarations.lookup name = some declaration) : name ∈ Keyed.names declarations := by
  rw [← Keyed.lookup_isSome_iff_mem, h]
  rfl

theorem checkApplication_eq_ok_iff (hscope : ∀ name ∈ scope, name ∉ Keyed.names declarations)
    (label : Label) (target : String) (typeArguments : List Structure) :
    declarations.checkApplication scope label target typeArguments.length = .ok () ↔
      declarations.WellPlaced scope (.ref label target typeArguments) := by
  rw [checkApplication, WellPlaced]
  by_cases htarget : target ∈ scope
  · rw [if_pos htarget, ← List.length_eq_zero_iff]
    constructor
    · intro h
      split at h
      · next hnone => exact .inl ⟨htarget, hnone⟩
      · cases h
    · rintro (⟨_, hnone⟩ | ⟨declaration, hfound, _⟩)
      · rw [if_pos hnone]
      · exact absurd (mem_names_of_lookup hfound) (hscope target htarget)
  · rw [if_neg htarget, Except.map_eq_ok_iff]
    constructor
    · rintro ⟨declaration, hfound, _⟩
      exact .inr ⟨declaration, applied_eq_ok_iff.mp hfound⟩
    · rintro (⟨hmem, _⟩ | ⟨declaration, hfound⟩)
      · exact absurd hmem htarget
      · exact ⟨declaration, applied_eq_ok_iff.mpr hfound, rfl⟩

/-- The check passes a structure if all of its parts are in order. -/
theorem check_eq_ok_iff (hscope : ∀ name ∈ scope, name ∉ Keyed.names declarations)
    (s : Structure) :
    declarations.check scope s = .ok () ↔
      ∀ part ∈ s.parts, declarations.WellPlaced scope part := by
  induction s using Structure.induction with
  | root entries _ =>
    constructor
    · intro h
      cases h
    · intro h
      exact (h _ (Structure.mem_parts_self _)).elim
  | object _ _ _ properties ih | arguments _ properties ih =>
    rw [check, checkProperties_eq_ok_iff, Structure.forall_mem_parts_iff, Structure.inside,
      Structure.forall_mem_insideProperties_iff, and_iff_right (by trivial)]
    exact forall₂_congr ih
  | typeAlias _ _ _ body ih =>
    rw [check, ih, Structure.forall_mem_parts_iff (.typeAlias ..), and_iff_right (by trivial)]
    rfl
  | array _ items ih =>
    rw [check, ih, Structure.forall_mem_parts_iff (.array ..), and_iff_right (by trivial)]
    rfl
  | nullable _ inner ih =>
    rw [check, ih, Structure.forall_mem_parts_iff (.nullable ..), and_iff_right (by trivial)]
    rfl
  | ref label target typeArguments ih =>
    rw [check_ref_eq_ok_iff, checkApplication_eq_ok_iff hscope, Structure.forall_mem_parts_iff,
      Structure.inside, Structure.forall_mem_insideAll_iff]
    exact and_congr_right fun _ => forall₂_congr ih
  | union _ members ih =>
    rw [check, checkAll_eq_ok_iff, Structure.forall_mem_parts_iff, Structure.inside,
      Structure.forall_mem_insideAll_iff, and_iff_right (by trivial)]
    exact forall₂_congr ih
  | function label args returns iha ihr =>
    rw [check_function_eq_ok_iff, iha, ihr, Structure.forall_mem_parts_iff (.function ..),
      Structure.inside, List.forall_mem_append]
    rfl
  | primitive => simp [check, Structure.parts, Structure.inside, WellPlaced]
  | literal label value =>
    rw [check, Structure.forall_mem_parts_iff, Structure.inside, WellPlaced]
    simp

end Declarations

end PathQuery
