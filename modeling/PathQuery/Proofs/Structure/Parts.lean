import PathQuery.Proofs.Graph.Transition
import PathQuery.Proofs.Structure.Induction

/-!
# Parts of structures

The parts of a structure are itself and everything written inside it, type arguments included. Every
node below the root of a graph stands at a part of its schema (`Node.Below.shape_mem_parts`).
-/

set_option autoImplicit false

namespace PathQuery

namespace Structure

mutual

/-- The structures written inside a structure. -/
def inside : Structure → List Structure
  | root entries => insideEntries entries
  | object _ _ _ properties | arguments _ properties => insideProperties properties
  | typeAlias _ _ _ inner | array _ inner | nullable _ inner => inner :: inside inner
  | ref _ _ parts | union _ parts => insideAll parts
  | function _ args returns => args :: inside args ++ returns :: inside returns
  | primitive .. | literal .. => []

def insideAll : List Structure → List Structure
  | [] => []
  | s :: rest => s :: inside s ++ insideAll rest

def insideProperties : List (Property Structure) → List Structure
  | [] => []
  | ⟨_, shape, _⟩ :: rest => shape :: inside shape ++ insideProperties rest

def insideEntries : List (String × Structure) → List Structure
  | [] => []
  | (_, s) :: rest => s :: inside s ++ insideEntries rest

end

/-- A structure and the structures written inside it. -/
def parts (s : Structure) : List Structure :=
  s :: s.inside

theorem mem_insideAll_iff {s : Structure} {structures : List Structure} :
    s ∈ insideAll structures ↔ ∃ whole ∈ structures, s ∈ whole.parts := by
  induction structures with
  | nil => simp [insideAll]
  | cons first rest ih =>
    rw [insideAll, List.mem_append, ih]
    simp only [List.mem_cons, exists_eq_or_imp, parts]

theorem mem_insideProperties_iff {s : Structure} {properties : List (Property Structure)} :
    s ∈ insideProperties properties ↔ ∃ property ∈ properties, s ∈ property.shape.parts := by
  induction properties with
  | nil => simp [insideProperties]
  | cons first rest ih =>
    rw [insideProperties, List.mem_append, ih]
    simp only [List.mem_cons, exists_eq_or_imp, parts]

theorem mem_insideEntries_iff {s : Structure} {entries : List (String × Structure)} :
    s ∈ insideEntries entries ↔ ∃ entry ∈ entries, s ∈ entry.2.parts := by
  induction entries with
  | nil => simp [insideEntries]
  | cons first rest ih =>
    rw [insideEntries, List.mem_append, ih]
    simp only [List.mem_cons, exists_eq_or_imp, parts]

theorem mem_parts_self (s : Structure) : s ∈ s.parts :=
  List.mem_cons_self

theorem mem_inside_of_component? {shape part : Structure} {step : Step}
    (h : shape.component? step = some part) : part ∈ shape.inside := by
  cases component_of_component? h with
  | property found | argument found =>
    rw [inside, mem_insideProperties_iff]
    exact ⟨_, List.mem_of_find?_eq_some found, mem_parts_self _⟩
  | items | inner | body | arguments =>
    rw [inside]
    exact List.mem_cons_self
  | returns =>
    rw [inside]
    exact List.mem_append_right _ List.mem_cons_self
  | member found =>
    rw [inside, mem_insideAll_iff]
    exact ⟨part, List.mem_of_getElem? found, mem_parts_self part⟩

theorem inside_trans {inner part whole : Structure} (h : inner ∈ part.inside)
    (hpart : part ∈ whole.inside) : inner ∈ whole.inside := by
  have of_parts (s : Structure) (ih : part ∈ s.inside → inner ∈ s.inside) (hs : part ∈ s.parts) :
      inner ∈ s.parts := by
    rcases List.mem_cons.mp hs with rfl | hs
    · exact List.mem_cons_of_mem _ h
    · exact List.mem_cons_of_mem _ (ih hs)
  induction whole using Structure.induction with
  | root entries ih =>
    rw [inside, mem_insideEntries_iff] at hpart ⊢
    obtain ⟨entry, hentry, hpart⟩ := hpart
    exact ⟨entry, hentry, of_parts _ (ih entry hentry) hpart⟩
  | object _ _ _ properties ih | arguments _ properties ih =>
    rw [inside, mem_insideProperties_iff] at hpart ⊢
    obtain ⟨property, hproperty, hpart⟩ := hpart
    exact ⟨property, hproperty, of_parts _ (ih property hproperty) hpart⟩
  | typeAlias _ _ _ body ih | array _ body ih | nullable _ body ih =>
    rw [inside] at hpart ⊢
    exact of_parts body ih hpart
  | ref _ _ structures ih | union _ structures ih =>
    rw [inside, mem_insideAll_iff] at hpart ⊢
    obtain ⟨s, hs, hpart⟩ := hpart
    exact ⟨s, hs, of_parts s (ih s hs) hpart⟩
  | function _ args returns iha ihr =>
    rw [inside, List.mem_append] at hpart ⊢
    exact hpart.imp (of_parts args iha) (of_parts returns ihr)
  | primitive | literal => cases hpart

theorem mem_parts_of_inside {inner part whole : Structure} (h : inner ∈ part.inside)
    (hpart : part ∈ whole.parts) : inner ∈ whole.parts := by
  rcases List.mem_cons.mp hpart with rfl | hpart
  · exact List.mem_cons_of_mem _ h
  · exact List.mem_cons_of_mem _ (inside_trans h hpart)

theorem mem_inside_of_entry {entries : List (String × Structure)} {name : String} {s : Structure}
    (h : entries.lookup name = some s) : s ∈ (root entries).inside := by
  rw [inside, mem_insideEntries_iff]
  exact ⟨_, Keyed.mem_of_lookup h, mem_parts_self s⟩

theorem mem_inside_of_argument {label : Label} {target : String} {typeArguments : List Structure}
    {argument : Structure} (h : argument ∈ typeArguments) :
    argument ∈ (ref label target typeArguments).inside := by
  rw [inside, mem_insideAll_iff]
  exact ⟨argument, h, mem_parts_self argument⟩

end Structure

theorem kept_mem_parts (declarations : Declarations) :
    Kept declarations fun shape _ => shape ∈ (Structure.root declarations).parts where
  entry h found := Structure.mem_parts_of_inside (Structure.mem_inside_of_entry found) h
  component h found _ := Structure.mem_parts_of_inside (Structure.mem_inside_of_component? found) h
  argument h hargument _ :=
    Structure.mem_parts_of_inside (Structure.mem_inside_of_argument hargument) h
  target _ found :=
    List.mem_cons_of_mem _
      (Structure.mem_inside_of_entry (Declarations.applied_eq_ok_iff.mp found).1)

/-- No step leads out of the schema. -/
theorem Node.Below.shape_mem_parts {graph : Graph} {node : Node} (h : Node.Below graph.root node) :
    node.shape ∈ graph.schema.root.parts := by
  have hroot : graph.root.site.closure.Hereditary fun shape _ =>
      shape ∈ (Structure.root graph.schema.entries).parts :=
    .mk List.mem_cons_self fun entry hentry => nomatch hentry
  have kept : Kept graph.root.graph.schema.entries fun shape _ =>
      shape ∈ (Structure.root graph.schema.entries).parts :=
    kept_mem_parts graph.schema.entries
  exact (kept.below hroot h).here_of

end PathQuery
