import PathQuery.Structure.Basic

/-!
# Induction over structures

One case for each kind of structure; what is assumed of the structures inside is assumed of every
one in the list that they stand in.
-/

set_option autoImplicit false

namespace PathQuery.Structure

@[elab_as_elim]
theorem induction {motive : Structure → Prop}
    (root : ∀ entries, (∀ entry ∈ entries, motive entry.2) → motive (root entries))
    (object : ∀ label name parameters properties,
      (∀ property ∈ properties, motive property.shape) →
      motive (object label name parameters properties))
    (typeAlias : ∀ label name parameters body, motive body →
      motive (typeAlias label name parameters body))
    (ref : ∀ label target typeArguments, (∀ argument ∈ typeArguments, motive argument) →
      motive (ref label target typeArguments))
    (union : ∀ label members, (∀ member ∈ members, motive member) → motive (union label members))
    (array : ∀ label items, motive items → motive (array label items))
    (nullable : ∀ label inner, motive inner → motive (nullable label inner))
    (function : ∀ label args returns, motive args → motive returns →
      motive (function label args returns))
    (arguments : ∀ label items, (∀ item ∈ items, motive item.shape) →
      motive (arguments label items))
    (primitive : ∀ label type, motive (primitive label type))
    (literal : ∀ label value, motive (literal label value)) (s : Structure) : motive s :=
  @Structure.rec motive (fun entries => ∀ entry ∈ entries, motive entry.2)
    (fun properties => ∀ property ∈ properties, motive property.shape)
    (fun structures => ∀ s ∈ structures, motive s) (fun entry => motive entry.2)
    (fun property => motive property.shape) root object typeAlias ref union array nullable function
    arguments primitive literal nofun
    (fun _ _ first rest => List.forall_mem_cons.mpr ⟨first, rest⟩) nofun
    (fun _ _ first rest => List.forall_mem_cons.mpr ⟨first, rest⟩) nofun
    (fun _ _ first rest => List.forall_mem_cons.mpr ⟨first, rest⟩) (fun _ _ h => h)
    (fun _ _ _ h => h) s

end PathQuery.Structure
