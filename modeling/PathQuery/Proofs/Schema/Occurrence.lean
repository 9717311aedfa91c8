import Mathlib.Logic.Relation
import PathQuery.Proofs.Schema.WellFormed
import PathQuery.Schema.Chain

/-!
# Chains of occurrences

A structure occurs in the lexical scope that it was written in: each parameter of the declaration
around it stands for a type argument, which occurs in a scope of its own. A chain goes from an alias
to its body, from a bound parameter to its argument, and from a reference to the declaration that it
applies (`Declarations.Leads`). The parameters of the declaration that a chain starts at stand for
nothing, and end it.
-/

set_option autoImplicit false

namespace PathQuery

/-- A structure where it is written, or a type parameter that stands for nothing. -/
inductive Occurrence where
  | parameter (name : String)
  | written (shape : Structure) (scope : List (String × Occurrence))

namespace Occurrence

/-- The scope inside a declaration that is applied to type arguments. Of arguments for the same
parameter the last one counts. -/
def inner (scope : List (String × Occurrence)) (parameters : List String)
    (typeArguments : List Structure) : List (String × Occurrence) :=
  Keyed.ofList (parameters.zip (typeArguments.map fun argument => written argument scope))

/-- A declaration by itself. -/
def opened (declaration : Structure) : Occurrence :=
  written declaration (declaration.parameters.map fun name => (name, parameter name))

end Occurrence

namespace Declarations

/-- One move of a chain. -/
inductive Leads (declarations : Declarations) : Occurrence → Occurrence → Prop where
  | body {label : Label} {name : String} {parameters : List String} {body : Structure}
      {scope : List (String × Occurrence)} :
      Leads declarations (.written (.typeAlias label name parameters body) scope)
        (.written body scope)
  | argument {label : Label} {target : String} {typeArguments : List Structure}
      {scope : List (String × Occurrence)} {occurrence : Occurrence}
      (bound : scope.lookup target = some occurrence) :
      Leads declarations (.written (.ref label target typeArguments) scope) occurrence
  | declaration {label : Label} {target : String} {typeArguments : List Structure}
      {scope : List (String × Occurrence)} {declaration : Structure}
      (free : scope.lookup target = none)
      (applied : declarations.applied label target typeArguments.length = .ok declaration) :
      Leads declarations (.written (.ref label target typeArguments) scope)
        (.written declaration (Occurrence.inner scope declaration.parameters typeArguments))

/-- The chain ends, at a parameter or at a structure that is neither alias nor reference, after at
most so many steps into declarations. -/
inductive Ends (declarations : Declarations) : Nat → Occurrence → Prop where
  | parameter {steps : Nat} {name : String} : Ends declarations steps (.parameter name)
  | concrete {steps : Nat} {shape : Structure} {scope : List (String × Occurrence)}
      (ref : shape.kind ≠ .ref) (typeAlias : shape.kind ≠ .typeAlias) :
      Ends declarations steps (.written shape scope)
  | body {steps : Nat} {label : Label} {name : String} {parameters : List String}
      {body : Structure} {scope : List (String × Occurrence)}
      (rest : Ends declarations steps (.written body scope)) :
      Ends declarations steps (.written (.typeAlias label name parameters body) scope)
  | argument {steps : Nat} {label : Label} {target : String} {typeArguments : List Structure}
      {scope : List (String × Occurrence)} {occurrence : Occurrence}
      (bound : scope.lookup target = some occurrence)
      (rest : Ends declarations steps occurrence) :
      Ends declarations steps (.written (.ref label target typeArguments) scope)
  | declaration {steps : Nat} {label : Label} {target : String} {typeArguments : List Structure}
      {scope : List (String × Occurrence)} {declaration : Structure}
      (free : scope.lookup target = none)
      (applied : declarations.applied label target typeArguments.length = .ok declaration)
      (rest : Ends declarations steps
        (.written declaration (Occurrence.inner scope declaration.parameters typeArguments))) :
      Ends declarations (steps + 1) (.written (.ref label target typeArguments) scope)

variable {declarations : Declarations} {steps : Nat} {occurrence next : Occurrence}
  {scope : List (String × Occurrence)}

theorem Leads.unique {next' : Occurrence} (h : declarations.Leads occurrence next)
    (h' : declarations.Leads occurrence next') : next' = next := by
  cases h with
  | body =>
    cases h'
    rfl
  | argument bound =>
    cases h' with
    | argument bound' => exact Option.some.inj (bound'.symm.trans bound)
    | declaration free => cases free.symm.trans bound
  | declaration free applied =>
    cases h' with
    | argument bound => cases free.symm.trans bound
    | declaration _ applied' =>
      cases applied'.symm.trans applied
      rfl

theorem Leads.kind {s : Structure} (h : declarations.Leads (.written s scope) next) :
    s.kind = .ref ∨ s.kind = .typeAlias := by
  cases h with
  | body => exact .inr rfl
  | argument | declaration => exact .inl rfl

theorem Ends.mono {more : Nat} (h : declarations.Ends steps occurrence) (hmore : steps ≤ more) :
    declarations.Ends more occurrence := by
  induction h generalizing more with
  | parameter => exact .parameter
  | concrete ref typeAlias => exact .concrete ref typeAlias
  | body _ ih => exact .body (ih hmore)
  | argument bound _ ih => exact .argument bound (ih hmore)
  | declaration free applied _ ih =>
    obtain ⟨more, rfl⟩ : ∃ fewer, more = fewer + 1 := ⟨more - 1, by omega⟩
    exact .declaration free applied (ih (by omega))

theorem Ends.leads (h : declarations.Ends steps occurrence)
    (hleads : declarations.Leads occurrence next) : declarations.Ends steps next := by
  cases h with
  | parameter => cases hleads
  | concrete ref typeAlias =>
    exact (hleads.kind.elim ref typeAlias).elim
  | body rest => exact Leads.unique .body hleads ▸ rest
  | argument bound rest => exact (Leads.argument bound).unique hleads ▸ rest
  | declaration free applied rest =>
    exact (Leads.declaration free applied).unique hleads ▸ rest.mono (Nat.le_succ _)

theorem Ends.descends (h : declarations.Ends steps occurrence)
    (hnext : Relation.ReflTransGen declarations.Leads occurrence next) :
    declarations.Ends steps next := by
  induction hnext with
  | refl => exact h
  | tail _ hleads ih => exact ih.leads hleads

/-- A chain that ends does not go on for ever. -/
theorem Ends.not_forever (h : declarations.Ends steps occurrence) (chain : Nat → Occurrence)
    (hchain : ∀ i, declarations.Leads (chain i) (chain (i + 1))) : chain 0 ≠ occurrence := by
  induction h generalizing chain with
  | parameter =>
    intro hstart
    cases hstart ▸ hchain 0
  | concrete ref typeAlias =>
    intro hstart
    exact (Leads.kind (hstart ▸ hchain 0)).elim ref typeAlias
  | body _ ih =>
    intro hstart
    exact ih (fun i => chain (i + 1)) (fun i => hchain (i + 1))
      (Leads.unique .body (hstart ▸ hchain 0))
  | argument bound _ ih =>
    intro hstart
    exact ih (fun i => chain (i + 1)) (fun i => hchain (i + 1))
      ((Leads.argument bound).unique (hstart ▸ hchain 0))
  | declaration free applied _ ih =>
    intro hstart
    exact ih (fun i => chain (i + 1)) (fun i => hchain (i + 1))
      ((Leads.declaration free applied).unique (hstart ▸ hchain 0))

theorem ends_unaliased_iff (s : Structure) :
    declarations.Ends steps (.written s.unaliased scope) ↔
      declarations.Ends steps (.written s scope) := by
  induction s using Structure.unaliased.induct with
  | case1 label name parameters body ih =>
    rw [Structure.unaliased, ih]
    constructor
    · exact .body
    · intro h
      exact h.leads .body
  | case2 s hs =>
    rw [Structure.unaliased]
    exact hs

theorem ends_applied_iff {label : Label} {target : String} {typeArguments : List Structure}
    {declaration : Structure} (free : scope.lookup target = none)
    (applied : declarations.applied label target typeArguments.length = .ok declaration) :
    declarations.Ends steps (.written (.ref label target typeArguments) scope) ↔
      ∃ fewer, steps = fewer + 1 ∧ declarations.Ends fewer
        (.written declaration (Occurrence.inner scope declaration.parameters typeArguments)) := by
  constructor
  · intro h
    cases h with
    | concrete ref => exact absurd rfl ref
    | argument bound => cases free.symm.trans bound
    | declaration _ applied' rest =>
      cases applied'.symm.trans applied
      exact ⟨_, rfl, rest⟩
  · rintro ⟨fewer, rfl, rest⟩
    exact .declaration free applied rest

end Declarations

end PathQuery
