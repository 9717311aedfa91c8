import PathQuery.Proofs.Graph.Transition

/-!
# Other identities

A declaration that is read anew has other identities than before. Apart from them nothing changes: a
step leads from a renumbered site to the renumbered site that it led to before, as long as the reference
that it follows applies the renumbered declaration (`Site.child_renumber`).
-/

set_option autoImplicit false

namespace PathQuery

def Label.renumber (f : Nat → Nat) (label : Label) : Label :=
  { label with identity := f label.identity }

namespace Structure

variable (f : Nat → Nat)

mutual

/-- The structure with every identity replaced. -/
def renumber : Structure → Structure
  | root entries => root (renumberEntries entries)
  | object label name parameters properties =>
    object (label.renumber f) name parameters (renumberProperties properties)
  | typeAlias label name parameters body => typeAlias (label.renumber f) name parameters (renumber body)
  | ref label target typeArguments => ref (label.renumber f) target (renumberAll typeArguments)
  | union label members => union (label.renumber f) (renumberAll members)
  | array label items => array (label.renumber f) (renumber items)
  | nullable label inner => nullable (label.renumber f) (renumber inner)
  | function label args returns => function (label.renumber f) (renumber args) (renumber returns)
  | arguments label items => arguments (label.renumber f) (renumberProperties items)
  | primitive label type => primitive (label.renumber f) type
  | literal label value => literal (label.renumber f) value

def renumberAll : List Structure → List Structure
  | [] => []
  | s :: rest => renumber s :: renumberAll rest

def renumberProperties : List (Property Structure) → List (Property Structure)
  | [] => []
  | ⟨name, shape, optional⟩ :: rest => ⟨name, renumber shape, optional⟩ :: renumberProperties rest

def renumberEntries : List (String × Structure) → List (String × Structure)
  | [] => []
  | (name, s) :: rest => (name, renumber s) :: renumberEntries rest

end

variable (s : Structure)

@[simp] theorem kind_renumber : (s.renumber f).kind = s.kind := by
  cases s <;> rfl

@[simp] theorem key_renumber : (s.renumber f).key = s.key := by
  cases s <;> rfl

@[simp] theorem parameters_renumber : (s.renumber f).parameters = s.parameters := by
  cases s <;> rfl

@[simp] theorem memberName?_renumber : (s.renumber f).memberName? = s.memberName? := by
  cases s <;> rfl

@[simp] theorem isWrapper_renumber : (s.renumber f).isWrapper = s.isWrapper := by
  cases s <;> rfl

@[simp] theorem identity?_renumber : (s.renumber f).identity? = s.identity?.map f := by
  cases s <;> rfl

theorem renumberAll_eq_map (structures : List Structure) :
    renumberAll f structures = structures.map (renumber f) := by
  induction structures with
  | nil => rfl
  | cons s rest ih => rw [renumberAll, ih, List.map_cons]

theorem renumberEntries_eq_map (entries : List (String × Structure)) :
    renumberEntries f entries = entries.map fun entry => (entry.1, entry.2.renumber f) := by
  induction entries with
  | nil => rfl
  | cons entry rest ih => rw [renumberEntries, ih, List.map_cons]

theorem find?_renumberProperties (name : String) (properties : List (Property Structure)) :
    Property.find? name (renumberProperties f properties) =
      (Property.find? name properties).map fun property =>
        { property with shape := property.shape.renumber f } := by
  unfold Property.find?
  induction properties with
  | nil => rfl
  | cons property rest ih =>
    rw [renumberProperties, List.find?_cons, List.find?_cons, ih]
    cases property.name == name <;> rfl

end Structure

/-! ## Bindings -/

namespace Binding

open Structure (renumberAll renumberAll_eq_map)

variable (f : Nat → Nat)

mutual

/-- The same argument, with other identities, in a scope with other identities. -/
def renumber : Binding → Binding
  | mk shape scope => mk (shape.renumber f) (renumberScope scope)

def renumberScope : List (String × Binding) → List (String × Binding)
  | [] => []
  | (name, binding) :: rest => (name, renumber binding) :: renumberScope rest

end

theorem renumberScope_eq_map (scope : Bindings) :
    renumberScope f scope = scope.map fun entry => (entry.1, entry.2.renumber f) := by
  induction scope with
  | nil => rfl
  | cons entry rest ih => rw [renumberScope, ih, List.map_cons]

theorem close_renumber (bindings : Bindings) (s : Structure) :
    close (renumberScope f bindings) (s.renumber f) = (close bindings s).renumber f := by
  cases s with
  | ref label target typeArguments =>
    rw [Structure.renumber, close, close, renumberScope_eq_map, Keyed.lookup_mapValues]
    cases bindings.lookup target with
    | none =>
      rw [Option.map_none, Option.getD_none, Option.getD_none, renumber, Structure.renumber,
        renumberScope_eq_map]
    | some binding => rfl
  | _ => rfl

theorem bind_renumber (bindings : Bindings) (parameters : List String)
    (typeArguments : List Structure) :
    bind (renumberScope f bindings) parameters (renumberAll f typeArguments) =
      renumberScope f (bind bindings parameters typeArguments) := by
  have hclosed : (close (renumberScope f bindings)) ∘ Structure.renumber f =
      renumber f ∘ close bindings := funext (close_renumber f bindings)
  rw [bind, bind, renumberScope_eq_map f (Keyed.ofList _), Keyed.ofList_mapValues,
    renumberAll_eq_map, List.map_map, hclosed, ← List.map_map, List.zip_map_right]
  rfl

end Binding

/-! ## Steps -/

namespace Site

open Structure (renumberEntries_eq_map renumberAll_eq_map find?_renumberProperties)

def renumber (f : Nat → Nat) (site : Site) : Site where
  shape := site.shape.renumber f
  bindings := Binding.renumberScope f site.bindings
  declaration := site.declaration

variable (f : Nat → Nat)

theorem nested_renumber (bindings : Bindings) (s : Structure) :
    nested (Binding.renumberScope f bindings) (s.renumber f) = (nested bindings s).renumber f := by
  unfold nested
  rw [Binding.close_renumber]
  cases Binding.close bindings s
  rfl

theorem entry_renumber (entries : List (String × Structure)) (name : String) (error : Error) :
    (match (Structure.renumberEntries f entries).lookup name with
      | some entry => .ok (declared entry [])
      | none => .error error : Except Error Site) =
    (match entries.lookup name with
      | some entry => .ok (declared entry [])
      | none => .error error : Except Error Site).map (renumber f) := by
  rw [renumberEntries_eq_map, Keyed.lookup_mapValues]
  cases entries.lookup name <;> rfl

theorem property_renumber (bindings : Bindings) (properties : List (Property Structure))
    (name : String) (error : Error) :
    (match Property.find? name (Structure.renumberProperties f properties) with
      | some property => .ok (nested (Binding.renumberScope f bindings) property.shape)
      | none => .error error : Except Error Site) =
    (match Property.find? name properties with
      | some property => .ok (nested bindings property.shape)
      | none => .error error : Except Error Site).map (renumber f) := by
  rw [find?_renumberProperties]
  cases Property.find? name properties with
  | none => rfl
  | some property => exact congrArg Except.ok (nested_renumber f bindings property.shape)

theorem member_renumber (bindings : Bindings) (members : List Structure) (index : Nat)
    (error : Error) :
    (match (Structure.renumberAll f members)[index]? with
      | some member => .ok (nested (Binding.renumberScope f bindings) member)
      | none => .error error : Except Error Site) =
    (match members[index]? with
      | some member => .ok (nested bindings member)
      | none => .error error : Except Error Site).map (renumber f) := by
  rw [renumberAll_eq_map, List.getElem?_map]
  cases members[index]? with
  | none => rfl
  | some member => exact congrArg Except.ok (nested_renumber f bindings member)

/-- Steps go the same way, as long as the reference that they follow applies the same declaration. -/
theorem child_renumber {declarations declarations' : Declarations} {site : Site} (step : Step)
    (happlied : ∀ label target typeArguments, site.shape = .ref label target typeArguments →
      ∃ declaration, declarations.applied label target typeArguments.length = .ok declaration ∧
        declarations'.applied (label.renumber f) target typeArguments.length =
          .ok (declaration.renumber f)) :
    (site.renumber f).child declarations' step = (site.child declarations step).map (renumber f) := by
  obtain ⟨shape, bindings, declaration⟩ := site
  cases shape with
  | root entries =>
    cases step with
    | entry name => exact entry_renumber f entries name _
    | _ => rfl
  | object label name parameters properties =>
    cases step with
    | field name => exact property_renumber f bindings properties name _
    | _ => rfl
  | arguments label items =>
    cases step with
    | field name => exact property_renumber f bindings items name _
    | _ => rfl
  | array label items =>
    cases step with
    | items => exact congrArg Except.ok (nested_renumber f bindings items)
    | _ => rfl
  | nullable label inner =>
    cases step with
    | inner => exact congrArg Except.ok (nested_renumber f bindings inner)
    | _ => rfl
  | typeAlias label name parameters body =>
    cases step with
    | body => exact congrArg Except.ok (nested_renumber f bindings body)
    | _ => rfl
  | function label args returns =>
    cases step with
    | arguments => exact congrArg Except.ok (nested_renumber f bindings args)
    | returns => exact congrArg Except.ok (nested_renumber f bindings returns)
    | _ => rfl
  | union label members =>
    cases step with
    | member index => exact member_renumber f bindings members index _
    | _ => rfl
  | ref label target typeArguments =>
    cases step with
    | target =>
      obtain ⟨found, hfound, hfound'⟩ := happlied label target typeArguments rfl
      have hrenumbered : declarations'.applied (label.renumber f) target
          (Structure.renumberAll f typeArguments).length = .ok (found.renumber f) := by
        rw [renumberAll_eq_map, List.length_map]
        exact hfound'
      rw [child_target rfl hfound]
      refine (child_target rfl hrenumbered).trans ?_
      rw [Structure.parameters_renumber]
      exact congrArg (fun bindings => Except.ok (declared (found.renumber f) bindings))
        (Binding.bind_renumber f bindings found.parameters typeArguments)
    | _ => rfl
  | primitive label type => cases step <;> rfl
  | literal label value => cases step <;> rfl

end Site

end PathQuery
