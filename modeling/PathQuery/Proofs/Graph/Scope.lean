import PathQuery.Proofs.Graph.Transition

/-!
# Names in scope

Declarations are checked once, each in the scope of its own parameters; a node is read under the
bindings that were in force where its structure was written. Both agree: the structure of a node
passes the check in the scope of the names that its bindings hold, and so does every type argument
in them, in the scope of its own (`kept_scoped`). Below a declaration without parameters every
reference that is met can be followed.
-/

set_option autoImplicit false

namespace PathQuery

def Error.isUnresolved : Error → Bool
  | unresolvedReference .. => true
  | _ => false

/-- The error does not tell of a reference that could not be followed. -/
def Error.Resolved (error : Error) : Prop :=
  error.isUnresolved = false

namespace Declarations

variable {declarations : Declarations} {scope : List String}

/-! ## Parts of a checked structure -/

theorem checkAll_eq_ok_iff {structures : List Structure} :
    checkAll declarations scope structures = .ok () ↔
      ∀ s ∈ structures, check declarations scope s = .ok () := by
  induction structures with
  | nil => simp [checkAll]
  | cons first rest ih =>
    rw [checkAll, List.forall_mem_cons, ← ih]
    exact Except.bind_unit_eq_ok_iff

theorem checkProperties_eq_ok_iff {properties : List (Property Structure)} :
    checkProperties declarations scope properties = .ok () ↔
      ∀ property ∈ properties, check declarations scope property.shape = .ok () := by
  induction properties with
  | nil => simp [checkProperties]
  | cons first rest ih =>
    rw [checkProperties, List.forall_mem_cons, ← ih]
    exact Except.bind_unit_eq_ok_iff

theorem check_function_eq_ok_iff {label : Label} {args returns : Structure} :
    check declarations scope (.function label args returns) = .ok () ↔
      args.kind = .arguments ∧ check declarations scope args = .ok () ∧
        check declarations scope returns = .ok () := by
  rw [check]
  by_cases hkind : args.kind = .arguments
  · simp only [hkind, ne_eq, not_true_eq_false, if_false, true_and]
    exact Except.bind_unit_eq_ok_iff
  · rw [if_pos hkind]
    constructor
    · intro h
      cases h
    · intro h
      exact absurd h.1 hkind

theorem check_ref_eq_ok_iff {label : Label} {target : String} {typeArguments : List Structure} :
    check declarations scope (.ref label target typeArguments) = .ok () ↔
      declarations.checkApplication scope label target typeArguments.length = .ok () ∧
        ∀ argument ∈ typeArguments, check declarations scope argument = .ok () := by
  rw [check, ← checkAll_eq_ok_iff]
  exact Except.bind_unit_eq_ok_iff

theorem check_of_component? {shape part : Structure} {step : Step}
    (h : check declarations scope shape = .ok ()) (hpart : shape.component? step = some part) :
    check declarations scope part = .ok () := by
  cases Structure.component_of_component? hpart with
  | property found | argument found =>
    rw [check] at h
    exact checkProperties_eq_ok_iff.mp h _ (List.mem_of_find?_eq_some found)
  | items | inner | body => rwa [check] at h
  | arguments => exact (check_function_eq_ok_iff.mp h).2.1
  | returns => exact (check_function_eq_ok_iff.mp h).2.2
  | member found =>
    rw [check] at h
    exact checkAll_eq_ok_iff.mp h part (List.mem_of_getElem? found)

theorem applied_of_checkApplication {label : Label} {target : String} {count : Nat}
    (h : declarations.checkApplication scope label target count = .ok ())
    (htarget : target ∉ scope) :
    ∃ declaration, declarations.applied label target count = .ok declaration := by
  rw [checkApplication, if_neg htarget] at h
  obtain ⟨declaration, hfound, _⟩ := Except.map_eq_ok_iff.mp h
  exact ⟨declaration, hfound⟩

/-! ## Structures under bindings -/

/-- The names in scope are those that the bindings hold. -/
def Models (scope : List String) (bindings : Bindings) : Prop :=
  ∀ name, name ∈ scope ↔ (bindings.lookup name).isSome

/-- A structure as it is read under bindings: it was checked in their scope, and it is not itself
one of the parameters. -/
structure Scoped (declarations : Declarations) (shape : Structure) (bindings : Bindings) : Prop where
  checked : ∃ scope, Models scope bindings ∧ declarations.check scope shape = .ok ()
  unbound : shape.Unbound bindings

theorem Scoped.applied {label : Label} {target : String} {typeArguments : List Structure}
    {bindings : Bindings} (h : declarations.Scoped (.ref label target typeArguments) bindings) :
    ∃ declaration, declarations.applied label target typeArguments.length = .ok declaration := by
  obtain ⟨scope, hscope, hcheck⟩ := h.checked
  refine applied_of_checkApplication (check_ref_eq_ok_iff.mp hcheck).1 fun htarget => ?_
  have hbound := (hscope target).mp htarget
  rw [h.unbound label target typeArguments rfl] at hbound
  cases hbound

/-- Every declaration passes the check in the scope of its own parameters. -/
def SelfChecked (declarations : Declarations) : Prop :=
  ∀ entry ∈ declarations, declarations.check entry.2.parameters entry.2 = .ok ()

theorem selfChecked_of_validate (h : declarations.validate = .ok ()) :
    declarations.SelfChecked := by
  obtain ⟨_, hchecked, _⟩ := Except.bind_eq_ok_iff.mp h
  exact Except.forM_eq_ok_iff.mp hchecked

theorem unbound_of_parameters {declaration : Structure} {bindings : Bindings}
    (h : declaration.parameters = [] → bindings = []) : declaration.Unbound bindings := by
  rintro label target typeArguments rfl
  rw [h rfl]
  rfl

theorem models_bind {parameters : List String} {typeArguments : List Structure}
    (h : parameters.length = typeArguments.length) (bindings : Bindings) :
    Models parameters (Binding.bind bindings parameters typeArguments) := by
  intro name
  rw [Keyed.lookup_isSome_iff_mem, Binding.bind, Keyed.mem_names_ofList,
    List.map_fst_zip (by rw [List.length_map]; exact Nat.le_of_eq h)]

/-- Steps lead from structures in scope to structures in scope. -/
theorem kept_scoped (h : declarations.SelfChecked) : Kept declarations declarations.Scoped where
  entry hroot _ := by
    obtain ⟨_, _, hcheck⟩ := hroot.checked
    cases hcheck
  component hshape hpart hunbound := by
    obtain ⟨scope, hscope, hcheck⟩ := hshape.checked
    exact ⟨⟨scope, hscope, check_of_component? hcheck hpart⟩, hunbound⟩
  argument hshape hargument hunbound := by
    obtain ⟨scope, hscope, hcheck⟩ := hshape.checked
    exact ⟨⟨scope, hscope, (check_ref_eq_ok_iff.mp hcheck).2 _ hargument⟩, hunbound⟩
  target hshape hfound := by
    obtain ⟨hlookup, hlength⟩ := applied_eq_ok_iff.mp hfound
    refine ⟨⟨_, models_bind hlength _, h _ (Keyed.mem_of_lookup hlookup)⟩, ?_⟩
    refine unbound_of_parameters fun hnone => ?_
    rw [hnone]
    rfl

end Declarations

/-! ## Steps from sites in scope -/

/-- Where references apply declarations a step fails through the fault of who asks for it. -/
theorem Site.category_of_child {declarations : Declarations} {site : Site}
    (h : ∀ label target typeArguments, site.shape = .ref label target typeArguments →
      ∃ declaration, declarations.applied label target typeArguments.length = .ok declaration)
    {step : Step} {error : Error} (hstep : site.child declarations step = .error error) :
    error.category = .client := by
  unfold child at hstep
  split at hstep
  case h_10 hs =>
    obtain ⟨declaration, hfound⟩ := h _ _ _ hs
    rw [hfound] at hstep
    cases hstep
  case h_1 | h_2 | h_3 | h_7 =>
    split at hstep
    · cases hstep
    · cases hstep
      rfl
  case h_11 =>
    cases hstep
    rfl
  all_goals cases hstep

theorem Error.resolved_of_category {error : Error} (h : error.category = .client) :
    error.Resolved := by
  cases error <;> first | rfl | cases h

/-- Only a reference that does not apply a declaration makes a step fail for a reference. -/
theorem Site.child_resolved {declarations : Declarations} {site : Site}
    (h : ∀ label target typeArguments, site.shape = .ref label target typeArguments →
      ∃ declaration, declarations.applied label target typeArguments.length = .ok declaration)
    {step : Step} {error : Error} (hstep : site.child declarations step = .error error) :
    error.Resolved :=
  Error.resolved_of_category (category_of_child h hstep)

namespace Node

variable {node next : Node}

/-- The structure of a node is in scope, and so are the type arguments in force there. -/
def Scoped (node : Node) : Prop :=
  node.site.closure.Hereditary node.graph.schema.entries.Scoped

theorem Scoped.here (h : node.Scoped) :
    node.graph.schema.entries.Scoped node.shape node.bindings :=
  h.here_of

theorem Scoped.entry_of_ref (h : node.Scoped) {label : Label} {target : String}
    {typeArguments : List Structure} (hshape : node.shape = .ref label target typeArguments) :
    ∃ declaration, node.graph.schema.entry? target = some declaration ∧
      declaration.parameters.length = typeArguments.length := by
  have hhere := h.here
  rw [hshape] at hhere
  obtain ⟨declaration, hfound⟩ := hhere.applied
  exact ⟨declaration, Declarations.applied_eq_ok_iff.mp hfound⟩

theorem Scoped.child (h : node.Scoped) {step : Step} (hstep : node.child? step = .ok next) :
    next.Scoped := by
  have hchecked := Declarations.selfChecked_of_validate node.graph.schema.accepted
  obtain ⟨site, hsite, rfl⟩ := child?_eq_ok_iff.mp hstep
  exact (Declarations.kept_scoped hchecked).child h hsite

theorem Scoped.below {start : Node} (h : start.Scoped) (hnode : Below start node) : node.Scoped := by
  induction hnode with
  | start => exact h
  | step _ hstep ih => exact ih.child hstep

theorem Scoped.category_of_child? (h : node.Scoped) {step : Step} {error : Error}
    (hstep : node.child? step = .error error) : error.category = .client := by
  apply Site.category_of_child _ (child?_eq_error_iff.mp hstep)
  intro label target typeArguments hs
  have hhere := h.here
  rw [shape, hs] at hhere
  exact hhere.applied

theorem Scoped.meets_child (h : node.Scoped) (step : Step) :
    (node.child? step).Meets Scoped Error.Resolved := by
  rw [Except.Meets.iff]
  constructor
  · intro next hnext
    exact h.child hnext
  · intro error herror
    exact Error.resolved_of_category (h.category_of_child? herror)

theorem scoped_of_entry {graph : Graph} {name : String} {start : Node}
    (hstart : graph.root.child? (.entry name) = .ok start) (hplain : start.shape.parameters = []) :
    start.Scoped := by
  obtain ⟨site, hsite, rfl⟩ := child?_eq_ok_iff.mp hstart
  cases Site.transition_of_child hsite with
  | @entry _ _ declaration shape found =>
    cases shape
    have hparameters : declaration.parameters = [] := hplain
    have hchecked := Declarations.selfChecked_of_validate graph.schema.accepted _
      (Keyed.mem_of_lookup found)
    rw [hparameters] at hchecked
    exact .mk ⟨⟨[], fun name => ⟨nofun, nofun⟩, hchecked⟩, fun _ _ _ _ => rfl⟩ nofun
  | component found => cases found

end Node

end PathQuery
