import PathQuery.Proofs.Graph.Scope
import PathQuery.Proofs.Structure.Induction

/-!
# Closed types

A node stands for the type that its structure is once every bound name in it is replaced, all at
once, by the closed type of the argument it is bound to. Bindings are replaced one step at a time
and only where a reference is met; closed types say what all of this amounts to
(`Node.closedType_of_step`).
-/

set_option autoImplicit false

namespace PathQuery

/-- What names stand for. -/
abbrev Environment := List (String × Structure)

namespace Structure

mutual

/-- Replaces all references to names of an environment at the same time. What is put in is not
looked at again. -/
def instantiate (environment : Environment) : Structure → Structure
  | root entries => root entries
  | object label name parameters properties =>
    object label name parameters (instantiateProperties environment properties)
  | typeAlias label name parameters body =>
    typeAlias label name parameters (instantiate environment body)
  | ref label target typeArguments =>
    match environment.lookup target with
    | some type => type
    | none => ref label target (instantiateAll environment typeArguments)
  | union label members => union label (instantiateAll environment members)
  | array label items => array label (instantiate environment items)
  | nullable label inner => nullable label (instantiate environment inner)
  | function label args returns =>
    function label (instantiate environment args) (instantiate environment returns)
  | arguments label items => arguments label (instantiateProperties environment items)
  | primitive label type => primitive label type
  | literal label value => literal label value

def instantiateAll (environment : Environment) : List Structure → List Structure
  | [] => []
  | s :: rest => instantiate environment s :: instantiateAll environment rest

def instantiateProperties (environment : Environment) :
    List (Property Structure) → List (Property Structure)
  | [] => []
  | ⟨name, shape, optional⟩ :: rest =>
    ⟨name, instantiate environment shape, optional⟩ :: instantiateProperties environment rest

end

end Structure

/-- A property of another shape. -/
def Property.mapShape {σ τ : Type} (f : σ → τ) (property : Property σ) : Property τ :=
  ⟨property.name, f property.shape, property.optional⟩

namespace Structure

variable {environment other : Environment}

theorem instantiateAll_eq_map (environment : Environment) (structures : List Structure) :
    instantiateAll environment structures = structures.map (instantiate environment) := by
  induction structures with
  | nil => rfl
  | cons s rest ih => rw [instantiateAll, ih, List.map_cons]

theorem instantiateProperties_eq_map (environment : Environment)
    (properties : List (Property Structure)) :
    instantiateProperties environment properties =
      properties.map (Property.mapShape (instantiate environment)) := by
  induction properties with
  | nil => rfl
  | cons property rest ih =>
    rw [instantiateProperties, ih, List.map_cons]
    rfl

theorem instantiate_congr (h : ∀ name, environment.lookup name = other.lookup name)
    (s : Structure) : s.instantiate environment = s.instantiate other := by
  have properties (items : List (Property Structure))
      (ih : ∀ item ∈ items, item.shape.instantiate environment = item.shape.instantiate other) :
      instantiateProperties environment items = instantiateProperties other items := by
    rw [instantiateProperties_eq_map, instantiateProperties_eq_map]
    refine List.map_congr_left fun item hitem => ?_
    rw [Property.mapShape, ih item hitem]
    rfl
  have all (structures : List Structure)
      (ih : ∀ s ∈ structures, s.instantiate environment = s.instantiate other) :
      instantiateAll environment structures = instantiateAll other structures := by
    rw [instantiateAll_eq_map, instantiateAll_eq_map]
    exact List.map_congr_left ih
  induction s using Structure.induction with
  | root | primitive | literal => rfl
  | object _ _ _ items ih | arguments _ items ih =>
    rw [instantiate, instantiate, properties items ih]
  | typeAlias _ _ _ _ ih | array _ _ ih | nullable _ _ ih => rw [instantiate, instantiate, ih]
  | ref _ target typeArguments ih =>
    rw [instantiate, instantiate, h target, all typeArguments ih]
  | union _ members ih => rw [instantiate, instantiate, all members ih]
  | function _ _ _ iha ihr => rw [instantiate, instantiate, iha, ihr]

theorem instantiate_nil (s : Structure) : s.instantiate [] = s := by
  have properties (items : List (Property Structure))
      (ih : ∀ item ∈ items, item.shape.instantiate [] = item.shape) :
      instantiateProperties [] items = items := by
    rw [instantiateProperties_eq_map]
    refine (List.map_congr_left fun item hitem => ?_).trans items.map_id
    rw [Property.mapShape, ih item hitem]
    rfl
  have all (structures : List Structure) (ih : ∀ s ∈ structures, s.instantiate [] = s) :
      instantiateAll [] structures = structures := by
    rw [instantiateAll_eq_map]
    exact (List.map_congr_left ih).trans structures.map_id
  induction s using Structure.induction with
  | root | primitive | literal => rfl
  | object _ _ _ items ih | arguments _ items ih => rw [instantiate, properties items ih]
  | typeAlias _ _ _ _ ih | array _ _ ih | nullable _ _ ih => rw [instantiate, ih]
  | ref _ _ typeArguments ih => rw [instantiate, List.lookup_nil, all typeArguments ih]
  | union _ members ih => rw [instantiate, all members ih]
  | function _ _ _ iha ihr => rw [instantiate, iha, ihr]

theorem find?_instantiateProperties (environment : Environment) (name : String)
    (properties : List (Property Structure)) :
    Property.find? name (instantiateProperties environment properties) =
      (Property.find? name properties).map (Property.mapShape (instantiate environment)) := by
  rw [instantiateProperties_eq_map, Property.find?, List.find?_map]
  rfl

theorem kind_instantiate_eq_arguments {s : Structure} (h : s.kind = .arguments) :
    (s.instantiate environment).kind = .arguments := by
  cases s with
  | arguments _ _ => rfl
  | _ => cases h

theorem component?_target_ne (shape part : Structure) : shape.component? .target ≠ some part := by
  cases shape <;> exact nofun

theorem component?_instantiate {shape part : Structure} {step : Step}
    (h : shape.component? step = some part) :
    (shape.instantiate environment).component? step = some (part.instantiate environment) := by
  cases component_of_component? h with
  | property found | argument found =>
    rw [instantiate, component?, find?_instantiateProperties, found]
    rfl
  | items | arguments | returns | inner | body => rw [instantiate, component?]
  | member found =>
    rw [instantiate, component?, instantiateAll_eq_map, List.getElem?_map, found]
    rfl

end Structure

/-! ## Closed types of closures -/

namespace Binding

mutual

/-- The structure of a closure with its bindings put in, which are closed first. -/
def closed : Binding → Structure
  | mk shape scope => shape.instantiate (closedAll scope)

def closedAll : Bindings → Environment
  | [] => []
  | (name, binding) :: rest => (name, closed binding) :: closedAll rest

end

theorem closedAll_eq_map (bindings : Bindings) :
    closedAll bindings = bindings.map fun entry => (entry.1, entry.2.closed) := by
  induction bindings with
  | nil => rfl
  | cons entry rest ih => rw [closedAll, ih, List.map_cons]

theorem lookup_closedAll (bindings : Bindings) (name : String) :
    (closedAll bindings).lookup name = (bindings.lookup name).map closed := by
  rw [closedAll_eq_map, Keyed.lookup_mapValues]

/-- Whether a bound parameter is replaced now or together with the rest makes no difference. -/
theorem closed_close (bindings : Bindings) (shape : Structure) :
    (close bindings shape).closed = shape.instantiate (closedAll bindings) := by
  rcases lookup_or_unbound bindings shape with
    ⟨label, target, typeArguments, binding, rfl, hlookup⟩ | hunbound
  · rw [close_of_lookup hlookup, Structure.instantiate, lookup_closedAll, hlookup]
    rfl
  · rw [close_of_unbound hunbound, closed]

/-- The parameters of a declaration stand for the closed types of the arguments; of arguments for
the same parameter the last one counts. -/
theorem lookup_closedAll_bind (bindings : Bindings) (parameters : List String)
    (typeArguments : List Structure) (name : String) :
    (closedAll (bind bindings parameters typeArguments)).lookup name =
      (parameters.zip (Structure.instantiateAll (closedAll bindings) typeArguments)).reverse.lookup
        name := by
  have hclosed : typeArguments.map (Structure.instantiate (closedAll bindings)) =
      (typeArguments.map (close bindings)).map closed := by
    rw [List.map_map]
    exact List.map_congr_left fun argument _ => (closed_close bindings argument).symm
  have hzip : parameters.zip ((typeArguments.map (close bindings)).map closed) =
      (parameters.zip (typeArguments.map (close bindings))).map fun entry =>
        (entry.1, entry.2.closed) :=
    List.zip_map_right
  rw [closedAll_eq_map, bind, Keyed.ofList_mapValues, Keyed.lookup_ofList,
    Structure.instantiateAll_eq_map, hclosed, hzip]

end Binding

/-! ## No name is left -/

namespace Declarations

variable {declarations : Declarations} {scope : List String} {environment : Environment}

/-- The environment gives a closed type to every name in scope, and to no other. -/
structure Supplies (declarations : Declarations) (environment : Environment)
    (scope : List String) : Prop where
  names : ∀ name, name ∈ scope ↔ (environment.lookup name).isSome
  closed : ∀ name type, environment.lookup name = some type → declarations.check [] type = .ok ()

theorem checkApplication_of_not_mem {label : Label} {target : String} {count : Nat}
    (h : declarations.checkApplication scope label target count = .ok ())
    (htarget : target ∉ scope) :
    declarations.checkApplication [] label target count = .ok () := by
  rw [checkApplication, if_neg htarget] at h
  rw [checkApplication, if_neg (by simp), h]

/-- A structure that passes the check in a scope passes it in no scope once the names are
replaced. -/
theorem check_instantiate (hsupplies : declarations.Supplies environment scope) {s : Structure}
    (h : declarations.check scope s = .ok ()) :
    declarations.check [] (s.instantiate environment) = .ok () := by
  have properties (items : List (Property Structure))
      (ih : ∀ item ∈ items, declarations.check scope item.shape = .ok () →
        declarations.check [] (item.shape.instantiate environment) = .ok ())
      (h : checkProperties declarations scope items = .ok ()) :
      checkProperties declarations [] (Structure.instantiateProperties environment items) = .ok () := by
    rw [Structure.instantiateProperties_eq_map, checkProperties_eq_ok_iff]
    intro replaced hreplaced
    obtain ⟨item, hitem, rfl⟩ := List.mem_map.mp hreplaced
    exact ih item hitem (checkProperties_eq_ok_iff.mp h item hitem)
  have all (structures : List Structure)
      (ih : ∀ s ∈ structures, declarations.check scope s = .ok () →
        declarations.check [] (s.instantiate environment) = .ok ())
      (h : ∀ s ∈ structures, declarations.check scope s = .ok ()) :
      ∀ s ∈ Structure.instantiateAll environment structures, declarations.check [] s = .ok () := by
    rw [Structure.instantiateAll_eq_map]
    intro replaced hreplaced
    obtain ⟨s, hs, rfl⟩ := List.mem_map.mp hreplaced
    exact ih s hs (h s hs)
  induction s using Structure.induction with
  | root entries => cases h
  | object _ _ _ items ih | arguments _ items ih =>
    rw [check] at h
    rw [Structure.instantiate, check]
    exact properties items ih h
  | typeAlias _ _ _ _ ih | array _ _ ih | nullable _ _ ih =>
    rw [check] at h
    rw [Structure.instantiate, check]
    exact ih h
  | ref label target typeArguments ih =>
    obtain ⟨happlication, harguments⟩ := check_ref_eq_ok_iff.mp h
    rw [Structure.instantiate]
    cases hlookup : environment.lookup target with
    | some type => exact hsupplies.closed target type hlookup
    | none =>
      refine check_ref_eq_ok_iff.mpr ⟨?_, all typeArguments ih harguments⟩
      rw [Structure.instantiateAll_eq_map, List.length_map]
      refine checkApplication_of_not_mem happlication fun htarget => ?_
      rw [hsupplies.names, hlookup] at htarget
      cases htarget
  | union label members ih =>
    rw [check, checkAll_eq_ok_iff] at h
    rw [Structure.instantiate, check, checkAll_eq_ok_iff]
    exact all members ih h
  | function label args returns iha ihr =>
    obtain ⟨hkind, hargs, hreturns⟩ := check_function_eq_ok_iff.mp h
    rw [Structure.instantiate, check_function_eq_ok_iff]
    exact ⟨Structure.kind_instantiate_eq_arguments hkind, iha hargs, ihr hreturns⟩
  | primitive label type => rw [Structure.instantiate, check]
  | literal label value =>
    rw [check] at h
    rwa [Structure.instantiate, check]

theorem check_closed {binding : Binding} (h : binding.Hereditary declarations.Scoped) :
    declarations.check [] binding.closed = .ok () := by
  induction h with
  | @mk shape bindings here _ ih =>
    obtain ⟨scope, hscope, hcheck⟩ := here.checked
    have hsupplies : declarations.Supplies (Binding.closedAll bindings) scope := by
      constructor
      · intro name
        rw [hscope, Binding.lookup_closedAll, Option.isSome_map]
      · intro name type htype
        rw [Binding.lookup_closedAll] at htype
        obtain ⟨binding, hlookup, rfl⟩ := Option.map_eq_some_iff.mp htype
        exact ih _ (Keyed.mem_of_lookup hlookup)
    rw [Binding.closed]
    exact check_instantiate hsupplies hcheck

end Declarations

/-! ## Closed types of nodes -/

namespace Node

variable {graph : Graph} {entry : String} {start node next : Node} {step : Step}

/-- The type that a node stands for. -/
def closedType (node : Node) : Structure :=
  node.site.closure.closed

theorem closedType_eq (node : Node) :
    node.closedType = node.shape.instantiate (Binding.closedAll node.bindings) := by
  rw [closedType, Site.closure, Binding.closed]
  rfl

theorem Scoped.component?_closedType (h : node.Scoped) (hstep : node.child? step = .ok next)
    (htarget : step ≠ .target) : node.closedType.component? step = some next.closedType := by
  obtain ⟨site, hsite, rfl⟩ := child?_eq_ok_iff.mp hstep
  cases Site.transition_of_child hsite with
  | entry shape found =>
    obtain ⟨_, _, hcheck⟩ := h.here.checked
    rw [Node.shape, shape] at hcheck
    cases hcheck
  | @component _ part found =>
    have hnext : (node.child step (.nested node.bindings part)).closedType =
        part.instantiate (Binding.closedAll node.bindings) := by
      rw [closedType, site, Binding.closure_nested, Binding.closed_close]
    rw [closedType_eq]
    exact (Structure.component?_instantiate found).trans (congrArg some hnext.symm)
  | target shape found => exact absurd rfl htarget

theorem Scoped.closedType_target (h : node.Scoped) (hstep : node.child? .target = .ok next) :
    ∃ label target arguments declaration, node.closedType = .ref label target arguments ∧
      node.graph.schema.entry? target = some declaration ∧
      declaration.parameters.length = arguments.length ∧
      next.closedType = declaration.instantiate (declaration.parameters.zip arguments).reverse := by
  obtain ⟨site, hsite, rfl⟩ := child?_eq_ok_iff.mp hstep
  cases Site.transition_of_child hsite with
  | component found => exact absurd found (Structure.component?_target_ne _ _)
  | @target label target typeArguments declaration shape found =>
    obtain ⟨hlookup, hlength⟩ := Declarations.applied_eq_ok_iff.mp found
    have hunbound : node.bindings.lookup target = none := h.here.unbound label target typeArguments shape
    refine ⟨label, target, Structure.instantiateAll (Binding.closedAll node.bindings) typeArguments,
      declaration, ?_, hlookup, ?_, ?_⟩
    · rw [closedType_eq, Node.shape, shape, Structure.instantiate, Binding.lookup_closedAll, hunbound]
      rfl
    · rw [hlength, Structure.instantiateAll_eq_map, List.length_map]
    · rw [closedType_eq]
      exact Structure.instantiate_congr
        (Binding.lookup_closedAll_bind node.bindings declaration.parameters typeArguments) declaration

/-- Below a declaration without parameters every step does to closed types what substitution does:
it leads to a component, or to a declaration whose parameters are replaced all at once. Of arguments
for the same parameter the last one counts. Closed types refer to declarations only. -/
theorem closedType_of_step (hstart : graph.root.child? (.entry entry) = .ok start)
    (hplain : start.shape.parameters = []) (hnode : Below start node)
    (hstep : node.child? step = .ok next) :
    start.closedType = start.shape ∧
      graph.schema.entries.check [] next.closedType = .ok () ∧
      (step ≠ .target → node.closedType.component? step = some next.closedType) ∧
      (step = .target → ∃ label target arguments declaration,
        node.closedType = .ref label target arguments ∧
        graph.schema.entry? target = some declaration ∧
        declaration.parameters.length = arguments.length ∧
        next.closedType = declaration.instantiate (declaration.parameters.zip arguments).reverse) := by
  have hscoped := (scoped_of_entry hstart hplain).below hnode
  have hgraph : node.graph = graph := hnode.graph_eq.trans (graph_of_child? hstart)
  refine ⟨?_, ?_, fun htarget => hscoped.component?_closedType hstep htarget, ?_⟩
  · obtain ⟨site, hsite, rfl⟩ := child?_eq_ok_iff.mp hstart
    cases Site.transition_of_child hsite with
    | entry => exact Structure.instantiate_nil _
    | component found => cases found
  · have hclosed := Declarations.check_closed (hscoped.child hstep)
    rwa [graph_of_child? hstep, hgraph] at hclosed
  · rintro rfl
    rw [← hgraph]
    exact hscoped.closedType_target hstep

end Node

namespace Library

def textBox : Structure :=
  .ref ⟨4, "Library.shelf.Box"⟩ "Box" [.primitive ⟨5, "Library.shelf.Box.Box"⟩ .string]

def shelf : Node :=
  .child entry (.field "shelf") (.nested [] (.ref ⟨3, "Library.shelf"⟩ "Box" [textBox]))

def box : Node :=
  .child shelf .target (.declared ((graph.schema.entry? "Box").getD graph.schema.root)
    (Binding.bind [] ["Library"] [textBox]))

/-- In the box of boxes, the parameter stands for a box of text, and not for the entry that has its
name. -/
theorem closedType_box : box.closedType.component? (.field "item") = some textBox := by
  have hshelf : entry.child? (.field "shelf") = .ok shelf := rfl
  have hbox : shelf.child? .target = .ok box := rfl
  obtain ⟨item, hitem⟩ : ∃ item, box.child? (.field "item") = .ok item := ⟨_, rfl⟩
  have hstart : graph.root.child? (.entry "Library") = .ok entry := rfl
  have hclosed := Node.closedType_of_step hstart rfl (.step (.step .start hshelf) hbox) hitem
  cases hitem
  exact hclosed.2.2.1 (by decide)

end Library

end PathQuery
