import PathQuery.Proofs.Graph.Below
import PathQuery.Proofs.Keyed

/-!
# What a step does

A step from a site enters a declaration of the root, goes to a component of the structure under the
same bindings, or enters the declaration that a reference applies, with its parameters bound anew
(`Site.Transition`). Whatever holds of a structure and its bindings, and is kept by these three,
holds of every node below a start and of every argument in its bindings (`Kept.below`). Components are
always reached, all members of a union among them (`Node.result_allMembers`).
-/

set_option autoImplicit false

namespace PathQuery

/-- The part of a structure that a step leads to, if no declaration has to be entered. -/
def Structure.component? : Structure → Step → Option Structure
  | object _ _ _ properties, .field name | arguments _ properties, .field name =>
    (Property.find? name properties).map Property.shape
  | array _ items, .items => some items
  | function _ args _, .arguments => some args
  | function _ _ returns, .returns => some returns
  | union _ members, .member index => members[index]?
  | nullable _ inner, .inner => some inner
  | typeAlias _ _ _ body, .body => some body
  | _, _ => none

/-- The same, one kind of part at a time. -/
inductive Structure.Component : Structure → Step → Structure → Prop where
  | property {label : Label} {name : Option String} {parameters : List String}
      {properties : List (Property Structure)} {field : String} {property : Property Structure}
      (found : Property.find? field properties = some property) :
      Component (.object label name parameters properties) (.field field) property.shape
  | argument {label : Label} {items : List (Property Structure)} {field : String}
      {item : Property Structure} (found : Property.find? field items = some item) :
      Component (.arguments label items) (.field field) item.shape
  | items {label : Label} {items : Structure} : Component (.array label items) .items items
  | arguments {label : Label} {args returns : Structure} :
      Component (.function label args returns) .arguments args
  | returns {label : Label} {args returns : Structure} :
      Component (.function label args returns) .returns returns
  | member {label : Label} {members : List Structure} {index : Nat} {member : Structure}
      (found : members[index]? = some member) :
      Component (.union label members) (.member index) member
  | inner {label : Label} {inner : Structure} : Component (.nullable label inner) .inner inner
  | body {label : Label} {name : String} {parameters : List String} {body : Structure} :
      Component (.typeAlias label name parameters body) .body body

theorem Structure.component_of_component? {shape part : Structure} {step : Step}
    (h : shape.component? step = some part) : Component shape step part := by
  unfold component? at h
  split at h
  · obtain ⟨property, hfound, rfl⟩ := Option.map_eq_some_iff.mp h
    exact .property hfound
  · obtain ⟨item, hfound, rfl⟩ := Option.map_eq_some_iff.mp h
    exact .argument hfound
  · cases h
    exact .items
  · cases h
    exact .arguments
  · cases h
    exact .returns
  · exact .member h
  · cases h
    exact .inner
  · cases h
    exact .body
  · cases h

theorem Declarations.applied_eq_ok_iff {declarations : Declarations} {label : Label}
    {target : String} {count : Nat} {declaration : Structure} :
    declarations.applied label target count = .ok declaration ↔
      declarations.lookup target = some declaration ∧ declaration.parameters.length = count := by
  unfold applied
  cases hlookup : declarations.lookup target with
  | none => simp
  | some found =>
    by_cases hcount : found.parameters.length = count
    · simp only [if_pos hcount, Except.ok.injEq, Option.some.injEq]
      constructor
      · rintro rfl
        exact ⟨rfl, hcount⟩
      · exact And.left
    · simp only [if_neg hcount, Option.some.injEq, reduceCtorEq, false_iff, not_and]
      rintro rfl
      exact hcount

namespace Site

variable {declarations : Declarations} {site next : Site} {step : Step}

/-- What a step can do, and when. -/
inductive Transition (declarations : Declarations) (site : Site) : Step → Site → Prop where
  | entry {entries : List (String × Structure)} {name : String} {declaration : Structure}
      (shape : site.shape = .root entries) (found : entries.lookup name = some declaration) :
      Transition declarations site (.entry name) (declared declaration [])
  | component {step : Step} {part : Structure} (found : site.shape.component? step = some part) :
      Transition declarations site step (nested site.bindings part)
  | target {label : Label} {target : String} {typeArguments : List Structure}
      {declaration : Structure} (shape : site.shape = .ref label target typeArguments)
      (found : declarations.applied label target typeArguments.length = .ok declaration) :
      Transition declarations site .target
        (declared declaration (Binding.bind site.bindings declaration.parameters typeArguments))

theorem transition_of_child (h : site.child declarations step = .ok next) :
    Transition declarations site step next := by
  unfold child at h
  split at h
  case h_1 hs =>
    split at h
    · next found =>
      cases h
      exact .entry hs found
    · cases h
  case h_2 properties _ hs | h_3 properties _ hs =>
    split at h
    · next property found =>
      cases h
      exact .component (by rw [hs, Structure.component?, found]; rfl)
    · cases h
  case h_7 hs =>
    split at h
    · next member found =>
      cases h
      exact .component (by rw [hs, Structure.component?, found])
    · cases h
  case h_10 hs =>
    obtain ⟨declaration, found, h⟩ := Except.bind_eq_ok_iff.mp h
    cases h
    exact .target hs found
  case h_11 => cases h
  all_goals
    cases h
    exact .component (by simp only [Structure.component?, *])

theorem child_of_component? {part : Structure} (h : site.shape.component? step = some part) :
    site.child declarations step = .ok (nested site.bindings part) := by
  unfold child
  generalize hshape : site.shape = shape at h
  cases Structure.component_of_component? h with
  | property found | argument found | member found =>
    dsimp only
    rw [found]
  | items | arguments | returns | inner | body => rfl

theorem child_target {label : Label} {target : String} {typeArguments : List Structure}
    {declaration : Structure} (shape : site.shape = .ref label target typeArguments)
    (found : declarations.applied label target typeArguments.length = .ok declaration) :
    site.child declarations .target = .ok
      (declared declaration (Binding.bind site.bindings declaration.parameters typeArguments)) := by
  unfold child
  rw [shape]
  dsimp only
  rw [found]
  rfl

theorem child_entry {entries : List (String × Structure)} {name : String} {declaration : Structure}
    (shape : site.shape = .root entries) (found : entries.lookup name = some declaration) :
    site.child declarations (.entry name) = .ok (declared declaration []) := by
  unfold child
  rw [shape]
  dsimp only
  rw [found]

/-- The structure of a site, closed under its bindings. -/
def closure (site : Site) : Binding :=
  .mk site.shape site.bindings

end Site

/-- The structure is not itself a bound parameter. -/
def Structure.Unbound (bindings : Bindings) (shape : Structure) : Prop :=
  ∀ label target typeArguments, shape = .ref label target typeArguments →
    bindings.lookup target = none

namespace Binding

variable {bindings : Bindings} {shape : Structure}

theorem close_of_lookup {label : Label} {target : String} {typeArguments : List Structure}
    {binding : Binding} (h : bindings.lookup target = some binding) :
    close bindings (.ref label target typeArguments) = binding := by
  rw [close, h]
  rfl

theorem close_of_unbound (h : shape.Unbound bindings) : close bindings shape = mk shape bindings := by
  cases shape with
  | ref label target typeArguments =>
    rw [close, h label target typeArguments rfl]
    rfl
  | _ => rfl

/-- A structure is a bound parameter, or it is read as it stands. -/
theorem lookup_or_unbound (bindings : Bindings) (shape : Structure) :
    (∃ label target typeArguments binding, shape = .ref label target typeArguments ∧
      bindings.lookup target = some binding) ∨ shape.Unbound bindings := by
  cases shape with
  | ref label target typeArguments =>
    cases hlookup : bindings.lookup target with
    | some binding => exact .inl ⟨label, target, typeArguments, binding, rfl, hlookup⟩
    | none =>
      right
      intro _ _ _ heq
      cases heq
      exact hlookup
  | _ =>
    right
    intro _ _ _ heq
    cases heq

theorem closure_nested (bindings : Bindings) (part : Structure) :
    (Site.nested bindings part).closure = close bindings part := by
  unfold Site.nested Site.closure
  cases close bindings part
  rfl

theorem closure_of_component {declarations : Declarations} {site next : Site} {step : Step}
    {part : Structure} (hpart : site.shape.component? step = some part)
    (hnext : site.child declarations step = .ok next) :
    next.closure = close site.bindings part := by
  cases Site.transition_of_child hnext with
  | component found =>
    cases found.symm.trans hpart
    exact closure_nested site.bindings part
  | entry shape found =>
    rw [shape] at hpart
    cases hpart
  | target shape found =>
    rw [shape] at hpart
    cases hpart

/-! ## Properties of closures -/

/-- Something holds of a structure under its bindings, and again of each of the arguments there. -/
inductive Hereditary (holds : Structure → Bindings → Prop) : Binding → Prop where
  | mk {shape : Structure} {scope : Bindings} (here : holds shape scope)
      (within : ∀ entry ∈ scope, Hereditary holds entry.2) : Hereditary holds (.mk shape scope)

namespace Hereditary

variable {holds : Structure → Bindings → Prop}

theorem here_of {binding : Binding} (h : Hereditary holds binding) :
    holds binding.shape binding.scope := by
  cases h with
  | mk here _ => exact here

theorem within_of {binding : Binding} (h : Hereditary holds binding) :
    ∀ entry ∈ binding.scope, Hereditary holds entry.2 := by
  cases h with
  | mk _ within => exact within

theorem close (within : ∀ entry ∈ bindings, Hereditary holds entry.2)
    (h : shape.Unbound bindings → holds shape bindings) :
    Hereditary holds (Binding.close bindings shape) := by
  rcases lookup_or_unbound bindings shape with ⟨_, _, _, binding, rfl, hlookup⟩ | hunbound
  · rw [close_of_lookup hlookup]
    exact within _ (Keyed.mem_of_lookup hlookup)
  · rw [close_of_unbound hunbound]
    exact .mk (h hunbound) within

theorem bind (within : ∀ entry ∈ bindings, Hereditary holds entry.2) (parameters : List String)
    {typeArguments : List Structure}
    (h : ∀ argument ∈ typeArguments, argument.Unbound bindings → holds argument bindings) :
    ∀ entry ∈ Binding.bind bindings parameters typeArguments, Hereditary holds entry.2 := by
  intro entry hentry
  have hpair := (List.of_mem_zip (Keyed.mem_of_mem_ofList hentry)).2
  obtain ⟨argument, hargument, hclosed⟩ := List.mem_map.mp hpair
  rw [← hclosed]
  exact close within (h argument hargument)

end Hereditary

end Binding

/-- Whatever a step can do, it leads from structures and bindings of which something holds to others
of which it holds. -/
structure Kept (declarations : Declarations) (holds : Structure → Bindings → Prop) : Prop where
  entry : ∀ {entries bindings name declaration}, holds (.root entries) bindings →
    entries.lookup name = some declaration → holds declaration []
  component : ∀ {shape bindings step part}, holds shape bindings →
    shape.component? step = some part → part.Unbound bindings → holds part bindings
  argument : ∀ {label target typeArguments bindings argument},
    holds (.ref label target typeArguments) bindings → argument ∈ typeArguments →
    argument.Unbound bindings → holds argument bindings
  target : ∀ {label target typeArguments bindings declaration},
    holds (.ref label target typeArguments) bindings →
    declarations.applied label target typeArguments.length = .ok declaration →
    holds declaration (Binding.bind bindings declaration.parameters typeArguments)

namespace Kept

variable {declarations : Declarations} {holds : Structure → Bindings → Prop}

theorem child {site next : Site} {step : Step} (kept : Kept declarations holds)
    (h : site.closure.Hereditary holds) (hstep : site.child declarations step = .ok next) :
    next.closure.Hereditary holds := by
  have here : holds site.shape site.bindings := h.here_of
  have within : ∀ entry ∈ site.bindings, entry.2.Hereditary holds := h.within_of
  cases Site.transition_of_child hstep with
  | entry shape found =>
    rw [shape] at here
    exact .mk (kept.entry here found) fun entry hentry => nomatch hentry
  | component found =>
    rw [Binding.closure_nested]
    exact .close within fun hunbound => kept.component here found hunbound
  | target shape found =>
    rw [shape] at here
    refine .mk (kept.target here found) (.bind within _ fun argument hargument hunbound => ?_)
    exact kept.argument here hargument hunbound

theorem below {start node : Node} (kept : Kept start.graph.schema.entries holds)
    (h : start.site.closure.Hereditary holds) (hnode : Node.Below start node) :
    node.site.closure.Hereditary holds := by
  induction hnode with
  | start => exact h
  | @step parent _ step hparent hstep ih =>
    obtain ⟨site, hsite, rfl⟩ := Node.child?_eq_ok_iff.mp hstep
    rw [hparent.graph_eq] at hsite
    exact kept.child ih hsite

end Kept

namespace Node

variable {node : Node}

theorem child?_of_component? {step : Step} {part : Structure}
    (h : node.shape.component? step = some part) :
    node.child? step = .ok (.child node step (.nested node.bindings part)) :=
  child?_eq_ok_iff.mpr ⟨_, Site.child_of_component? h, rfl⟩

theorem child?_target {label : Label} {target : String} {typeArguments : List Structure}
    {declaration : Structure} (shape : node.shape = .ref label target typeArguments)
    (found : node.graph.schema.entries.applied label target typeArguments.length =
      .ok declaration) :
    node.child? .target = .ok (.child node .target (.declared declaration
      (Binding.bind node.bindings declaration.parameters typeArguments))) :=
  child?_eq_ok_iff.mpr ⟨_, Site.child_target shape found, rfl⟩

/-! ## Members of unions -/

variable {next member : Node}

theorem shape_of_member {index : Nat} (h : node.child? (.member index) = .ok next) :
    ∃ label members, node.shape = .union label members ∧ index < members.length := by
  obtain ⟨site, hsite, rfl⟩ := child?_eq_ok_iff.mp h
  cases Site.transition_of_child hsite with
  | component found =>
    generalize hshape : node.site.shape = shape at found
    cases Structure.component_of_component? found with
    | member hmember => exact ⟨_, _, hshape, (List.getElem?_eq_some_iff.mp hmember).1⟩

theorem kind_of_memberOf (h : MemberOf node next) : node.kind = .union := by
  obtain ⟨index, hindex⟩ := h
  obtain ⟨label, members, hshape, _⟩ := shape_of_member hindex
  exact congrArg Structure.kind hshape

/-- The members of a union, in declaration order. -/
def members (node : Node) : List Node :=
  (List.range node.memberCount).filterMap fun index => (node.child? (.member index)).toOption

theorem index_lt_memberCount {index : Nat} (h : node.child? (.member index) = .ok member) :
    index < node.memberCount := by
  obtain ⟨label, shapes, hshape, hlt⟩ := shape_of_member h
  rwa [memberCount, hshape]

theorem exists_member {index : Nat} (h : index < node.memberCount) :
    ∃ member, node.child? (.member index) = .ok member := by
  unfold memberCount at h
  split at h
  · next label shapes hshape =>
    exact ⟨_, child?_of_component? (by
      rw [hshape, Structure.component?, List.getElem?_eq_getElem h])⟩
  · cases h

theorem mem_members : member ∈ node.members ↔ node.MemberOf member := by
  rw [members, List.mem_filterMap]
  constructor
  · rintro ⟨index, _, h⟩
    cases hchild : node.child? (.member index) with
    | error e =>
      rw [hchild] at h
      cases h
    | ok found =>
      rw [hchild] at h
      cases h
      exact ⟨index, hchild⟩
  · rintro ⟨index, h⟩
    exact ⟨index, List.mem_range.mpr (index_lt_memberCount h), by rw [h]; rfl⟩

theorem result_allMembers (node : Node) : node.allMembers.result = .ok node.members := by
  have hall : ∀ index ∈ List.range node.memberCount,
      ∃ member, (node.step (.member index)).result = .ok member := by
    intro index hindex
    rw [result_step]
    exact exists_member (List.mem_range.mp hindex)
  rw [allMembers, Traced.result_mapM_eq_filterMap hall]
  simp only [result_step, members]

end Node

/-! ## A library -/

namespace Library

/-- A library with tags and a shelf, which is a box of boxes of text. The parameter of a box goes by
the name of an entry. -/
def entries : Declarations :=
  [("Library", .object ⟨0, "Library"⟩ (some "Library") [] [
      ⟨"tags", .array ⟨1, "Library.tags"⟩ (.primitive ⟨2, "Library.tags.items"⟩ .string), false⟩,
      ⟨"shelf", .ref ⟨3, "Library.shelf"⟩ "Box" [
        .ref ⟨4, "Library.shelf.Box"⟩ "Box" [.primitive ⟨5, "Library.shelf.Box.Box"⟩ .string]],
        true⟩]),
    ("Box", .object ⟨6, "Box"⟩ (some "Box") ["Library"] [
      ⟨"item", .ref ⟨7, "Box.item"⟩ "Library" [], false⟩])]

def schema : Schema := ⟨entries, by decide, by rfl⟩

def graph : Graph := ⟨0, schema⟩

def entry : Node :=
  .child graph.root (.entry "Library")
    (.declared ((graph.schema.entry? "Library").getD graph.schema.root) [])

def tags : Node :=
  .child entry (.field "tags") (.nested []
    (.array ⟨1, "Library.tags"⟩ (.primitive ⟨2, "Library.tags.items"⟩ .string)))

end Library

end PathQuery
