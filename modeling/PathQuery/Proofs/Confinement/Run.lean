import PathQuery.Proofs.Confinement.Fence
import PathQuery.Proofs.Query.Assembly
import PathQuery.Proofs.Query.Demand

/-!
# Queries are confined to the entry

A query is compiled at the root, and from there at the entry and at the nodes below it; `path`
instructions lead back to the root and to nowhere else. So a run inside a fence that is open for these
nodes is the free run, whatever is done at the others (`Engine.confined_of_assemble`).
-/

set_option autoImplicit false

namespace PathQuery

/-! ## Nodes below the entry -/

namespace Node

/-- The node itself, the one it was reached from, and so on up to the root. -/
def ancestry : Node → List Node
  | root graph => [root graph]
  | child parent step site => child parent step site :: parent.ancestry

theorem mem_ancestry_self (node : Node) : node ∈ node.ancestry := by
  cases node <;> exact List.mem_cons_self

theorem trace_suffix_of_mem_ancestry {ancestor node : Node} (h : ancestor ∈ node.ancestry) :
    ancestor.trace <:+ node.trace := by
  induction node with
  | root graph =>
    cases List.mem_singleton.mp h
    exact List.suffix_rfl
  | child parent step site ih =>
    rcases List.mem_cons.mp h with rfl | h
    · exact List.suffix_rfl
    · exact (ih h).trans (List.suffix_cons _ _)

theorem Below.mem_ancestry {start node : Node} (h : Below start node) : start ∈ node.ancestry := by
  induction h with
  | start => exact start.mem_ancestry_self
  | step _ hstep ih =>
    obtain ⟨site, _, rfl⟩ := child?_eq_ok_iff.mp hstep
    exact List.mem_cons_of_mem _ ih

end Node

/-- The root, or a node that has `start` among its ancestors and itself. On the way to it no other
declaration is entered than `start`, except as the target of a reference below `start`. -/
def Graph.Admits (graph : Graph) (start node : Node) : Prop :=
  node = graph.root ∨ start ∈ node.ancestry ∧
    ∀ declared ∈ node.ancestry, declared.site.declaration = true →
      declared = graph.root ∨ declared = start ∨
        ∃ reference : Node, start ∈ reference.ancestry ∧ reference.kind = .ref ∧
          reference.child? .target = .ok declared

/-- The root, or a node that steps from `start` lead to. -/
def Graph.Reaches (graph : Graph) (start node : Node) : Prop :=
  node = graph.root ∨ Node.Below start node

section Region

variable {graph : Graph} {entry : String} {start node : Node}
  (hstart : graph.root.child? (.entry entry) = .ok start)

include hstart

theorem Node.Below.ne_root_of_entry (h : Below start node) : node ≠ graph.root := by
  rintro rfl
  obtain ⟨_, _, rfl⟩ := child?_eq_ok_iff.mp hstart
  cases List.mem_singleton.mp h.mem_ancestry

/-- Below the entry there is no root structure to enter a declaration from. -/
theorem Node.Below.shape_ne_root (h : Below start node) (entries : List (String × Structure)) :
    node.shape ≠ .root entries := by
  intro hshape
  rcases (Below.trans (.step .start hstart) h).root_or_checked with rfl | hchecked
  · exact h.ne_root_of_entry hstart rfl
  · have hroot := hchecked.here_of
    rw [Site.closure, Binding.shape, ← Node.shape, hshape] at hroot
    exact Declarations.not_checked_root hroot

theorem Graph.admits_of_below (h : Node.Below start node) : graph.Admits start node := by
  refine .inr ⟨h.mem_ancestry, ?_⟩
  induction h with
  | start =>
    intro declared hdeclared _
    obtain ⟨_, _, rfl⟩ := Node.child?_eq_ok_iff.mp hstart
    rcases List.mem_cons.mp hdeclared with rfl | hdeclared
    · exact .inr (.inl rfl)
    · exact .inl (List.mem_singleton.mp hdeclared)
  | @step parent _ step hparent hstep ih =>
    intro declared hdeclared hdeclaration
    obtain ⟨site, hsite, rfl⟩ := Node.child?_eq_ok_iff.mp hstep
    rcases List.mem_cons.mp hdeclared with rfl | hdeclared
    · cases Site.transition_of_child hsite with
      | entry shape => exact absurd shape (hparent.shape_ne_root hstart _)
      | component found => exact absurd hdeclaration Bool.false_ne_true
      | target shape =>
        exact .inr (.inr ⟨parent, hparent.mem_ancestry, congrArg Structure.kind shape, hstep⟩)
    · exact ih declared hdeclared hdeclaration

theorem Graph.Reaches.admits (h : graph.Reaches start node) : graph.Admits start node := by
  rcases h with rfl | h
  · exact .inl rfl
  · exact admits_of_below hstart h

end Region

/-- The nodes that a query at a node may go on with: the root, and what one step leads to, which is a
step to the entry where the structure is a root. -/
def Setting.Next (setting : Setting) (node next : Node) : Prop :=
  next = setting.graph.root ∨
    ∃ step, node.child? step = .ok next ∧ (node.kind = .root → step = .entry setting.entry)

theorem Graph.Reaches.next {setting : Setting} {start node next : Node}
    (hstart : setting.graph.root.child? (.entry setting.entry) = .ok start)
    (h : setting.graph.Reaches start node) (hnext : setting.Next node next) :
    setting.graph.Reaches start next := by
  rcases hnext with rfl | ⟨step, hstep, hentry⟩
  · exact .inl rfl
  · rcases h with rfl | h
    · cases hentry rfl
      cases hstart.symm.trans hstep
      exact .inr .start
    · exact .inr (.step h hstep)

/-! ## What one level depends on -/

namespace Traced

variable {ε α : Type} {test test' : α → Traced ε Bool} {items : List α}

theorem allM_congr (h : ∀ item ∈ items, test item = test' item) : allM test items = allM test' items := by
  induction items with
  | nil => rfl
  | cons first rest ih =>
    obtain ⟨hfirst, hrest⟩ := List.forall_mem_cons.mp h
    rw [allM, allM, hfirst, ih hrest]

theorem anyM_congr (h : ∀ item ∈ items, test item = test' item) : anyM test items = anyM test' items := by
  induction items with
  | nil => rfl
  | cons first rest ih =>
    obtain ⟨hfirst, hrest⟩ := List.forall_mem_cons.mp h
    rw [anyM, anyM, hfirst, ih hrest]

theorem filterM_congr (h : ∀ item ∈ items, test item = test' item) :
    filterM test items = filterM test' items := by
  induction items with
  | nil => rfl
  | cons first rest ih =>
    obtain ⟨hfirst, hrest⟩ := List.forall_mem_cons.mp h
    rw [filterM, filterM, hfirst, ih hrest]

end Traced

namespace Node

/-- What follows a step only matters for the node that it leads to. -/
theorem step_bind_congr {α : Type} {node : Node} {step : Step} {f g : Node → Walk α}
    (h : ∀ next, node.child? step = .ok next → f next = g next) :
    node.step step >>= f = node.step step >>= g := by
  apply Traced.bind_congr_of_ok
  intro next hnext
  rw [result_step] at hnext
  exact h next hnext

end Node

namespace Matching

variable {test test' : Node → Json → Walk Bool} {node : Node}

theorem fitsBy_congr {value : Json}
    (h : ∀ step next, node.child? step = .ok next → ∀ value, test next value = test' next value) :
    fitsBy test node value = fitsBy test' node value := by
  have hstep (step : Step) (value : Json) :
      (node.step step >>= fun next => test next value) =
        node.step step >>= fun next => test' next value :=
    Node.step_bind_congr fun next hnext => h step next hnext value
  unfold fitsBy
  generalize node.shape = shape
  cases shape with
  | root | primitive | literal | function => rfl
  | ref => exact hstep .target value
  | typeAlias => exact hstep .body value
  | nullable =>
    dsimp only
    rw [hstep]
  | array =>
    cases value with
    | array items =>
      exact Node.step_bind_congr fun next hnext =>
        Traced.allM_congr fun item _ => h .items next hnext item
    | _ => rfl
  | union =>
    refine Traced.bind_congr_of_ok fun members hmembers => ?_
    refine Traced.anyM_congr fun member hmember => ?_
    obtain ⟨index, hindex⟩ := Node.memberOf_of_allMembers hmembers hmember
    exact h _ member hindex value
  | object | arguments =>
    cases value with
    | object members =>
      refine Traced.allM_congr fun field _ => ?_
      dsimp only
      rw [hstep]
    | _ => rfl

theorem selectBy_congr {value : Json}
    (h : ∀ member, node.MemberOf member → ∀ value, test member value = test' member value) :
    selectBy test node value = selectBy test' node value := by
  refine Traced.bind_congr_of_ok fun members hmembers => ?_
  have hfilter : Traced.filterM (fun member => test member value) members =
      Traced.filterM (fun member => test' member value) members :=
    Traced.filterM_congr fun member hmember =>
      h member (Node.memberOf_of_allMembers hmembers hmember) value
  rw [hfilter]

theorem memberOf_of_selectBy {value : Json} {member : Node}
    (h : (selectBy test node value).result = .ok member) : node.MemberOf member := by
  simp only [selectBy, Traced.result_bind, Traced.result_ofExcept] at h
  obtain ⟨members, hmembers, h⟩ := Except.bind_eq_ok_iff.mp h
  obtain ⟨candidates, hcandidates, h⟩ := Except.bind_eq_ok_iff.mp h
  exact Node.memberOf_of_allMembers hmembers (Traced.mem_of_filterM hcandidates (mem_of_choose h))

theorem checkCallBy_congr {given : Json}
    (h : ∀ next, Node.Below node next → ∀ value, test next value = test' next value) :
    checkCallBy test node given = checkCallBy test' node given := by
  refine Node.step_bind_congr fun arguments harguments => ?_
  dsimp only
  cases arguments.shape with
  | arguments label declared =>
    cases given with
    | object members =>
      dsimp only
      split
      · rfl
      · refine congrArg (fun check => List.forM members check) (funext fun field => ?_)
        cases hitem : arguments.child? (.field field.1) with
        | error error => rfl
        | ok item =>
          have hbelow : Node.Below node item := .step (.step .start harguments) hitem
          simp only [h item hbelow]
    | _ => rfl
  | _ => rfl

end Matching

namespace Position

variable {setting : Setting} {optional : Bool}
  {compile compile' : Bool → Node → List Json → Walk Middleware}
  {test test' : Node → Json → Walk Bool} {node : Node} {query : List Json}

/-- Both compile alike what a query at the node may go on with. -/
def SameNext (setting : Setting) (node : Node)
    (compile compile' : Bool → Node → List Json → Walk Middleware) : Prop :=
  ∀ next, setting.Next node next → ∀ optional query,
    compile optional next query = compile' optional next query

theorem SameNext.step {step : Step} {next : Node} (h : SameNext setting node compile compile')
    (hkind : node.kind ≠ .root) (hstep : node.child? step = .ok next) (optional : Bool)
    (query : List Json) : compile optional next query = compile' optional next query :=
  h next (.inr ⟨step, hstep, fun hroot => absurd hroot hkind⟩) optional query

theorem through_congr {input : Option Json} {child : Node}
    (h : compile optional child query = compile' optional child query) :
    through ⟨setting, optional, compile⟩ node input child query =
      through ⟨setting, optional, compile'⟩ node input child query := by
  simp only [through, h]
  rfl

section

variable (h : SameNext setting node compile compile')

include h

theorem atRoot_congr :
    atRoot ⟨setting, optional, compile⟩ node query =
      atRoot ⟨setting, optional, compile'⟩ node query := by
  cases query with
  | nil => rfl
  | cons head rest =>
    simp only [atRoot]
    split
    · refine Node.step_bind_congr fun child hchild => through_congr ?_
      exact h child (.inr ⟨_, hchild, fun _ => rfl⟩) optional rest
    · rfl

theorem throughStep_congr (hkind : node.kind ≠ .root) (step : Step) :
    (node.step step >>= fun child => through ⟨setting, optional, compile⟩ node none child query) =
      node.step step >>= fun child => through ⟨setting, optional, compile'⟩ node none child query :=
  Node.step_bind_congr fun _ hchild => through_congr (h.step hkind hchild optional query)

theorem atObject_congr (hkind : node.kind ≠ .root) (properties : List (Property Structure)) :
    atObject ⟨setting, optional, compile⟩ node properties query =
      atObject ⟨setting, optional, compile'⟩ node properties query := by
  cases query with
  | nil => rfl
  | cons head rest =>
    cases head with
    | string name =>
      refine Node.step_bind_congr fun child hchild => ?_
      dsimp only
      rw [h.step hkind hchild]
      rfl
    | _ => rfl

theorem atList_congr (hkind : node.kind ≠ .root) :
    atList ⟨setting, optional, compile⟩ node query =
      atList ⟨setting, optional, compile'⟩ node query := by
  have hitems (excerpt : Excerpt) (rest : List Json) :
      (node.step .items >>= fun items => compile false items rest >>= fun inner =>
        (return Descent.enclose setting.resolvers node excerpt.input?
          (Descent.onSettled optional node
            (excerpt.run setting.execution.parallel node inner)) : Walk Middleware)) =
      node.step .items >>= fun items => compile' false items rest >>= fun inner =>
        (return Descent.enclose setting.resolvers node excerpt.input?
          (Descent.onSettled optional node
            (excerpt.run setting.execution.parallel node inner)) : Walk Middleware) := by
    refine Node.step_bind_congr fun items hitems => ?_
    rw [h.step hkind hitems]
  cases query with
  | nil => exact hitems .all []
  | cons head rest => exact Traced.bind_congr_of_ok fun excerpt _ => hitems excerpt rest

theorem atFunctionBy_congr (hkind : node.kind ≠ .root)
    (htest : ∀ next, Node.Below node next → ∀ value, test next value = test' next value) :
    atFunctionBy ⟨setting, optional, compile⟩ test node query =
      atFunctionBy ⟨setting, optional, compile'⟩ test' node query := by
  cases query with
  | nil => rfl
  | cons head rest =>
    by_cases hcall : Instruction.kind? head = some "call"
    · simp only [atFunctionBy, if_pos hcall, Matching.checkCallBy_congr htest]
      refine Traced.bind_congr_of_ok fun _ _ => ?_
      exact Node.step_bind_congr fun returned hreturned =>
        through_congr (h.step hkind hreturned optional rest)
    · simp only [atFunctionBy, atFunction, if_neg hcall]

theorem atMatchedBy_congr (hkind : node.kind ≠ .root)
    (htest : ∀ next, Node.Below node next → ∀ value, test next value = test' next value) :
    atMatchedBy ⟨setting, optional, compile⟩ test node query =
      atMatchedBy ⟨setting, optional, compile'⟩ test' node query := by
  refine congrArg (Descent.enclose setting.resolvers node none) ?_
  refine congrArg (Descent.onSettled optional node) (funext fun context => funext fun value => ?_)
  have hselect : Matching.selectBy test node value = Matching.selectBy test' node value :=
    Matching.selectBy_congr fun member hmember => htest member (hmember.below .start)
  have hinner : (Matching.selectBy test node value >>= fun member => compile optional member query) =
      Matching.selectBy test' node value >>= fun member => compile' optional member query := by
    rw [hselect]
    refine Traced.bind_congr_of_ok fun member hmember => ?_
    obtain ⟨index, hindex⟩ := Matching.memberOf_of_selectBy hmember
    exact h.step hkind hindex optional query
  exact congrArg (fun walk => Walk.run walk >>= fun inner =>
    inner.evaluate (context.setValue (some value))) hinner

theorem atUnionBy_congr (hkind : node.kind ≠ .root)
    (htest : ∀ next, Node.Below node next → ∀ value, test next value = test' next value) :
    atUnionBy ⟨setting, optional, compile⟩ test node query =
      atUnionBy ⟨setting, optional, compile'⟩ test' node query := by
  cases query with
  | nil => exact congrArg pure (atMatchedBy_congr h hkind htest)
  | cons head rest =>
    by_cases has : Instruction.kind? head = some "as"
    · simp only [atUnionBy, atUnion, if_pos has]
      split
      · refine Traced.bind_congr_of_ok fun member hmember => through_congr ?_
        obtain ⟨index, hindex⟩ := Matching.memberOf_of_selectMember hmember
        exact h.step hkind hindex optional rest
      · rfl
    · simp only [atUnionBy, if_neg has, atMatchedBy_congr h hkind htest]

theorem byStructureBy_congr
    (htest : node.kind ≠ .root → ∀ next, Node.Below node next → ∀ value,
      test next value = test' next value) :
    byStructureBy ⟨setting, optional, compile⟩ test node query =
      byStructureBy ⟨setting, optional, compile'⟩ test' node query := by
  have hk : node.kind = node.shape.kind := rfl
  unfold byStructureBy byStructure
  cases hs : node.shape <;> rw [hs] at hk
  case root => exact atRoot_congr h
  case ref => exact throughStep_congr h (by simp [hk, Structure.kind]) .target
  case typeAlias => exact throughStep_congr h (by simp [hk, Structure.kind]) .body
  case nullable => exact throughStep_congr h (by simp [hk, Structure.kind]) .inner
  case object => exact atObject_congr h (by simp [hk, Structure.kind]) _
  case array => exact atList_congr h (by simp [hk, Structure.kind])
  case function =>
    have hkind : node.kind ≠ .root := by simp [hk, Structure.kind]
    exact atFunctionBy_congr h hkind (htest hkind)
  case union =>
    have hkind : node.kind ≠ .root := by simp [hk, Structure.kind]
    exact atUnionBy_congr h hkind (htest hkind)
  case primitive | literal => rfl

theorem path_congr :
    Operator.path ⟨setting, optional, compile⟩ node query =
      Operator.path ⟨setting, optional, compile'⟩ node query := by
  have hroot := h setting.graph.root (.inl rfl)
  unfold Operator.path Operator.ofKind
  simp only [hroot]

theorem compileFields_congr (hkind : node.kind ≠ .root) (head : Json)
    (properties : List (Property Structure)) (requested : List (String × Json)) :
    Operator.compileFields ⟨setting, optional, compile⟩ node head properties requested =
      Operator.compileFields ⟨setting, optional, compile'⟩ node head properties requested := by
  induction requested with
  | nil => rfl
  | cons field rest ih =>
    obtain ⟨name, request⟩ := field
    cases request with
    | array query =>
      simp only [Operator.compileFields, ih]
      refine Node.step_bind_congr fun child hchild => ?_
      rw [h.step hkind hchild]
    | _ => rfl

theorem select_congr :
    Operator.select ⟨setting, optional, compile⟩ node query =
      Operator.select ⟨setting, optional, compile'⟩ node query := by
  cases query with
  | nil => rfl
  | cons head rest =>
    simp only [Operator.select, Operator.ofKind]
    split
    · split
      · next hshape =>
        have hkind : node.kind ≠ .root := by simp [Node.kind, hshape, Structure.kind]
        simp only [compileFields_congr h hkind]
        rfl
      · rfl
    · rfl

theorem compileBy_congr
    (htest : node.kind ≠ .root → ∀ next, Node.Below node next → ∀ value,
      test next value = test' next value) :
    compileBy ⟨setting, optional, compile⟩ Operator.builtin test node query =
      compileBy ⟨setting, optional, compile'⟩ Operator.builtin test' node query := by
  simp only [compileBy, Operator.builtin, Operator.tryAll, path_congr h, select_congr h,
    byStructureBy_congr h htest]

end

end Position

/-! ## Runs inside a fence -/

namespace Fence

variable {fence : Fence} {node start : Node}

theorem fitsWithin_eq (hopens : ∀ next, Node.Below node next → fence.opens next = true) (reach : Nat)
    (value : Json) : fence.fitsWithin reach node value = Matching.fits reach node value := by
  induction reach generalizing node value with
  | zero => exact if_pos (hopens node .start)
  | succ reach ih =>
    rw [fitsWithin, if_pos (hopens node .start), Matching.fits_succ]
    refine Matching.fitsBy_congr fun step next hstep value => ih (fun below hbelow => ?_) value
    exact hopens below (.trans (.step .start hstep) hbelow)

theorem compileWithin_eq {setting : Setting}
    (hstart : setting.graph.root.child? (.entry setting.entry) = .ok start)
    (hopens : ∀ next, setting.graph.Reaches start next → fence.opens next = true)
    (hnode : setting.graph.Reaches start node) (levels : Nat) (optional : Bool)
    (query : List Json) :
    fence.compileWithin setting Operator.builtin levels optional node query =
      setting.compile Operator.builtin levels optional node query := by
  induction levels generalizing node optional query with
  | zero => exact if_pos (hopens node hnode)
  | succ levels ih =>
    rw [compileWithin, if_pos (hopens node hnode), Setting.compile_eq_compileBy]
    apply Position.compileBy_congr
    · intro next hnext optional query
      exact ih (hnode.next hstart hnext) optional query
    · intro hkind next hnext value
      refine fitsWithin_eq (fun below hbelow => hopens below ?_) _ value
      rcases hnode with rfl | hnode
      · exact absurd rfl hkind
      · exact .inr ((hnode.trans hnext).trans hbelow)

end Fence

namespace Engine

variable {graph : Graph} {entry : String} {resolvers : List Resolver}
  {configuration : Configuration} {engine : Engine}

/-- Every node that is compiled or matched against, or whose resolvers run, is the root or belongs to
the entry: what is done at other nodes makes no difference to any run. -/
theorem confined_of_assemble (h : assemble graph entry resolvers [] configuration = .ok engine) :
    ∃ start, graph.root.child? (.entry entry) = .ok start ∧
      ∀ fence : Fence, (∀ node, graph.Admits start node → fence.opens node = true) →
        ∀ query values context,
          engine.runWithin fence query values context = engine.run query values context := by
  obtain ⟨hentry, rfl⟩ := eq_of_assemble h
  obtain ⟨declaration, hfound⟩ := Option.isSome_iff_exists.mp hentry
  have hstart : graph.root.child? (.entry entry) =
      .ok (.child graph.root (.entry entry) (.declared declaration [])) :=
    Node.child?_eq_ok_iff.mpr ⟨_, Site.child_entry rfl hfound, rfl⟩
  refine ⟨_, hstart, fun fence hopens query values context => ?_⟩
  unfold runWithin run plan
  refine Traced.bind_congr_of_ok fun instructions _ => ?_
  have hplan (levels : Nat) :
      fence.compileWithin
          { graph, entry, resolvers := .bind resolvers, execution := configuration.execution,
            reach := defaultReach }
          Operator.builtin levels false graph.root instructions = _ :=
    Fence.compileWithin_eq hstart (fun next hnext => hopens next (hnext.admits hstart)) (.inl rfl)
      levels false instructions
  simp only [List.nil_append, hplan]

end Engine

/-! ## A fenced library -/

namespace Library

/-- Open for the root and below the library; anywhere else everything fails. -/
def fence : Fence where
  opens node := node.trace.isEmpty || [.entry "Library"].isSuffixOf node.trace
  compile _ node query := Traced.fail (.invalidQuery node.key (Json.array query).text "closed")
  fits node value := Traced.fail (.invalidQuery node.key value.text "closed")

theorem opens_of_admits {start node : Node} (hstart : graph.root.child? (.entry "Library") = .ok start)
    (h : graph.Admits start node) : fence.opens node = true := by
  rcases h with rfl | ⟨hstart', _⟩
  · rfl
  · have hsuffix := Node.trace_suffix_of_mem_ancestry hstart'
    rw [Node.trace_of_child? hstart] at hsuffix
    exact Bool.or_eq_true_iff.mpr (.inr (List.isSuffixOf_iff_suffix.mpr hsuffix))

/-- The library once more in place of its tags. -/
def nestedQuery : List Json :=
  [.string "Library", .object [("kind", .string "select"), ("fields", .object [("tags", .array
    [.object [("kind", .string "path"), ("path", .array [.string "Library"]),
      ("query", .array (query.drop 1))]])])]]

theorem run_nestedQuery :
    (engine.run (.array nestedQuery) [] .empty).result = .ok (.object [("tags", answer)]) := rfl

theorem runWithin_fence :
    fence.opens (graph.nodeAt [.entry "Box"]) = false ∧
      (engine.runWithin fence (.array nestedQuery) [] .empty).result =
        .ok (.object [("tags", answer)]) := by
  obtain ⟨start, hstart, hconfined⟩ := Engine.confined_of_assemble assemble_eq_engine
  refine ⟨rfl, ?_⟩
  rw [hconfined fence fun _ hnode => opens_of_admits hstart hnode]
  exact run_nestedQuery

end Library

end PathQuery
