import PathQuery.Proofs.Middleware.Traces
import PathQuery.Proofs.Query.Assembly
import PathQuery.Proofs.Query.Enclosure

/-!
# Orders of registration

An engine sees its resolvers only through the chains that they form at a structure. Lists of
resolvers that form the same chains make the same engine (`Engine.run_congr`), be they registered in
whichever order. In a labelled resolver every middleware stands behind one that watches it.
-/

set_option autoImplicit false

namespace PathQuery

/-! ## Compilation -/

theorem Descent.enclose_congr {resolvers resolvers' : Resolvers}
    (h : ∀ shape, Middleware.compose (resolvers'.atShape shape) =
      Middleware.compose (resolvers.atShape shape)) :
    enclose resolvers' = enclose resolvers := by
  funext node input descent context next
  unfold enclose
  rw [h]

section Position

variable {setting : Setting} {resolvers : Resolvers} (optional : Bool)
  (compile : Bool → Node → List Json → Walk Middleware)

theorem Operator.compileFields_congr (node : Node) (head : Json)
    (properties : List (Property Structure)) (requested : List (String × Json)) :
    compileFields ⟨{ setting with resolvers }, optional, compile⟩ node head properties requested =
      compileFields ⟨setting, optional, compile⟩ node head properties requested := by
  induction requested with
  | nil => rfl
  | cons field rest ih =>
    obtain ⟨name, query⟩ := field
    cases query with
    | array query => simp only [compileFields, ih]
    | null | bool _ | number _ | string _ | object _ => rfl

variable (h : Descent.enclose resolvers = Descent.enclose setting.resolvers)

include h

theorem Position.byStructure_congr (node : Node) (query : List Json) :
    byStructure ⟨{ setting with resolvers }, optional, compile⟩ node query =
      byStructure ⟨setting, optional, compile⟩ node query := by
  have henclose : Position.enclose ⟨{ setting with resolvers }, optional, compile⟩ =
      Position.enclose ⟨setting, optional, compile⟩ := by
    funext node input descent
    exact congrFun (congrFun (congrFun h node) input) descent
  unfold byStructure
  split
  · unfold atRoot through
    rw [henclose]
  · unfold through
    rw [henclose]
  · unfold through
    rw [henclose]
  · unfold through
    rw [henclose]
  · unfold atObject settledValue
    rw [henclose]
    rfl
  · unfold atList
    rw [henclose]
    rfl
  · unfold atFunction through
    rw [henclose]
  · unfold atUnion atMatched through
    rw [henclose]
    rfl
  · unfold atLeaf settledValue
    rw [henclose]
    rfl
  · unfold atLeaf settledValue
    rw [henclose]
    rfl
  · rfl

end Position

namespace Operator

/-- Of the resolvers no more is used than what they make of a descent. -/
def Encloses (operator : Operator) : Prop :=
  ∀ (setting : Setting) (resolvers : Resolvers) (optional : Bool)
    (compile : Bool → Node → List Json → Walk Middleware),
    Descent.enclose resolvers = Descent.enclose setting.resolvers →
      operator ⟨{ setting with resolvers }, optional, compile⟩ = operator ⟨setting, optional, compile⟩

theorem encloses_select : select.Encloses := by
  intro setting resolvers optional compile h
  unfold select ofKind Position.enclose
  simp only [compileFields_congr, h]
  rfl

theorem encloses_builtin : ∀ operator ∈ builtin, Encloses operator := by
  intro operator hoperator
  simp only [builtin, List.mem_cons, List.not_mem_nil, or_false] at hoperator
  rcases hoperator with rfl | rfl
  · exact fun _ _ _ _ _ => rfl
  · exact encloses_select

theorem tryAll_congr {setting : Setting} {resolvers : Resolvers} {operators : List Operator}
    (h : Descent.enclose resolvers = Descent.enclose setting.resolvers)
    (hoperators : ∀ operator ∈ operators, Encloses operator) (optional : Bool)
    (compile : Bool → Node → List Json → Walk Middleware) (node : Node) (query : List Json) :
    tryAll ⟨{ setting with resolvers }, optional, compile⟩ node query operators =
      tryAll ⟨setting, optional, compile⟩ node query operators := by
  induction operators with
  | nil => rfl
  | cons operator rest ih =>
    obtain ⟨hoperator, hrest⟩ := List.forall_mem_cons.mp hoperators
    rw [tryAll, tryAll, hoperator setting resolvers optional compile h, ih hrest]

end Operator

theorem Setting.compile_congr {setting : Setting} {resolvers : Resolvers} {operators : List Operator}
    (h : Descent.enclose resolvers = Descent.enclose setting.resolvers)
    (hoperators : ∀ operator ∈ operators, Operator.Encloses operator) (levels : Nat) :
    compile { setting with resolvers } operators levels = setting.compile operators levels := by
  induction levels with
  | zero => rfl
  | succ levels ih =>
    funext optional node query
    rw [compile, compile, ih]
    simp only [Position.byStructure_congr optional _ h, Operator.tryAll_congr h hoperators]

/-! ## Engines -/

namespace Engine

theorem run_eq_of_enclose {setting : Setting} {resolvers : Resolvers} {operators : List Operator}
    (h : Descent.enclose resolvers = Descent.enclose setting.resolvers)
    (hoperators : ∀ operator ∈ operators, Operator.Encloses operator) (query : Json)
    (values : List Json) (context : Context) :
    run ⟨{ setting with resolvers }, operators⟩ query values context =
      run ⟨setting, operators⟩ query values context := by
  unfold run plan
  simp only [Setting.compile_congr h hoperators]
  rfl

variable {graph : Graph} {entry : String} {resolvers resolvers' : List Resolver}
  {configuration : Configuration} {engine : Engine}

theorem assemble_of_nodes {operators : List Operator}
    (h : assemble graph entry resolvers operators configuration = .ok engine)
    (hnodes : ∀ resolver ∈ resolvers', ∃ other ∈ resolvers, other.node = resolver.node) :
    assemble graph entry resolvers' operators configuration =
      .ok ⟨{ engine.setting with resolvers := .bind resolvers' }, engine.operators⟩ := by
  obtain ⟨hentry, hown, hvalid, rfl⟩ := assemble_eq_ok_iff.mp h
  refine assemble_eq_ok_iff.mpr ⟨hentry, fun resolver hresolver => ?_, hvalid, rfl⟩
  obtain ⟨other, hother, hnode⟩ := hnodes resolver hresolver
  exact hnode ▸ hown other hother

/-- Resolvers that form the same chains make engines that run alike. -/
theorem run_congr (h : assemble graph entry resolvers [] configuration = .ok engine)
    (hnodes : ∀ resolver ∈ resolvers', ∃ other ∈ resolvers, other.node = resolver.node)
    (hchains : ∀ shape, (Resolvers.bind resolvers').atShape shape =
      (Resolvers.bind resolvers).atShape shape) :
    ∃ engine', assemble graph entry resolvers' [] configuration = .ok engine' ∧
      ∀ query values context, engine'.run query values context = engine.run query values context := by
  refine ⟨_, assemble_of_nodes h hnodes, ?_⟩
  intro query values context
  obtain ⟨_, rfl⟩ := eq_of_assemble h
  refine run_eq_of_enclose (Descent.enclose_congr fun shape => ?_) Operator.encloses_builtin query
    values context
  exact congrArg Middleware.compose (hchains shape)

end Engine

/-! ## Labelled resolvers -/

structure LabelledResolver where
  node : Node
  labelled : List (String × Middleware)

namespace LabelledResolver

def resolver (watch : String → Middleware) (labelled : LabelledResolver) : Resolver :=
  ⟨labelled.node, Middleware.watched watch labelled.labelled⟩

/-- Whether it is found for a structure. -/
def serves (shape : Structure) (labelled : LabelledResolver) : Bool :=
  decide (labelled.node.shape.identity? = shape.identity?)

def labelledAt (resolvers : List LabelledResolver) (shape : Structure) :
    List (String × Middleware) :=
  (resolvers.filter (serves shape)).flatMap labelled

/-- The labels of a structure, in the order of registration. -/
def labelsAt (resolvers : List LabelledResolver) (shape : Structure) : List String :=
  (labelledAt resolvers shape).map Prod.fst

theorem atShape_bind (watch : String → Middleware) (resolvers : List LabelledResolver)
    (shape : Structure) :
    (Resolvers.bind (resolvers.map (resolver watch))).atShape shape =
      Middleware.watched watch (labelledAt resolvers shape) := by
  induction resolvers with
  | nil => rfl
  | cons first rest ih =>
    have hfirst : (Resolvers.bind ((first :: rest).map (resolver watch))).atShape shape =
        (if first.node.shape.identity? = shape.identity? then
          Middleware.watched watch first.labelled else []) ++
            (Resolvers.bind (rest.map (resolver watch))).atShape shape := rfl
    rw [hfirst, ih]
    unfold labelledAt
    by_cases hserves : first.node.shape.identity? = shape.identity?
    · have hkeep : first.serves shape = true := decide_eq_true hserves
      rw [if_pos hserves, List.filter_cons_of_pos hkeep, List.flatMap_cons]
      exact List.flatMap_append.symm
    · have hdrop : ¬ first.serves shape = true := fun h => hserves (of_decide_eq_true h)
      rw [if_neg hserves, List.filter_cons_of_neg hdrop]
      rfl

theorem mem_labelled_of_mem_labelledAt {resolvers : List LabelledResolver} {shape : Structure}
    {entry : String × Middleware} (h : entry ∈ labelledAt resolvers shape) :
    ∃ labelled ∈ resolvers, entry ∈ labelled.labelled := by
  obtain ⟨labelled, hlabelled, hentry⟩ := List.mem_flatMap.mp h
  exact ⟨labelled, List.mem_of_mem_filter hlabelled, hentry⟩

end LabelledResolver

end PathQuery
