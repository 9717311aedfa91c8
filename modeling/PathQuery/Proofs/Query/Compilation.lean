import Mathlib.Data.List.Forall2
import PathQuery.Proofs.Query.Demand

/-!
# Compilation of demands

Compilation first reads the demand of a query and then assembles one middleware for it, out of what
it compiles one level deeper (`Setting.compile_succ`). Nothing else about the head of a query needs
to be known again; and resolvers, which are only put around what is assembled, have no say in what is
refused (`Setting.compilesAlike`).
-/

set_option autoImplicit false

namespace PathQuery

namespace Demand

def intoMember (name : String) (inner : Middleware) (context : Context) (value : Json) :
    Run (Option Json) :=
  inner.evaluate ((context.push .parent value).setValue (value.member? name))

def intoMembers (parallel : Bool) (fields : List Operator.Selection) (context : Context)
    (value : Json) : Run (Option Json) :=
  match value with
  | .object given => do
    return some (.object (← Operator.project parallel (context.push .parent value) given fields))
  | other => return some other

/-- Goes on with the member of a union that the value turns out to be. -/
def intoMatched (position : Position) (node : Node) (query : List Json) (context : Context)
    (value : Json) : Run (Option Json) := do
  let inner ← Walk.run do
    let member ← Matching.selectMember position.setting.reach node (some value) none
    position.compile position.optional member query
  inner.evaluate (context.setValue (some value))

/-- Answers another query, with nothing in hand. -/
def answerAnew (inner : Middleware) : Middleware := fun context next => do
  let value ← inner.evaluate (context.setValue none)
  next (context.setValue value)

/-- The middleware for what was asked, out of what is compiled at the nodes that come next. -/
def assemble (position : Position) (node : Node) : Demand → Except Error Middleware
  | whole => .ok (position.settledValue node)
  | through input child rest =>
    (position.compile position.optional child rest).result.map fun inner =>
      position.enclose node input (Descent.through node child inner)
  | property name optional child rest =>
    (position.compile optional child rest).result.map fun inner =>
      position.enclose node none (position.onSettled node (intoMember name inner))
  | members head properties requested =>
    (Operator.compileFields position node head properties requested).result.map fun fields =>
      position.enclose node none (position.onSettled node
        (intoMembers position.setting.execution.parallel fields))
  | items excerpt item rest =>
    (position.compile false item rest).result.map fun inner =>
      position.enclose node excerpt.input? (position.onSettled node
        (excerpt.run position.setting.execution.parallel node inner))
  | matched query =>
    .ok (position.enclose node none (position.onSettled node (intoMatched position node query)))
  | anew query =>
    (position.compile false position.setting.graph.root query).result.map answerAnew

end Demand

theorem Structure.kind_eq_object_iff (s : Structure) :
    s.kind = .object ↔ ∃ label name parameters properties,
      s = .object label name parameters properties := by
  cases s <;> simp [kind]

namespace Position

variable (position : Position) (node : Node)

theorem result_through (input : Option Json) (child : Node) (query : List Json) :
    (position.through node input child query).result =
      (Demand.through input child query).assemble position node := by
  simp only [through, Demand.assemble, bind_pure_comp, Traced.result_map]

theorem result_throughStep (step : Step) (query : List Json) :
    (do position.through node none (← node.step step) query : Walk Middleware).result =
      ((node.child? step).map fun child => Demand.through none child query).bind
        (Demand.assemble position node) := by
  rw [Traced.result_bind, Node.result_step]
  cases node.child? step with
  | error e => rfl
  | ok child => exact result_through position node none child query

theorem result_atRoot (query : List Json) :
    (position.atRoot node query).result =
      (position.setting.demandAtRoot node query).bind (Demand.assemble position node) := by
  cases query with
  | nil => rfl
  | cons head rest =>
    simp only [atRoot, Setting.demandAtRoot]
    split
    · exact result_throughStep position node _ rest
    · rfl

theorem result_atObject (properties : List (Property Structure)) (query : List Json)
    (h : ∀ head rest, query = head :: rest → Instruction.kind? head ≠ some "select") :
    (position.atObject node properties query).result =
      (Setting.demandAtObject node properties query).bind (Demand.assemble position node) := by
  cases query with
  | nil => rfl
  | cons head rest =>
    simp only [Setting.demandAtObject, if_neg (h head rest rfl)]
    cases head with
    | string name =>
      simp only [atObject, bind_pure_comp, Traced.result_bind, Traced.result_map, Node.result_step]
      cases node.child? (.field name) with
      | error e => rfl
      | ok child => rfl
    | null | bool _ | number _ | array _ | object _ => rfl

theorem excerpt_eq (head : Json) :
    position.excerpt node head =
      Setting.excerptAt position.setting.execution.maxPageSize node head := by
  cases head <;> rfl

theorem result_atList (query : List Json) :
    (position.atList node query).result =
      (position.setting.demandAtList node query).bind (Demand.assemble position node) := by
  cases query with
  | nil =>
    simp only [atList, Setting.demandAtList, pure_bind, bind_pure_comp, Traced.result_bind,
      Traced.result_map, Node.result_step]
    cases node.child? .items with
    | error e => rfl
    | ok item => rfl
  | cons head rest =>
    simp only [atList, Setting.demandAtList, pure_bind, bind_pure_comp,
      Traced.result_bind, Traced.result_map, Traced.result_ofExcept, Node.result_step, excerpt_eq]
    cases Setting.excerptAt position.setting.execution.maxPageSize node head with
    | error e => rfl
    | ok excerpt =>
      cases node.child? .items with
      | error e => rfl
      | ok item => rfl

theorem result_atFunction (query : List Json) :
    (position.atFunction node query).result =
      (position.setting.demandAtFunction node query).bind (Demand.assemble position node) := by
  cases query with
  | nil => rfl
  | cons head rest =>
    simp only [atFunction, Setting.demandAtFunction]
    split
    · simp only [Traced.result_bind, Node.result_step, result_through]
      cases (Matching.checkCall position.setting.reach node
          ((head.member? "args").getD (.object []))).result with
      | error e => rfl
      | ok _ =>
        cases node.child? .returns with
        | error e => rfl
        | ok returned => rfl
    · rfl

theorem result_atUnion (query : List Json) :
    (position.atUnion node query).result =
      (position.setting.demandAtUnion node query).bind (Demand.assemble position node) := by
  cases query with
  | nil => rfl
  | cons head rest =>
    simp only [atUnion, Setting.demandAtUnion]
    split
    · cases (head.member? "type").bind Json.string? with
      | none => rfl
      | some hint =>
        simp only [Traced.result_bind, result_through]
        cases (Matching.selectMember position.setting.reach node none (some hint)).result with
        | error e => rfl
        | ok member => rfl
    · rfl

end Position

theorem Operator.result_compileFields_cons (position : Position) (node : Node) (head : Json)
    (properties : List (Property Structure)) (field : String × Json)
    (rest : List (String × Json)) :
    (compileFields position node head properties (field :: rest)).result =
      (node.requested head properties field).bind fun (optional, child, query) =>
        (position.compile optional child query).result.bind fun inner =>
          (compileFields position node head properties rest).result.map fun others =>
            (field.1, inner) :: others := by
  obtain ⟨name, query⟩ := field
  cases query with
  | array query =>
    simp only [compileFields, Node.requested, bind_pure_comp, Traced.result_bind,
      Traced.result_map, Node.result_step]
    cases node.child? (.field name) with
    | error e => rfl
    | ok child => rfl
  | null | bool _ | number _ | string _ | object _ => rfl

/-- The selection of a requested member: what is compiled for it, under its name. -/
structure Operator.Selects (position : Position) (node : Node) (head : Json)
    (properties : List (Property Structure)) (field : String × Json) (selection : Selection) :
    Prop where
  name : selection.1 = field.1
  compiled : ∃ flag child query, node.requested head properties field = .ok (flag, child, query) ∧
    (position.compile flag child query).result = .ok selection.2

theorem Operator.forall₂_of_compileFields {position : Position} {node : Node} {head : Json}
    {properties : List (Property Structure)} {requested : List (String × Json)}
    {fields : List Selection}
    (h : (compileFields position node head properties requested).result = .ok fields) :
    List.Forall₂ (Selects position node head properties) requested fields := by
  induction requested generalizing fields with
  | nil =>
    cases h
    exact .nil
  | cons field rest ih =>
    rw [result_compileFields_cons] at h
    obtain ⟨⟨flag, child, query⟩, hfield, h⟩ := Except.bind_eq_ok_iff.mp h
    obtain ⟨inner, hinner, h⟩ := Except.bind_eq_ok_iff.mp h
    obtain ⟨others, hothers, rfl⟩ := Except.map_eq_ok_iff.mp h
    exact .cons ⟨rfl, flag, child, query, hfield, hinner⟩ (ih hothers)

theorem Operator.Selects.map_name {position : Position} {node : Node} {head : Json}
    {properties : List (Property Structure)} {requested : List (String × Json)}
    {fields : List Selection}
    (h : List.Forall₂ (Selects position node head properties) requested fields) :
    fields.map Prod.fst = requested.map Prod.fst := by
  induction h with
  | nil => rfl
  | cons hfirst _ ih => rw [List.map_cons, List.map_cons, hfirst.name, ih]

/-! ## One level of compilation -/

namespace Operator

variable (position : Position) (node : Node)

theorem result_path (head : Json) (rest : List Json) (h : Instruction.kind? head = some "path") :
    (path position node (head :: rest)).result =
      ((Setting.absoluteQuery node head rest).map Demand.anew).bind fun demand =>
        (demand.assemble position node).map some := by
  simp only [path, ofKind, if_pos h, Setting.absoluteQuery, Traced.result_bind,
    Traced.result_ofExcept]
  cases requireLast node head rest with
  | error e => rfl
  | ok _ =>
    cases Instruction.instructions? node.key head "path" with
    | error e => rfl
    | ok path? =>
      cases path? with
      | none => rfl
      | some path =>
        cases Instruction.instructions? node.key head "query" with
        | error e => rfl
        | ok query =>
          change ((fun inner => some (Demand.answerAnew inner)) <$>
            position.compile false position.setting.graph.root (path ++ query.getD [])).result =
              (Except.map Demand.answerAnew _).map some
          rw [Traced.result_map]
          cases (position.compile false position.setting.graph.root (path ++ query.getD [])).result with
          | error e => rfl
          | ok inner => rfl

theorem path_eq_none {query : List Json}
    (h : ∀ head rest, query = head :: rest → Instruction.kind? head ≠ some "path") :
    path position node query = pure none := by
  cases query with
  | nil => rfl
  | cons head rest => simp only [path, ofKind, if_neg (h head rest rfl)]

theorem select_eq_none {query : List Json}
    (h : ∀ head rest, query = head :: rest → Instruction.kind? head ≠ some "select") :
    select position node query = pure none := by
  cases query with
  | nil => rfl
  | cons head rest => simp only [select, ofKind, if_neg (h head rest rfl)]

theorem select_eq_none_of_kind (query : List Json) (h : node.kind ≠ .object) :
    select position node query = pure none := by
  cases query with
  | nil => rfl
  | cons head rest =>
    simp only [select, ofKind]
    split
    · split
      · next hs => exact absurd (congrArg Structure.kind hs) h
      · rfl
    · rfl

theorem result_select {label : Label} {name : Option String} {parameters : List String}
    {properties : List (Property Structure)}
    (hs : node.shape = .object label name parameters properties) (head : Json)
    (rest : List Json) (h : Instruction.kind? head = some "select") :
    (select position node (head :: rest)).result =
      (Setting.demandAtObject node properties (head :: rest)).bind fun demand =>
        (demand.assemble position node).map some := by
  simp only [select, ofKind, if_pos h, Setting.demandAtObject, hs, Traced.result_bind,
    Traced.result_ofExcept]
  cases requireLast node head rest with
  | error e => rfl
  | ok _ =>
    cases head.member? "fields" with
    | none => rfl
    | some fields =>
      cases fields with
      | object requested =>
        change ((fun fields => some (position.enclose node none
          (position.onSettled node
            (Demand.intoMembers position.setting.execution.parallel fields)))) <$>
            compileFields position node head properties requested).result =
              (Except.map _ _).map some
        rw [Traced.result_map]
        cases (compileFields position node head properties requested).result with
        | error e => rfl
        | ok fields => rfl
      | null | bool _ | number _ | string _ | array _ => rfl

end Operator

theorem Position.result_byStructure (position : Position) (node : Node) (query : List Json)
    (h : node.kind = .object → ∀ head rest, query = head :: rest →
      Instruction.kind? head ≠ some "select") :
    (position.byStructure node query).result =
      (position.setting.demandByStructure node query).bind (Demand.assemble position node) := by
  unfold byStructure Setting.demandByStructure
  cases hs : node.shape with
  | root _ => exact position.result_atRoot node query
  | ref _ _ _ => exact position.result_throughStep node .target query
  | typeAlias _ _ _ _ => exact position.result_throughStep node .body query
  | nullable _ _ => exact position.result_throughStep node .inner query
  | object _ _ _ properties =>
    exact position.result_atObject node properties query (h (congrArg Structure.kind hs))
  | array _ _ => exact position.result_atList node query
  | function _ _ _ => exact position.result_atFunction node query
  | union _ _ => exact position.result_atUnion node query
  | primitive _ _ | literal _ _ =>
    cases query with
    | nil => rfl
    | cons head rest => rfl
  | arguments _ _ => rfl

theorem Position.result_tryBuiltin (position : Position) (node : Node) (query : List Json) :
    (do
      match ← Operator.tryAll position node query Operator.builtin with
        | some middleware => return middleware
        | none => position.byStructure node query : Walk Middleware).result =
      (Operator.path position node query).result.bind fun
        | some middleware => .ok middleware
        | none => (Operator.select position node query).result.bind fun
          | some middleware => .ok middleware
          | none => (position.byStructure node query).result := by
  simp only [Operator.builtin, Operator.tryAll, Traced.result_bind]
  cases (Operator.path position node query).result with
  | error e => rfl
  | ok path? =>
    cases path? with
    | some middleware => rfl
    | none =>
      simp only [Except.ok_bind, Traced.result_bind]
      cases (Operator.select position node query).result with
      | error e => rfl
      | ok select? => cases select? <;> rfl

theorem Demand.bind_assemble_taken (x : Except Error Demand) (position : Position) (node : Node)
    (otherwise : Except Error Middleware) :
    (x.bind fun demand => (demand.assemble position node).map some).bind (fun
      | some middleware => .ok middleware
      | none => otherwise) = x.bind (Demand.assemble position node) := by
  cases x with
  | error e => rfl
  | ok demand =>
    simp only [Except.ok_bind]
    cases demand.assemble position node <;> rfl

theorem Setting.demand_of_not_path (setting : Setting) (node : Node) {query : List Json}
    (h : node.shape.isWrapper = true ∨
      ∀ head rest, query = head :: rest → Instruction.kind? head ≠ some "path") :
    setting.demand node query = setting.demandByStructure node query := by
  cases query with
  | nil => rfl
  | cons head rest =>
    rcases h with hw | hpath
    · simp [demand, hw]
    · simp [demand, hpath head rest rfl]

theorem Position.result_operators (position : Position) (node : Node) (query : List Json)
    (hw : node.shape.isWrapper = false) :
    (do
      match ← Operator.tryAll position node query Operator.builtin with
        | some middleware => return middleware
        | none => position.byStructure node query : Walk Middleware).result =
      (position.setting.demand node query).bind (Demand.assemble position node) := by
  rw [position.result_tryBuiltin node query]
  by_cases hpath : ∃ head rest, query = head :: rest ∧ Instruction.kind? head = some "path"
  · obtain ⟨head, rest, rfl, hk⟩ := hpath
    rw [Operator.result_path position node head rest hk, Demand.bind_assemble_taken]
    simp [Setting.demand, hw, hk]
  · have hpath' : ∀ head rest, query = head :: rest → Instruction.kind? head ≠ some "path" :=
      fun head rest hq hk => hpath ⟨head, rest, hq, hk⟩
    rw [position.setting.demand_of_not_path node (.inr hpath'),
      Operator.path_eq_none position node hpath', Traced.result_pure, Except.ok_bind]
    by_cases hselect : node.kind = .object ∧
        ∃ head rest, query = head :: rest ∧ Instruction.kind? head = some "select"
    · obtain ⟨hobject, head, rest, rfl, hk⟩ := hselect
      rw [Node.kind, Structure.kind_eq_object_iff] at hobject
      obtain ⟨label, name, parameters, properties, hs⟩ := hobject
      rw [Operator.result_select position node hs head rest hk, Demand.bind_assemble_taken]
      simp only [Setting.demandByStructure, hs]
    · have hnone : Operator.select position node query = pure none := by
        by_cases hobject : node.kind = .object
        · exact Operator.select_eq_none position node
            fun head rest hq hk => hselect ⟨hobject, head, rest, hq, hk⟩
        · exact Operator.select_eq_none_of_kind position node query hobject
      rw [hnone, Traced.result_pure, Except.ok_bind]
      exact position.result_byStructure node query
        fun hobject head rest hq hk => hselect ⟨hobject, head, rest, hq, hk⟩

/-- Compilation reads the demand of the query and assembles what is compiled one level deeper. -/
theorem Setting.compile_succ (setting : Setting) (remaining : Nat) (optional : Bool) (node : Node)
    (query : List Json) :
    (setting.compile Operator.builtin (remaining + 1) optional node query).result =
      (setting.demand node query).bind
        (Demand.assemble ⟨setting, optional, setting.compile Operator.builtin remaining⟩ node) := by
  rw [compile]
  split
  · next hw =>
    rw [setting.demand_of_not_path node (.inl hw)]
    refine Position.result_byStructure _ node query fun hobject => ?_
    rw [Node.kind, Structure.kind_eq_object_iff] at hobject
    obtain ⟨label, name, parameters, properties, hs⟩ := hobject
    simp [hs, Structure.isWrapper] at hw
  · next hw => exact Position.result_operators _ node query ((Bool.not_eq_true _).mp hw)

/-! ## Settings without resolvers -/

section

variable {setting : Setting} {levels : Nat}

/-- Both are compiled, or both are refused with the same error. -/
def Setting.CompilesAlike (setting : Setting) (levels : Nat) : Prop :=
  ∀ optional node query, Except.Agree (fun _ _ => True)
    (setting.compile Operator.builtin levels optional node query).result
    (setting.withoutResolvers.compile Operator.builtin levels optional node query).result

theorem Setting.CompilesAlike.compileFields (h : setting.CompilesAlike levels) (optional : Bool)
    (node : Node) (head : Json) (properties : List (Property Structure))
    (requested : List (String × Json)) :
    Except.Agree (fun _ _ => True)
      (Operator.compileFields ⟨setting, optional, setting.compile Operator.builtin levels⟩ node head
        properties requested).result
      (Operator.compileFields ⟨setting.withoutResolvers, optional,
        setting.withoutResolvers.compile Operator.builtin levels⟩ node head properties
        requested).result := by
  induction requested with
  | nil => exact .ok trivial
  | cons field rest ih =>
    rw [Operator.result_compileFields_cons, Operator.result_compileFields_cons]
    refine (Except.Agree.eq_self _).bind ?_
    rintro ⟨flag, child, query⟩ _ rfl
    refine (h flag child query).bind fun _ _ _ => ?_
    exact ih.map fun _ _ _ => trivial

theorem Setting.CompilesAlike.assemble (h : setting.CompilesAlike levels) (optional : Bool)
    (node : Node) (demand : Demand) :
    Except.Agree (fun _ _ => True)
      (demand.assemble ⟨setting, optional, setting.compile Operator.builtin levels⟩ node)
      (demand.assemble ⟨setting.withoutResolvers, optional,
        setting.withoutResolvers.compile Operator.builtin levels⟩ node) := by
  cases demand with
  | whole | matched => exact .ok trivial
  | through _ child rest | property _ _ child rest | items _ child rest =>
    exact (h _ child rest).map fun _ _ _ => trivial
  | members head properties requested =>
    exact (h.compileFields optional node head properties requested).map fun _ _ _ => trivial
  | anew query => exact (h false setting.graph.root query).map fun _ _ _ => trivial

/-- Resolvers have no say in whether a query is refused, and with which error. -/
theorem Setting.compilesAlike (setting : Setting) (levels : Nat) : setting.CompilesAlike levels := by
  induction levels with
  | zero => exact fun _ _ _ => .error _
  | succ levels ih =>
    intro optional node query
    rw [compile_succ, compile_succ, demand_withoutResolvers]
    refine (Except.Agree.eq_self _).bind ?_
    rintro demand _ rfl
    exact ih.assemble optional node demand

end

end PathQuery
