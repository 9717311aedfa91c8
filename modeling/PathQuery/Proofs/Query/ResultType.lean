import PathQuery.Proofs.Query.Assembly
import PathQuery.Proofs.Query.Enclosure

/-!
# Types of results

What a query can give at a node, read off the schema and the query alone (`Setting.ResultType`).
Middlewares that hand back what the rest of their chain gives them may put any value in at any node;
since every descent settles its value before it goes on, the result is of the type all the same
(`Engine.resultType_of_run`).
-/

set_option autoImplicit false

namespace PathQuery

/-- The values of an object as a whole and of the leaves. -/
def Structure.Holds : Structure → Json → Prop
  | object .., value => value.isObject = true
  | primitive _ type, value => type.admits value = true
  | literal _ constant, value => (constant == value) = true
  | _, _ => False

/-- The node's own value is settled first. -/
def Demand.Settles : Demand → Prop
  | through .. | anew _ => False
  | _ => True

/-- What a query can give at a node, undefined being `none`; the flag says whether the node may stay
undefined. -/
inductive Setting.ResultType (setting : Setting) : Bool → Node → List Json → Option Json → Prop where
  | undefined {node : Node} {query : List Json} {demand : Demand}
      (asked : setting.demand node query = .ok demand) (settles : demand.Settles) :
      ResultType setting true node query none
  | whole {optional : Bool} {node : Node} {query : List Json} {value : Json}
      (asked : setting.demand node query = .ok .whole) (holds : node.shape.Holds value) :
      ResultType setting optional node query (some value)
  /-- The other side of a nullable. -/
  | null {optional : Bool} {node child : Node} {query rest : List Json} {input : Option Json}
      (asked : setting.demand node query = .ok (.through input child rest))
      (nullable : node.kind = .nullable) :
      ResultType setting optional node query (some .null)
  | through {optional : Bool} {node child : Node} {query rest : List Json} {input : Option Json}
      {value : Option Json} (asked : setting.demand node query = .ok (.through input child rest))
      (inner : ResultType setting optional child rest value) :
      ResultType setting optional node query value
  | property {optional flag : Bool} {node child : Node} {name : String} {query rest : List Json}
      {value : Option Json} (asked : setting.demand node query = .ok (.property name flag child rest))
      (inner : ResultType setting flag child rest value) :
      ResultType setting optional node query value
  /-- A requested member is missing only if its own query gives nothing. -/
  | members {optional : Bool} {node : Node} {query : List Json} {head : Json}
      {properties : List (Property Structure)} {requested : List (String × Json)}
      {values : List (Option Json)}
      (asked : setting.demand node query = .ok (.members head properties requested))
      (length : values.length = requested.length)
      (read : ∀ field ∈ requested, ∃ part, node.requested head properties field = .ok part)
      (inner : ∀ entry ∈ requested.zip values, ∀ flag child rest,
        node.requested head properties entry.1 = .ok (flag, child, rest) →
        ResultType setting flag child rest entry.2) :
      ResultType setting optional node query
        (some (.object (Operator.gather (requested.map Prod.fst) values)))
  /-- An undefined item is written as null. -/
  | items {optional : Bool} {node item : Node} {query rest : List Json} {excerpt : Excerpt}
      {values : List (Option Json)}
      (asked : setting.demand node query = .ok (.items excerpt item rest))
      (several : excerpt.single? = none)
      (inner : ∀ value ∈ values, ResultType setting false item rest value) :
      ResultType setting optional node query
        (some (.array (values.map fun value => value.getD .null)))
  | item {optional : Bool} {node item : Node} {query rest : List Json} {excerpt : Excerpt}
      {index : Nat} {value : Option Json}
      (asked : setting.demand node query = .ok (.items excerpt item rest))
      (single : excerpt.single? = some index)
      (inner : ResultType setting false item rest value) :
      ResultType setting optional node query value
  | noItem {optional : Bool} {node item : Node} {query rest : List Json} {excerpt : Excerpt}
      {index : Nat} (asked : setting.demand node query = .ok (.items excerpt item rest))
      (single : excerpt.single? = some index) :
      ResultType setting optional node query (some .null)
  | matched {optional : Bool} {node member : Node} {query rest : List Json} {value : Option Json}
      (asked : setting.demand node query = .ok (.matched rest)) (memberOf : node.MemberOf member)
      (inner : ResultType setting optional member rest value) :
      ResultType setting optional node query value
  | anew {optional : Bool} {node : Node} {query absolute : List Json} {value : Option Json}
      (asked : setting.demand node query = .ok (.anew absolute))
      (inner : ResultType setting false setting.graph.root absolute value) :
      ResultType setting optional node query value

/-! ## Middlewares that hand back what they are given -/

/-- Fails, or runs the rest of the chain with some context and gives back what comes of it. -/
def Middleware.Forwards (middleware : Middleware) : Prop :=
  ∀ context next, (∃ error, (middleware context next).result = .error error) ∨
    ∃ context', (middleware context next).result = (next context').result

theorem Middleware.forwards_fillEmpty : Middleware.fillEmpty.Forwards := by
  intro context next
  unfold fillEmpty
  rw [Traced.result_bind, Traced.result_ofExcept]
  cases context.activeNode with
  | error e => exact .inl ⟨e, rfl⟩
  | ok node => exact .inr ⟨_, rfl⟩

theorem Middleware.forwards_compose {middlewares : List Middleware}
    (h : ∀ middleware ∈ middlewares, middleware.Forwards) : (compose middlewares).Forwards := by
  induction middlewares with
  | nil => exact fun context _ => .inr ⟨context, rfl⟩
  | cons first rest ih =>
    intro context next
    rw [compose_cons, andThen]
    rcases h first List.mem_cons_self context (compose rest · next) with hfails | ⟨inner, hfirst⟩
    · exact .inl hfails
    · rw [hfirst]
      exact ih (fun middleware hm => h middleware (List.mem_cons_of_mem _ hm)) inner next

namespace Descent

variable {resolvers : Resolvers} {node : Node} {input value : Option Json} {descent : Descent}
  {context : Context}

theorem exists_of_evaluate_enclose
    (h : ∀ middleware ∈ resolvers.atShape node.shape, Middleware.Forwards middleware)
    (hvalue : ((enclose resolvers node input descent).evaluate context).result = .ok value) :
    ∃ context', (descent context').result = .ok value := by
  rw [Middleware.result_evaluate_enclose] at hvalue
  rcases Middleware.forwards_compose h (attach node input (context.enter node)) (core descent) with
    ⟨e, hfails⟩ | ⟨context', hforwards⟩
  · rw [hfails] at hvalue
    cases hvalue
  · rw [hforwards, value?_core] at hvalue
    exact ⟨context', hvalue⟩

theorem settle_cases {optional : Bool} {settled? : Option Json}
    (h : settle optional node context = .ok settled?) :
    (optional = true ∧ settled? = none) ∨
      ∃ settled, settled? = some settled ∧ checkShape node settled = .ok () := by
  have of_checked {value : Json}
      (hchecked : ((checkShape node value).map fun _ => some value) = .ok settled?) :
      ∃ settled, settled? = some settled ∧ checkShape node settled = .ok () := by
    obtain ⟨_, hcheck, rfl⟩ := Except.map_eq_ok_iff.mp hchecked
    exact ⟨value, rfl, hcheck⟩
  unfold settle at h
  split at h
  · exact .inr (of_checked h)
  · split at h
    · exact .inr (of_checked h)
    · split at h
      · next hoptional =>
        cases h
        exact .inl ⟨hoptional, rfl⟩
      · cases h

theorem onSettled_cases {optional : Bool} {go : Context → Json → Run (Option Json)}
    (h : (onSettled optional node go context).result = .ok value) :
    (optional = true ∧ value = none) ∨
      ∃ settled, checkShape node settled = .ok () ∧ (go context settled).result = .ok value := by
  rw [result_onSettled] at h
  obtain ⟨settled?, hsettle, h⟩ := Except.bind_eq_ok_iff.mp h
  rcases settle_cases hsettle with ⟨hoptional, rfl⟩ | ⟨settled, rfl, hcheck⟩
  · cases h
    exact .inl ⟨hoptional, rfl⟩
  · exact .inr ⟨settled, hcheck, h⟩

/-- What the resolvers of a node leave is settled, and the descent goes on from there. -/
theorem settled_cases {optional : Bool} {go : Context → Json → Run (Option Json)}
    (h : ∀ middleware ∈ resolvers.atShape node.shape, Middleware.Forwards middleware)
    (hvalue : ((enclose resolvers node input (onSettled optional node go)).evaluate
      context).result = .ok value) :
    (optional = true ∧ value = none) ∨
      ∃ context' settled, checkShape node settled = .ok () ∧
        (go context' settled).result = .ok value := by
  obtain ⟨context', hdescent⟩ := exists_of_evaluate_enclose h hvalue
  rcases onSettled_cases hdescent with hnone | ⟨settled, hcheck, hgo⟩
  · exact .inl hnone
  · exact .inr ⟨context', settled, hcheck, hgo⟩

theorem isObject_of_checkShape {settled : Json} (hkind : node.kind = .object)
    (h : checkShape node settled = .ok ()) : settled.isObject = true := by
  obtain ⟨_, _, _, _, hs⟩ := (Structure.kind_eq_object_iff node.shape).mp hkind
  simp only [checkShape, hs, expected?] at h
  cases hobject : settled.isObject with
  | true => rfl
  | false => simp [hobject] at h

theorem isArray_of_checkShape {settled : Json} (hkind : node.kind = .array)
    (h : checkShape node settled = .ok ()) : settled.isArray = true := by
  unfold Node.kind at hkind
  unfold checkShape at h
  cases hs : node.shape with
  | array _ _ =>
    cases harray : settled.isArray with
    | true => rfl
    | false => simp [hs, expected?, harray] at h
  | _ => simp [hs, Structure.kind] at hkind

theorem holds_of_checkShape {settled : Json}
    (hkind : node.kind = .object ∨ node.kind = .primitive ∨ node.kind = .literal)
    (h : checkShape node settled = .ok ()) : node.shape.Holds settled := by
  unfold Node.kind at hkind
  unfold checkShape at h
  cases hs : node.shape with
  | object _ _ _ _ =>
    exact isObject_of_checkShape (congrArg Structure.kind hs) h
  | primitive _ type =>
    cases hadmits : type.admits settled with
    | true => exact hadmits
    | false => simp [hs, expected?, hadmits] at h
  | literal _ constant =>
    cases hequal : constant == settled with
    | true => exact hequal
    | false => simp [hs, expected?, hequal] at h
  | _ => simp [hs, Structure.kind] at hkind

end Descent

/-! ## Compiled queries -/

section

variable {setting : Setting} {levels : Nat} {optional : Bool} {node : Node} {context : Context}
  {value : Option Json}

/-- What is compiled at this many levels gives results of the type of its query. -/
def Setting.TypedAt (setting : Setting) (levels : Nat) : Prop :=
  ∀ optional node query middleware,
    (setting.compile Operator.builtin levels optional node query).result = .ok middleware →
    ∀ context value, (middleware.evaluate context).result = .ok value →
    setting.withoutResolvers.ResultType optional node query value

namespace Setting.TypedAt

/-- Every selected member is answered by its own query. -/
theorem members_of_runs (h : setting.TypedAt levels) {head : Json}
    {properties : List (Property Structure)} {requested given : List (String × Json)}
    {fields : List Operator.Selection} {values : List (Option Json)}
    (hselects : List.Forall₂ (Operator.Selects
      ⟨setting, optional, setting.compile Operator.builtin levels⟩ node head properties)
      requested fields)
    (hruns : List.Forall₂ (fun selection value =>
      (Operator.runMember context given selection).result = .ok value) fields values) :
    values.length = requested.length ∧
      (∀ field ∈ requested, ∃ part, node.requested head properties field = .ok part) ∧
      ∀ entry ∈ requested.zip values, ∀ flag child rest,
        node.requested head properties entry.1 = .ok (flag, child, rest) →
        setting.withoutResolvers.ResultType flag child rest entry.2 := by
  induction hselects generalizing values with
  | nil =>
    cases hruns
    exact ⟨rfl, nofun, nofun⟩
  | cons hfirst _ ih =>
    cases hruns with
    | cons hvalue hothers =>
    obtain ⟨hlength, hread, htyped⟩ := ih hothers
    obtain ⟨flag, child, query, hrequested, hinner⟩ := hfirst.compiled
    refine ⟨congrArg (· + 1) hlength, List.forall_mem_cons.mpr ⟨⟨_, hrequested⟩, hread⟩, ?_⟩
    intro entry hentry flag' child' query' hpart
    rcases List.mem_cons.mp hentry with rfl | hentry
    · rw [hrequested] at hpart
      cases hpart
      exact h _ _ _ _ hinner _ _ hvalue
    · exact htyped entry hentry flag' child' query' hpart

theorem exists_of_project (h : setting.TypedAt levels) {head : Json} {parallel : Bool}
    {properties : List (Property Structure)} {requested given projected : List (String × Json)}
    {fields : List Operator.Selection}
    (hfields : (Operator.compileFields
      ⟨setting, optional, setting.compile Operator.builtin levels⟩ node head properties
        requested).result = .ok fields)
    (hproject : (Operator.project parallel context given fields).result = .ok projected) :
    ∃ values, values.length = requested.length ∧
      (∀ field ∈ requested, ∃ part, node.requested head properties field = .ok part) ∧
      (∀ entry ∈ requested.zip values, ∀ flag child rest,
        node.requested head properties entry.1 = .ok (flag, child, rest) →
        setting.withoutResolvers.ResultType flag child rest entry.2) ∧
      projected = Operator.gather (requested.map Prod.fst) values := by
  obtain ⟨values, hvalues, rfl⟩ := Operator.result_project_eq_ok_iff.mp hproject
  have hselects := Operator.forall₂_of_compileFields hfields
  obtain ⟨hlength, hread, htyped⟩ := h.members_of_runs hselects
    (List.forall₂_map_left_iff.mp (Run.forall₂_of_all hvalues))
  exact ⟨values, hlength, hread, htyped, by rw [Operator.Selects.map_name hselects]⟩

theorem of_intoMembers (h : setting.TypedAt levels) {parallel : Bool} {query : List Json}
    {head : Json}
    {properties : List (Property Structure)} {requested : List (String × Json)}
    (asked : setting.withoutResolvers.demand node query = .ok (.members head properties requested))
    {fields : List Operator.Selection}
    (hfields : (Operator.compileFields
      ⟨setting, optional, setting.compile Operator.builtin levels⟩ node head properties
        requested).result = .ok fields) {settled : Json} (hobject : settled.isObject = true)
    (hvalue : (Demand.intoMembers parallel fields context settled).result = .ok value) :
    setting.withoutResolvers.ResultType optional node query value := by
  cases settled with
  | object given =>
    simp only [Demand.intoMembers, bind_pure_comp, Traced.result_map] at hvalue
    obtain ⟨projected, hproject, rfl⟩ := Except.map_eq_ok_iff.mp hvalue
    obtain ⟨values, hlength, hread, htyped, rfl⟩ := h.exists_of_project hfields hproject
    exact .members asked hlength hread htyped
  | _ => cases hobject

theorem of_excerpt (h : setting.TypedAt levels) {query rest : List Json} {excerpt : Excerpt}
    {item : Node} {parallel : Bool}
    (asked : setting.withoutResolvers.demand node query = .ok (.items excerpt item rest))
    {inner : Middleware}
    (hinner : (setting.compile Operator.builtin levels false item rest).result = .ok inner)
    {settled : Json} (harray : settled.isArray = true)
    (hvalue : (excerpt.run parallel node inner context settled).result = .ok value) :
    setting.withoutResolvers.ResultType optional node query value := by
  cases settled with
  | array list =>
    simp only [Excerpt.run] at hvalue
    cases hsingle : excerpt.single? with
    | some index =>
      simp only [hsingle] at hvalue
      split at hvalue
      · exact .item asked hsingle (h _ _ _ inner hinner _ _ hvalue)
      · cases hvalue
        exact .noItem asked hsingle
    | none =>
      simp only [hsingle, bind_pure_comp, Traced.result_map] at hvalue
      obtain ⟨values, hvalues, rfl⟩ := Except.map_eq_ok_iff.mp hvalue
      refine .items asked hsingle fun value hmem => ?_
      have hruns := List.forall₂_map_left_iff.mp (Run.forall₂_of_all hvalues)
      obtain ⟨entry, _, hentry⟩ := hruns.exists_of_mem hmem
      exact h _ _ _ inner hinner _ _ hentry
  | _ => cases harray

theorem of_intoMatched (h : setting.TypedAt levels) {query rest : List Json}
    (asked : setting.withoutResolvers.demand node query = .ok (.matched rest)) {settled : Json}
    (hvalue : (Demand.intoMatched
      ⟨setting, optional, setting.compile Operator.builtin levels⟩ node rest context
        settled).result = .ok value) :
    setting.withoutResolvers.ResultType optional node query value := by
  simp only [Demand.intoMatched, Walk.run, Traced.result_bind, Traced.result_mapTrail] at hvalue
  obtain ⟨inner, hinner, hvalue⟩ := Except.bind_eq_ok_iff.mp hvalue
  obtain ⟨member, hmember, hinner⟩ := Except.bind_eq_ok_iff.mp hinner
  exact .matched asked (Matching.memberOf_of_selectMember hmember)
    (h _ _ _ inner hinner _ _ hvalue)

theorem of_assemble (h : setting.TypedAt levels)
    (hforwards : ∀ shape, ∀ middleware ∈ setting.resolvers.atShape shape,
      Middleware.Forwards middleware)
    {query : List Json} {demand : Demand} (asked : setting.withoutResolvers.demand node query = .ok demand)
    {middleware : Middleware}
    (hm : demand.assemble ⟨setting, optional, setting.compile Operator.builtin levels⟩ node =
      .ok middleware) (hvalue : (middleware.evaluate context).result = .ok value) :
    setting.withoutResolvers.ResultType optional node query value := by
  have hsuits := Setting.suits_demand asked
  have hnode := hforwards node.shape
  cases demand with
  | whole =>
    cases hm
    rcases Descent.settled_cases hnode hvalue with ⟨rfl, rfl⟩ | ⟨_, settled, hcheck, hgo⟩
    · exact .undefined asked trivial
    · cases hgo
      exact .whole asked (Descent.holds_of_checkShape hsuits hcheck)
  | through input child rest =>
    obtain ⟨inner, hinner, rfl⟩ := Except.map_eq_ok_iff.mp hm
    obtain ⟨context', hdescent⟩ := Descent.exists_of_evaluate_enclose hnode hvalue
    unfold Descent.through at hdescent
    split at hdescent
    · next hnull =>
      cases hdescent
      exact .null asked hnull.1
    · exact .through asked (h _ _ _ inner hinner _ _ hdescent)
  | property name flag child rest =>
    obtain ⟨inner, hinner, rfl⟩ := Except.map_eq_ok_iff.mp hm
    rcases Descent.settled_cases hnode hvalue with ⟨rfl, rfl⟩ | ⟨_, settled, _, hgo⟩
    · exact .undefined asked trivial
    · exact .property asked (h _ _ _ inner hinner _ _ hgo)
  | members head properties requested =>
    obtain ⟨fields, hfields, rfl⟩ := Except.map_eq_ok_iff.mp hm
    rcases Descent.settled_cases hnode hvalue with ⟨rfl, rfl⟩ | ⟨_, settled, hcheck, hgo⟩
    · exact .undefined asked trivial
    · exact h.of_intoMembers asked hfields (Descent.isObject_of_checkShape hsuits hcheck) hgo
  | items excerpt item rest =>
    obtain ⟨inner, hinner, rfl⟩ := Except.map_eq_ok_iff.mp hm
    rcases Descent.settled_cases hnode hvalue with ⟨rfl, rfl⟩ | ⟨_, settled, hcheck, hgo⟩
    · exact .undefined asked trivial
    · exact h.of_excerpt asked hinner (Descent.isArray_of_checkShape hsuits.1 hcheck) hgo
  | matched rest =>
    cases hm
    rcases Descent.settled_cases hnode hvalue with ⟨rfl, rfl⟩ | ⟨_, settled, _, hgo⟩
    · exact .undefined asked trivial
    · exact h.of_intoMatched asked hgo
  | anew absolute =>
    obtain ⟨inner, hinner, rfl⟩ := Except.map_eq_ok_iff.mp hm
    rw [Middleware.result_evaluate_answerAnew] at hvalue
    exact .anew asked (h _ _ _ inner hinner _ _ hvalue)

end Setting.TypedAt

/-- Every level of compilation gives results of the type of the query. -/
theorem Setting.typedAt
    (hforwards : ∀ shape, ∀ middleware ∈ setting.resolvers.atShape shape,
      Middleware.Forwards middleware) (levels : Nat) : setting.TypedAt levels := by
  induction levels with
  | zero =>
    intro optional node query middleware hm
    cases hm
  | succ levels ih =>
    intro optional node query middleware hm context value hvalue
    rw [compile_succ] at hm
    obtain ⟨demand, asked, hm⟩ := Except.bind_eq_ok_iff.mp hm
    rw [← demand_withoutResolvers] at asked
    exact ih.of_assemble hforwards asked hm hvalue

end

namespace Engine

end Engine

namespace Library

end Library

end PathQuery
