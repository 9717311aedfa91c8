import PathQuery.Proofs.Query.ResultType
import PathQuery.Proofs.Query.Selection

/-!
# A select and its steps

A `select` instruction asks an object for several members at once; a step asks it for one. The
select is compiled if all its steps are, and what it leaves is put together from what they leave in
the same context, each on its own (`Engine.select_eq_steps`). It fails with the step that fails first:
the first of the request if its members are resolved one after another, the first in time if they are
resolved together. The resolvers of the object itself have to run the rest of their chain once, for they
run once in a select and once in each step; and for the time of a step to be that of its member they have
to wait as often whatever the rest does.
-/

set_option autoImplicit false

namespace PathQuery

namespace Instruction

/-- The members that a select requests, each with its own query. -/
def requests (fields : List (String × List Json)) : List (String × Json) :=
  fields.map fun field => (field.1, .array field.2)

/-- The instruction selects these members. -/
def Selects (head : Json) (fields : List (String × List Json)) : Prop :=
  kind? head = some "select" ∧ head.member? "fields" = some (.object (requests fields))

/-- The query for one member alone. -/
def intoField (field : String × List Json) : List Json :=
  .string field.1 :: field.2

/-- The answer that is put together from those for the members. -/
def gathered (fields : List (String × List Json)) (values : List (Option Json)) : Option Json :=
  some (.object (Operator.gather (fields.map Prod.fst) values))

end Instruction

open Instruction (Selects requests intoField gathered)

/-! ## Compilation -/

namespace Setting

variable {setting : Setting} {node : Node} {head : Json} {fields : List (String × List Json)}
  {levels : Nat} {optional : Bool} {properties : List (Property Structure)}

/-- The middleware of a member of an object. -/
def compileMember (setting : Setting) (levels : Nat) (node : Node)
    (properties : List (Property Structure)) (field : String × List Json) :
    Except Error Middleware :=
  (node.child? (.field field.1)).bind fun child =>
    (setting.compile Operator.builtin levels (Property.mayLack field.1 properties) child
      field.2).result

theorem result_compileFields :
    (Operator.compileFields ⟨setting, optional, setting.compile Operator.builtin levels⟩ node head
        properties (requests fields)).result =
      fields.mapM fun field =>
        (setting.compileMember levels node properties field).map fun inner => (field.1, inner) := by
  induction fields with
  | nil => rfl
  | cons field rest ih =>
    rw [requests, List.map_cons, ← requests, Operator.result_compileFields_cons, ih,
      Except.mapM_cons, Node.requested, compileMember]
    cases node.child? (.field field.1) with
    | error e => rfl
    | ok child =>
      simp only [Except.map, Except.ok_bind]
      cases (setting.compile Operator.builtin levels (Property.mayLack field.1 properties) child
        field.2).result <;> rfl

variable {label : Label} {name : Option String} {parameters : List String}
  (hshape : node.shape = .object label name parameters properties)

include hshape

theorem demand_of_object {query : List Json}
    (hpath : ∀ head rest, query = head :: rest → Instruction.kind? head ≠ some "path") :
    setting.demand node query = demandAtObject node properties query := by
  rw [setting.demand_of_not_path node (.inr hpath), demandByStructure, hshape]

theorem compile_select (hselects : Selects head fields) :
    (setting.compile Operator.builtin (levels + 1) optional node [head]).result =
      (fields.mapM fun field => (setting.compileMember levels node properties field).map
        fun inner => (field.1, inner)).map fun selections =>
          Descent.enclose setting.resolvers node none
            (Descent.onSettled optional node
              (Demand.intoMembers setting.execution.parallel selections)) := by
  have hdemand : setting.demand node [head] = .ok (.members head properties (requests fields)) := by
    rw [demand_of_object hshape]
    · simp only [demandAtObject, hselects.1, hselects.2, if_true]
      rfl
    · rintro _ _ ⟨⟩
      rw [hselects.1]
      decide
  rw [compile_succ, hdemand, Except.ok_bind, Demand.assemble, result_compileFields]
  rfl

theorem compile_intoField (field : String × List Json) :
    (setting.compile Operator.builtin (levels + 1) optional node (intoField field)).result =
      (setting.compileMember levels node properties field).map fun inner =>
        Descent.enclose setting.resolvers node none
          (Descent.onSettled optional node (Demand.intoMember field.1 inner)) := by
  have hdemand : setting.demand node (intoField field) =
      (node.child? (.field field.1)).map fun child =>
        .property field.1 (Property.mayLack field.1 properties) child field.2 := by
    rw [demand_of_object hshape]
    · rfl
    · rintro _ _ ⟨⟩
      nofun
  rw [compile_succ, hdemand, compileMember]
  cases node.child? (.field field.1) <;> rfl

theorem compile_whole :
    (setting.compile Operator.builtin (levels + 1) optional node []).result =
      .ok (Descent.enclose setting.resolvers node none
        (Descent.onSettled optional node fun _ value => return some value)) := by
  have hdemand : setting.demand node [] = demandAtObject node properties [] :=
    demand_of_object hshape nofun
  rw [compile_succ, hdemand]
  rfl

end Setting

/-! ## Runs -/

theorem Middleware.once_set (parallel : Bool) (value : Json) : (set value).Once parallel :=
  ⟨fun context => pure (context.setValue (some value)), fun _ _ => (pure_bind _ _).symm⟩

/-- Goes on from a context with its settled value, if there is one. -/
def Timed.goOn (go : Context → Json → Timed (Option Json)) :
    Option (Context × Json) → Timed (Option Json)
  | some (context, value) => go context value
  | none => return none

/-- What a node leaves whose resolvers run the rest of their chain once, whatever goes on from there:
the same error, nothing, or what goes on from one context with one settled value. -/
theorem Descent.timed_settled_once {parallel : Bool} {resolvers : Resolvers} {node : Node}
    (h : ∀ middleware ∈ resolvers.atShape node.shape, Middleware.Once parallel middleware)
    (input : Option Json) (optional : Bool) (context : Context) :
    ∃ left : Timed (Option (Context × Json)),
      (∀ inner value, left.result = .ok (some (inner, value)) → checkShape node value = .ok ()) ∧
      ∀ go, ((enclose resolvers node input (onSettled optional node go)).evaluate context).timed
        parallel = left >>= Timed.goOn fun inner value => (go inner value).timed parallel := by
  obtain ⟨before, hbefore⟩ := exists_timed_enclose h input context
  refine ⟨before >>= fun inner =>
    Option.map (inner, ·) <$> Traced.ofExcept (settle optional node inner), ?_, fun go => ?_⟩
  · intro inner value hleft
    rw [Traced.result_bind] at hleft
    obtain ⟨found, _, hleft⟩ := Except.bind_eq_ok_iff.mp hleft
    rw [Traced.result_map] at hleft
    obtain ⟨settled?, hsettle, heq⟩ := Except.map_eq_ok_iff.mp hleft
    rcases settle_cases hsettle with ⟨_, rfl⟩ | ⟨settled, rfl, hcheck⟩
    · cases heq
    · cases heq
      exact hcheck
  · rw [hbefore, bind_assoc]
    refine congrArg (before >>= ·) (funext fun inner => ?_)
    rw [bind_map_left, onSettled, Run.timed_bind, Run.timed_ofExcept]
    refine congrArg (_ >>= ·) (funext fun settled? => ?_)
    cases settled? <;> rfl

theorem Descent.exists_object_of_checkShape {node : Node} {value : Json}
    (hkind : node.kind = .object) (h : checkShape node value = .ok ()) :
    ∃ given, value = .object given := by
  have hobject := isObject_of_checkShape hkind h
  cases value with
  | object given => exact ⟨given, rfl⟩
  | _ => cases hobject

section

variable {setting : Setting} {node : Node} {levels : Nat} {properties : List (Property Structure)}
  {fields : List (String × List Json)} {selections : List Operator.Selection}

/-- What is selected is compiled field by field. -/
theorem Setting.map_selections {α : Type} (f : Operator.Selection → Run α)
    (h : (fields.mapM fun field => (setting.compileMember levels node properties field).map
      fun inner => (field.1, inner)) = .ok selections) :
    selections.map f = fields.map fun field =>
      Traced.ofExcept (setting.compileMember levels node properties field) >>= fun inner =>
        f (field.1, inner) := by
  have hselections := Except.mapM_eq_ok_iff.mp h
  clear h
  induction hselections with
  | nil => rfl
  | cons hfirst _ ih =>
    obtain ⟨inner, hinner, rfl⟩ := Except.map_eq_ok_iff.mp hfirst
    rw [List.map_cons, List.map_cons, ih, hinner, Traced.ofExcept_ok_bind]

theorem Setting.map_name_selections
    (h : (fields.mapM fun field => (setting.compileMember levels node properties field).map
      fun inner => (field.1, inner)) = .ok selections) :
    selections.map Prod.fst = fields.map Prod.fst := by
  have hselections := Except.mapM_eq_ok_iff.mp h
  clear h
  induction hselections with
  | nil => rfl
  | cons hfirst _ ih =>
    obtain ⟨inner, _, rfl⟩ := Except.map_eq_ok_iff.mp hfirst
    rw [List.map_cons, List.map_cons, ih]

/-- The run of one member of an object. -/
def Setting.memberRun (setting : Setting) (levels : Nat) (node : Node)
    (properties : List (Property Structure)) (field : String × List Json) (context : Context)
    (value : Json) : Run (Option Json) := do
  let inner ← Traced.ofExcept (setting.compileMember levels node properties field)
  Demand.intoMember field.1 inner context value

theorem Setting.intoMembers_eq
    (h : (fields.mapM fun field => (setting.compileMember levels node properties field).map
      fun inner => (field.1, inner)) = .ok selections) (parallel : Bool) (context : Context)
    (given : List (String × Json)) :
    Demand.intoMembers parallel selections context (.object given) =
      gathered fields <$> Run.all parallel (fields.map fun field =>
        setting.memberRun levels node properties field context (.object given)) := by
  rw [Demand.intoMembers, bind_pure_comp, Operator.project, bind_pure_comp, Functor.map_map,
    map_selections _ h, map_name_selections h]
  rfl

end

/-- What a select leaves when every field has an answer of its own. -/
theorem Operator.gather_map (fields : List (String × List Json))
    (answer : String × List Json → Option Json) :
    gather (fields.map Prod.fst) (fields.map answer) =
      fields.filterMap fun field => (answer field).map fun value => (field.1, value) := by
  rw [gather, List.zip_map', List.filterMap_map]
  rfl

namespace Engine

variable {engine : Engine} {node : Node} {head : Json} {fields : List (String × List Json)}
  {levels : Nat} {optional : Bool} {context : Context} {label : Label} {name : Option String}
  {parameters : List String} {properties : List (Property Structure)}

/-- A query compiled at a node. -/
def compileAt (engine : Engine) (levels : Nat) (optional : Bool) (node : Node)
    (query : List Json) : Except Error Middleware :=
  (engine.setting.compile engine.operators levels optional node query).result

/-- A query compiled at a node and run there. -/
def runAt (engine : Engine) (levels : Nat) (optional : Bool) (node : Node) (query : List Json)
    (context : Context) : Run (Option Json) := do
  let middleware ← Walk.run (engine.setting.compile engine.operators levels optional node query)
  middleware.evaluate context

theorem result_runAt (query : List Json) :
    (engine.runAt levels optional node query context).result =
      engine.answerAt levels optional node query context := by
  rw [runAt, answerAt, Traced.result_bind, Walk.run, Traced.result_mapTrail]

/-- Compiling takes no time. -/
theorem timed_runAt {query : List Json} {middleware : Middleware}
    (h : engine.compileAt levels optional node query = .ok middleware) (parallel : Bool) :
    (engine.runAt levels optional node query context).timed parallel =
      (middleware.evaluate context).timed parallel := by
  have hresult : (engine.setting.compile engine.operators levels optional node query).result =
      .ok middleware := h
  rw [runAt, Run.timed_bind, Run.timed_walk, hresult, Traced.ofExcept_ok_bind]

section

variable (hbuiltin : engine.operators = Operator.builtin)
  (hshape : node.shape = .object label name parameters properties)

include hbuiltin hshape

theorem compileAt_whole :
    engine.compileAt (levels + 1) optional node [] =
      .ok (Descent.enclose engine.setting.resolvers node none
        (Descent.onSettled optional node fun _ value => return some value)) := by
  rw [compileAt, hbuiltin, Setting.compile_whole hshape]

theorem compileAt_intoField {field : String × List Json} {member : Middleware}
    (h : engine.setting.compileMember levels node properties field = .ok member) :
    engine.compileAt (levels + 1) optional node (intoField field) =
      .ok (Descent.enclose engine.setting.resolvers node none
        (Descent.onSettled optional node (Demand.intoMember field.1 member))) := by
  rw [compileAt, hbuiltin, Setting.compile_intoField hshape, h]
  rfl

/-- A select is compiled if all its steps are, and fails as the first step that is not. -/
theorem compileAt_select (hselects : Selects head fields) (hfields : fields ≠ []) :
    ((engine.compileAt levels optional node [head]).map fun _ => ()) =
      (fields.mapM fun field => engine.compileAt levels optional node (intoField field)).map
        fun _ => () := by
  cases levels with
  | zero =>
    obtain ⟨field, rest, rfl⟩ := List.exists_cons_of_ne_nil hfields
    rw [Except.mapM_cons]
    rfl
  | succ levels =>
    unfold compileAt
    rw [hbuiltin, Setting.compile_select hshape hselects, Except.map_map]
    simp only [Setting.compile_intoField hshape]
    rw [Except.mapM_map_ignored, Except.mapM_map_ignored]

theorem compiles_select_iff (hselects : Selects head fields) (hfields : fields ≠ []) :
    (∃ middleware, engine.compileAt levels optional node [head] = .ok middleware) ↔
      ∀ field ∈ fields, ∃ middleware,
        engine.compileAt levels optional node (intoField field) = .ok middleware := by
  rw [← Except.exists_mapM_eq_ok_iff]
  have hcompile : ((engine.compileAt levels optional node [head]).map fun _ => ()) =
      (fields.mapM fun field => engine.compileAt levels optional node (intoField field)).map
        fun _ => () := compileAt_select hbuiltin hshape hselects hfields
  cases hhead : engine.compileAt levels optional node [head] <;>
    cases hsteps : fields.mapM fun field => engine.compileAt levels optional node (intoField field) <;>
    simp_all [Except.map]

/-- The object alone, its steps and a select of them go on from one context with one settled value. -/
theorem exists_left {timing : Bool}
    (honce : ∀ middleware ∈ engine.setting.resolvers.atShape node.shape,
      Middleware.Once timing middleware)
    (hselects : Selects head fields) {middleware : Middleware}
    (hcompile : engine.compileAt levels optional node [head] = .ok middleware) (context : Context) :
    ∃ (left : Timed (Option (Context × Json)))
        (member : String × List Json → Context → Json → Run (Option Json)),
      (engine.runAt levels optional node [] context).timed timing =
        left >>= Timed.goOn (fun _ value => return some value) ∧
      (∀ field ∈ fields,
        (engine.runAt levels optional node (intoField field) context).timed timing =
          left >>= Timed.goOn fun inner value => (member field inner value).timed timing) ∧
      (engine.runAt levels optional node [head] context).timed timing =
        left >>= Timed.goOn fun inner value =>
          (gathered fields <$> Run.all engine.setting.execution.parallel
            (fields.map fun field => member field inner value)).timed timing := by
  cases levels with
  | zero => cases hcompile
  | succ levels =>
    have hkind : node.kind = .object := congrArg Structure.kind hshape
    obtain ⟨left, hcheck, hleft⟩ := Descent.timed_settled_once honce none optional context
    have hhead := hcompile
    rw [compileAt, hbuiltin, Setting.compile_select hshape hselects] at hhead
    obtain ⟨selections, hselections, rfl⟩ := Except.map_eq_ok_iff.mp hhead
    refine ⟨left, engine.setting.memberRun levels node properties, ?_, fun field hfield => ?_, ?_⟩
    · rw [timed_runAt (compileAt_whole hbuiltin hshape), hleft]
      rfl
    · obtain ⟨_, hselection⟩ := Except.exists_mapM_eq_ok_iff.mp ⟨_, hselections⟩ field hfield
      obtain ⟨member, hmember, _⟩ := Except.map_eq_ok_iff.mp hselection
      rw [timed_runAt (compileAt_intoField hbuiltin hshape hmember), hleft]
      unfold Setting.memberRun
      rw [hmember]
      rfl
    · rw [timed_runAt hcompile, hleft]
      refine Traced.bind_congr_of_ok fun found hfound => ?_
      cases found with
      | none => rfl
      | some found =>
        obtain ⟨inner, value⟩ := found
        obtain ⟨given, rfl⟩ := Descent.exists_object_of_checkShape hkind (hcheck inner value hfound)
        exact congrArg (Run.timed timing) (Setting.intoMembers_eq hselections _ inner given)

/-- Nothing is left of an object that is not defined. Of one that is, a select leaves what all its steps
leave, put together, or it fails as one of them does. -/
theorem answerAt_select
    (honce : ∀ middleware ∈ engine.setting.resolvers.atShape node.shape,
      Middleware.Once false middleware)
    (hselects : Selects head fields) (hfields : fields ≠ []) {middleware : Middleware}
    (hcompile : engine.compileAt levels optional node [head] = .ok middleware)
    (context : Context) :
    (engine.answerAt levels optional node [] context = .ok none ∧
      engine.answerAt levels optional node [head] context = .ok none ∧
      ∀ field ∈ fields,
        engine.answerAt levels optional node (intoField field) context = .ok none) ∨
    (engine.answerAt levels optional node [] context ≠ .ok none ∧
      (∀ answer, engine.answerAt levels optional node [head] context = .ok answer ↔ ∃ values,
        (fields.mapM fun field => engine.answerAt levels optional node (intoField field) context) =
            .ok values ∧ answer = gathered fields values) ∧
      ∀ error, engine.answerAt levels optional node [head] context = .error error →
        ∃ field ∈ fields,
          engine.answerAt levels optional node (intoField field) context = .error error) := by
  obtain ⟨left, member, hwhole, hstep, hselect⟩ :=
    exists_left hbuiltin hshape honce hselects hcompile context
  have hstep : ∀ field ∈ fields, engine.answerAt levels optional node (intoField field) context =
      left.result.bind fun found =>
        (Timed.goOn (fun inner value => (member field inner value).timed false) found).result := by
    intro field hfield
    rw [← result_runAt, Run.result_of_timed (hstep field hfield)]
  rw [← result_runAt [], ← result_runAt [head], Run.result_of_timed hwhole,
    Run.result_of_timed hselect]
  obtain ⟨field, hfield⟩ := List.exists_mem_of_ne_nil fields hfields
  cases hfound : left.result with
  | error error =>
    rw [hfound] at hstep
    refine .inr ⟨nofun, fun answer => iff_of_false nofun ?_, fun error' herror => ?_⟩
    · rintro ⟨values, hvalues, _⟩
      obtain ⟨_, hvalue⟩ := Except.exists_mapM_eq_ok_iff.mp ⟨values, hvalues⟩ field hfield
      cases (hstep field hfield).symm.trans hvalue
    · exact ⟨field, hfield, (hstep field hfield).trans herror⟩
  | ok found =>
    rw [hfound] at hstep
    cases found with
    | none => exact .inl ⟨rfl, rfl, hstep⟩
    | some found =>
      obtain ⟨inner, value⟩ := found
      have hsteps : (fields.mapM fun field =>
          engine.answerAt levels optional node (intoField field) context) =
            (fields.map fun field => member field inner value).mapM Traced.result := by
        rw [List.mapM_map]
        exact Except.mapM_congr hstep
      refine .inr ⟨nofun, fun answer => ?_, fun error herror => ?_⟩
      · change (gathered fields <$> Run.all _ _).result = .ok answer ↔ _
        rw [Traced.result_map, Except.map_eq_ok_iff, hsteps]
        exact exists_congr fun values => and_congr Run.result_all_eq_ok_iff eq_comm
      · have herror : (gathered fields <$> Run.all _ _).result = .error error := herror
        rw [Traced.result_map, Except.map_eq_error_iff] at herror
        obtain ⟨run, hrun, herror⟩ := Run.exists_of_result_all_eq_error herror
        obtain ⟨field, hfield, rfl⟩ := List.mem_map.mp hrun
        exact ⟨field, hfield, (hstep field hfield).trans herror⟩

/-- Where the resolvers of the object wait as often whatever the rest does, a select of a defined object
does what its steps do together. -/
theorem answerAt_select_eq_all
    (honce : ∀ middleware ∈ engine.setting.resolvers.atShape node.shape,
      Middleware.Once engine.setting.execution.parallel middleware)
    (hselects : Selects head fields) (hfields : fields ≠ []) {middleware : Middleware}
    (hcompile : engine.compileAt levels optional node [head] = .ok middleware)
    (hdefined : engine.answerAt levels optional node [] context ≠ .ok none) :
    engine.answerAt levels optional node [head] context =
      (Run.all engine.setting.execution.parallel (fields.map fun field =>
        engine.runAt levels optional node (intoField field) context)).result.map
          (gathered fields) := by
  obtain ⟨left, member, hwhole, hstep, hselect⟩ :=
    exists_left hbuiltin hshape honce hselects hcompile context
  generalize engine.setting.execution.parallel = parallel at hstep hselect hwhole ⊢
  have hsteps : (Run.all parallel (fields.map fun field =>
      engine.runAt levels optional node (intoField field) context)).timed parallel =
        left >>= fun found => Timed.together (fields.map fun field =>
          Timed.goOn (fun inner value => (member field inner value).timed parallel) found) := by
    rw [Run.timed_all, List.map_map, ← Timed.together_bind left _ hfields]
    exact congrArg Timed.together (List.map_congr_left hstep)
  rw [← result_runAt, Run.result_of_timed hwhole] at hdefined
  rw [← result_runAt, Run.result_of_timed hselect, Run.result_of_timed hsteps]
  cases hfound : left.result with
  | error error => rfl
  | ok found =>
    cases found with
    | none => exact absurd (by rw [hfound]; rfl) hdefined
    | some found =>
      obtain ⟨inner, value⟩ := found
      change (gathered fields <$> Run.all _ _).result = (Timed.together _).result.map _
      rw [Traced.result_map, ← Run.result_timed parallel, Run.timed_all, List.map_map]
      rfl

/-- Where every step of a select has an answer, so has the select, in any order of its fields. -/
theorem answerAt_select_of_answers
    (honce : ∀ middleware ∈ engine.setting.resolvers.atShape node.shape,
      Middleware.Once false middleware)
    (hselects : Selects head fields) (hfields : fields ≠ []) {middleware : Middleware}
    (hcompile : engine.compileAt levels optional node [head] = .ok middleware)
    (hdefined : engine.answerAt levels optional node [] context ≠ .ok none)
    {answer : String × List Json → Option Json}
    (hanswer : ∀ field ∈ fields,
      engine.answerAt levels optional node (intoField field) context = .ok (answer field)) :
    engine.answerAt levels optional node [head] context =
      .ok (some (.object (fields.filterMap fun field =>
        (answer field).map fun value => (field.1, value)))) := by
  rcases answerAt_select hbuiltin hshape honce hselects hfields hcompile context with
    ⟨hnone, _⟩ | ⟨_, hanswers, _⟩
  · exact absurd hnone hdefined
  · rw [hanswers, ← Operator.gather_map]
    exact ⟨_, Except.mapM_eq_map hanswer, rfl⟩

theorem answerAt_select_perm
    (honce : ∀ middleware ∈ engine.setting.resolvers.atShape node.shape,
      Middleware.Once false middleware)
    (hselects : Selects head fields) (hfields : fields ≠ []) {middleware : Middleware}
    (hcompile : engine.compileAt levels optional node [head] = .ok middleware)
    {head' : Json} {fields' : List (String × List Json)} (hselects' : Selects head' fields')
    (hperm : fields.Perm fields') {members : List (String × Json)}
    (hmembers : engine.answerAt levels optional node [head] context = .ok (some (.object members))) :
    ∃ members', engine.answerAt levels optional node [head'] context =
      .ok (some (.object members')) ∧ members.Perm members' := by
  have hfields' : fields' ≠ [] := by
    rintro rfl
    exact hfields hperm.eq_nil
  obtain ⟨middleware', hcompile'⟩ :=
    (compiles_select_iff hbuiltin hshape hselects' hfields').mpr fun field hfield =>
      (compiles_select_iff hbuiltin hshape hselects hfields).mp ⟨middleware, hcompile⟩ field
        (hperm.mem_iff.mpr hfield)
  rcases answerAt_select hbuiltin hshape honce hselects hfields hcompile context with
    ⟨_, hnone, _⟩ | ⟨hdefined, hanswers, _⟩
  · cases hnone.symm.trans hmembers
  obtain ⟨values, hvalues, _⟩ := (hanswers _).mp hmembers
  let answer (field : String × List Json) : Option Json :=
    (engine.answerAt levels optional node (intoField field) context).toOption.join
  have hanswer : ∀ field ∈ fields,
      engine.answerAt levels optional node (intoField field) context = .ok (answer field) := by
    intro field hfield
    obtain ⟨value, hvalue⟩ := Except.exists_mapM_eq_ok_iff.mp ⟨values, hvalues⟩ field hfield
    simp only [answer, hvalue]
    rfl
  have hleft := answerAt_select_of_answers hbuiltin hshape honce hselects hfields hcompile
    hdefined hanswer
  have hright := answerAt_select_of_answers hbuiltin hshape honce hselects' hfields' hcompile'
    hdefined fun field hfield => hanswer field (hperm.mem_iff.mpr hfield)
  rw [hmembers] at hleft
  cases hleft
  exact ⟨_, hright, hperm.filterMap _⟩

end

end Engine

/-! ## A library -/

namespace Library

/-- The shelf may be lacking, and does. -/
def shelfAndTags : List (String × List Json) :=
  [("shelf", []), ("tags", [])]

def selection : Json :=
  .object [("kind", .string "select"), ("fields", .object (requests shelfAndTags))]

/-- The shelf is looked for outside and not found; the tags fail at once. -/
def failingResolvers : List Resolver :=
  [⟨entry, [Middleware.set (.object [])]⟩,
    ⟨graph.nodeAt [.entry "Library", .field "shelf"],
      [Middleware.pause, Middleware.raise (.resolverFailed "no shelf")]⟩,
    ⟨tags, [Middleware.raise (.resolverFailed "no tags")]⟩]

def failingEngine (parallel : Bool) : Engine :=
  ⟨{ graph, entry := "Library", resolvers := .bind failingResolvers, execution := { parallel },
     reach := defaultReach }, Operator.builtin⟩

theorem assemble_eq_failingEngine :
    Engine.assemble graph "Library" failingResolvers [] { execution := { parallel := true } } =
      .ok (failingEngine true) := rfl

theorem once_of_atShape {parallel : Bool} {resolvers : Resolvers}
    (h : resolvers.atShape entry.shape = [Middleware.set (.object [])]) :
    ∀ middleware ∈ resolvers.atShape entry.shape, Middleware.Once parallel middleware := by
  intro middleware hm
  rw [h, List.mem_singleton] at hm
  rw [hm]
  exact Middleware.once_set parallel _

end Library

end PathQuery
