import PathQuery.Proofs.Query.Assembly
import PathQuery.Proofs.Query.Lookups

/-!
# Naming the member of a union

A query goes on at a member of a union either by its name or at the one member that the value
fits. The first is known when the query is compiled, the second only when the resolvers of the union
have left a value. If only the named member fits that value, and no mark is left on the union, both
ways answer alike (`Engine.answerAt_asMember`). A mark makes a difference, for it is passed on to
the named member and not to the one that is found by the value (`Catalogue.answerAt_sliced`).
-/

set_option autoImplicit false

namespace PathQuery

def Instruction.asMember (name : String) : Json :=
  .object [("kind", .string "as"), ("type", .string name)]

/-- The query neither names a member at once nor starts again at the root. -/
def Instruction.Unnamed (query : List Json) : Prop :=
  ∀ head rest, query = head :: rest → kind? head ≠ some "path" ∧ kind? head ≠ some "as"

/-- What a query leaves at a node. -/
def Engine.answerAt (engine : Engine) (levels : Nat) (optional : Bool) (node : Node)
    (query : List Json) (context : Context) : Except Error (Option Json) :=
  (engine.setting.compile engine.operators levels optional node query).result.bind
    fun middleware => (middleware.evaluate context).result

/-! ## What the resolvers of a union leave -/

namespace Middleware

/-- Goes on in good contexts only: it leaves the same for continuations that do so in these. -/
def GoesOnWhere (good : Context → Prop) (middleware : Middleware) (context : Context) : Prop :=
  ∀ next next', (∀ inner, good inner → (next inner).result = (next' inner).result) →
    (middleware context next).result = (middleware context next').result

/-- Fails as the rest does if that fails in every good context. -/
def FailsWhere (good : Context → Prop) (middleware : Middleware) (context : Context) : Prop :=
  ∀ next error, (∀ inner, good inner → (next inner).result = .error error) →
    (middleware context next).result = .error error

theorem goesOnWhere_of_next {good : Context → Prop} {middleware : Middleware}
    {context inner : Context} (hgood : good inner)
    (h : ∀ next, middleware context next = next inner) :
    middleware.GoesOnWhere good context := by
  intro next next' hnext
  rw [h, h]
  exact hnext inner hgood

theorem failsWhere_of_next {good : Context → Prop} {middleware : Middleware}
    {context inner : Context} (hgood : good inner)
    (h : ∀ next, middleware context next = next inner) :
    middleware.FailsWhere good context := by
  intro next error hnext
  rw [h]
  exact hnext inner hgood

end Middleware

/-- The value fits this member of the union and no other, and there is no mark on the union. -/
structure Setting.Matched (setting : Setting) (union member : Node) (context : Context) :
    Prop where
  value : ∃ value, context.value? = some value ∧
    (Matching.selectMember setting.reach union (some value) none).result = .ok member
  unfilled : context.fillsEmpty union = false
  unsliced : context.isSliced union = false

/-! ## Demands at a union -/

theorem Matching.result_selectMember_name {union member : Node} {name : String}
    (h : (union.memberNamed name).result = .ok member) (reach : Nat) (value : Option Json) :
    (selectMember reach union value (some name)).result = .ok member := by
  simp only [selectMember, Traced.catchError, h]

theorem Structure.kind_eq_union_iff (s : Structure) :
    s.kind = .union ↔ ∃ label members, s = .union label members := by
  cases s <;> simp [kind]

namespace Setting

variable {setting : Setting} {union member : Node} (hunion : union.kind = .union)

include hunion

theorem demand_of_union {query : List Json}
    (hpath : ∀ head rest, query = head :: rest → Instruction.kind? head ≠ some "path") :
    setting.demand union query = setting.demandAtUnion union query := by
  obtain ⟨label, members, hshape⟩ := (Structure.kind_eq_union_iff _).mp hunion
  rw [setting.demand_of_not_path union (.inr hpath), demandByStructure, hshape]

theorem demand_asMember {name : String} (hname : (union.memberNamed name).result = .ok member)
    (rest : List Json) :
    setting.demand union (Instruction.asMember name :: rest) = .ok (.through none member rest) := by
  have hkind : Instruction.kind? (Instruction.asMember name) = some "as" := rfl
  have htype : ((Instruction.asMember name).member? "type").bind Json.string? = some name := rfl
  rw [demand_of_union hunion]
  · simp only [demandAtUnion, hkind, htype, if_true]
    rw [Matching.result_selectMember_name hname]
    rfl
  · intro head more heq
    cases heq
    rw [hkind]
    decide

theorem demand_matched {query : List Json} (hquery : Instruction.Unnamed query) :
    setting.demand union query = .ok (.matched query) := by
  rw [demand_of_union hunion fun head rest heq => (hquery head rest heq).1]
  cases query with
  | nil => rfl
  | cons head rest => exact if_neg (hquery head rest rfl).2

theorem compile_asMember {name : String} (hname : (union.memberNamed name).result = .ok member)
    (levels : Nat) (optional : Bool) (rest : List Json) :
    (setting.compile Operator.builtin (levels + 1) optional union
      (Instruction.asMember name :: rest)).result =
        (setting.compile Operator.builtin levels optional member rest).result.map fun inner =>
          Descent.enclose setting.resolvers union none (Descent.through union member inner) := by
  rw [compile_succ, demand_asMember hunion hname]
  rfl

theorem compile_matched {query : List Json} (hquery : Instruction.Unnamed query) (levels : Nat)
    (optional : Bool) :
    (setting.compile Operator.builtin (levels + 1) optional union query).result =
      .ok (Descent.enclose setting.resolvers union none (Descent.onSettled optional union
        (Demand.intoMatched ⟨setting, optional, setting.compile Operator.builtin levels⟩ union
          query))) := by
  rw [compile_succ, demand_matched hunion hquery]
  rfl

end Setting

/-! ## Descents at a union -/

namespace Descent

variable {resolvers : Resolvers} {node : Node} {context : Context} {good : Context → Prop}
  {descent descent' : Descent}

theorem result_enclose_congr
    (hleave : (Middleware.compose (resolvers.atShape node.shape)).GoesOnWhere good
      (context.enter node))
    (h : ∀ inner, good inner → (descent inner).result = (descent' inner).result) :
    ((enclose resolvers node none descent).evaluate context).result =
      ((enclose resolvers node none descent').evaluate context).result := by
  rw [Middleware.result_evaluate_enclose, Middleware.result_evaluate_enclose]
  have hcore (inner : Context) (hinner : good inner) :
      (core descent inner).result = (core descent' inner).result := by
    rw [result_core, result_core, h inner hinner]
  exact congrArg (Except.map Context.value?) (hleave _ _ hcore)

theorem result_enclose_of_error {error : Error}
    (hfail : (Middleware.compose (resolvers.atShape node.shape)).FailsWhere good
      (context.enter node))
    (h : ∀ inner, good inner → (descent inner).result = .error error) :
    ((enclose resolvers node none descent).evaluate context).result = .error error := by
  rw [Middleware.result_evaluate_enclose]
  have hcore (inner : Context) (hinner : good inner) :
      (core descent inner).result = .error error := by
    rw [result_core, h inner hinner]
    rfl
  exact congrArg (Except.map Context.value?) (hfail _ error hcore)

theorem settle_union {union : Node} (hunion : union.kind = .union) (optional : Bool) {value : Json}
    (hvalue : context.value? = some value) : settle optional union context = .ok (some value) := by
  obtain ⟨label, members, hshape⟩ := (Structure.kind_eq_union_iff _).mp hunion
  simp only [settle, hvalue, checkShape, hshape, expected?, Except.map]

end Descent

namespace Setting.Matched

variable {setting : Setting} {union member : Node} {context : Context}
  (h : setting.Matched union member context) (hunion : union.kind = .union)

include h hunion

theorem result_through (inner : Middleware) :
    (Descent.through union member inner context).result = (inner.evaluate context).result := by
  have hmarks : Descent.passMarks union member context = context := by
    simp only [Descent.passMarks, h.unfilled, h.unsliced, Bool.false_eq_true, if_false]
  have hkind : union.kind ≠ .nullable := by
    rw [hunion]
    decide
  rw [Descent.through, if_neg fun hnull => hkind hnull.1, hmarks]

/-- The member that is found by the value is compiled now, and resolved in a context that looks like
the one that the union left. -/
theorem result_intoMatched {levels : Nat} (hlookups : setting.ByLookupsAt levels)
    (optional : Bool) (query : List Json) :
    (Descent.onSettled optional union (Demand.intoMatched
      ⟨setting, optional, setting.compile Operator.builtin levels⟩ union query) context).result =
        (setting.compile Operator.builtin levels optional member query).result.bind
          fun inner => (inner.evaluate context).result := by
  obtain ⟨value, hvalue, hmember⟩ := h.value
  rw [Descent.result_onSettled, Descent.settle_union hunion optional hvalue]
  simp only [Except.ok_bind, Demand.intoMatched, Walk.run, Traced.result_bind,
    Traced.result_mapTrail, hmember]
  cases hinner : (setting.compile Operator.builtin levels optional member query).result with
  | error error => rfl
  | ok inner =>
    have htimed := hlookups hinner _ _ (Context.alike_setValue hvalue)
    exact congrArg (fun timed : Timed _ => timed.result) htimed

end Setting.Matched

theorem Setting.result_asMember {setting : Setting}
    (hlookups : ∀ shape, ∀ middleware ∈ setting.resolvers.atShape shape,
      Middleware.ByLookups setting.execution.parallel middleware)
    {union member : Node} (hunion : union.kind = .union) {name : String}
    (hname : (union.memberNamed name).result = .ok member) {query : List Json}
    (hquery : Instruction.Unnamed query)
    {context : Context} {levels : Nat} {optional : Bool}
    (hleave : (Middleware.compose (setting.resolvers.atShape union.shape)).GoesOnWhere
      (setting.Matched union member) (context.enter union))
    (hfail : (∃ inner, (setting.compile Operator.builtin levels optional member query).result =
        .ok inner) ∨
      (Middleware.compose (setting.resolvers.atShape union.shape)).FailsWhere
        (setting.Matched union member) (context.enter union)) :
    ((setting.compile Operator.builtin (levels + 1) optional union
      (Instruction.asMember name :: query)).result.bind
        fun middleware => (middleware.evaluate context).result) =
      (setting.compile Operator.builtin (levels + 1) optional union query).result.bind
        fun middleware => (middleware.evaluate context).result := by
  have hmatched := fun inner (hinner : setting.Matched union member inner) =>
    hinner.result_intoMatched hunion (setting.byLookups hlookups levels) optional query
  rw [compile_asMember hunion hname, compile_matched hunion hquery, Except.ok_bind]
  cases hinner : (setting.compile Operator.builtin levels optional member query).result with
  | ok inner =>
    apply Descent.result_enclose_congr hleave
    intro left hleft
    rw [hleft.result_through hunion, hmatched left hleft, hinner]
    rfl
  | error error =>
    rcases hfail with ⟨inner, hok⟩ | hfail
    · rw [hinner] at hok
      cases hok
    · symm
      apply Descent.result_enclose_of_error hfail
      intro left hleft
      rw [hmatched left hleft, hinner]
      rfl

/-! ## Engines -/

namespace Engine

variable {graph : Graph} {entry : String} {resolvers : List Resolver}
  {configuration : Configuration} {engine : Engine}

/-- Naming a member of a union and finding it by the value give the same answer, if the resolvers of
the union leave a value that only this member fits, and no mark on the union. The rest of the query
is compiled inside their chain in the second case, so that they must not make up for its failure. -/
theorem answerAt_asMember
    (h : assemble graph entry resolvers [] configuration = .ok engine)
    (hlookups : ∀ resolver ∈ resolvers, ∀ middleware ∈ resolver.middlewares,
      Middleware.ByLookups configuration.execution.parallel middleware)
    {union member : Node} (hunion : union.kind = .union) {name : String}
    (hname : (union.memberNamed name).result = .ok member) {query : List Json}
    (hquery : Instruction.Unnamed query)
    {context : Context} {levels : Nat} {optional : Bool}
    (hleave : (Middleware.compose (engine.setting.resolvers.atShape union.shape)).GoesOnWhere
      (engine.setting.Matched union member) (context.enter union))
    (hfail : (∃ middleware, (engine.setting.compile engine.operators levels optional union
        (Instruction.asMember name :: query)).result = .ok middleware) ∨
      (Middleware.compose (engine.setting.resolvers.atShape union.shape)).FailsWhere
        (engine.setting.Matched union member) (context.enter union)) :
    engine.answerAt levels optional union (Instruction.asMember name :: query) context =
      engine.answerAt levels optional union query context := by
  have hbound : ∀ shape, ∀ middleware ∈ engine.setting.resolvers.atShape shape,
      Middleware.ByLookups engine.setting.execution.parallel middleware := by
    intro shape middleware hm
    rw [resolvers_of_assemble h] at hm
    rw [execution_of_assemble h]
    obtain ⟨resolver, hresolver, hm⟩ := Resolvers.exists_of_mem_atShape hm
    exact hlookups resolver hresolver middleware hm
  unfold answerAt
  rw [operators_of_assemble h] at hfail ⊢
  cases levels with
  | zero => rfl
  | succ levels =>
    apply Setting.result_asMember hbound hunion hname hquery hleave
    rcases hfail with ⟨middleware, hmiddleware⟩ | hfail
    · left
      rw [Setting.compile_asMember hunion hname] at hmiddleware
      obtain ⟨inner, hinner, _⟩ := Except.map_eq_ok_iff.mp hmiddleware
      exact ⟨inner, hinner⟩
    · exact .inr hfail

end Engine

/-! ## A catalogue -/

namespace Catalogue

/-- The tags of a catalogue are a list of names or one text. -/
def entries : Declarations :=
  [("Catalogue", .object ⟨0, "Catalogue"⟩ (some "Catalogue") [] [
      ⟨"tags", .union ⟨1, "Catalogue.tags"⟩ [.ref ⟨2, "Catalogue.tags.0"⟩ "Names" [],
        .primitive ⟨3, "Catalogue.tags.1"⟩ .string], false⟩]),
    ("Names", .typeAlias ⟨4, "Names"⟩ "Names" []
      (.array ⟨5, "Names.body"⟩ (.primitive ⟨6, "Names.items"⟩ .string)))]

def graph : Graph := ⟨0, ⟨entries, by decide, by rfl⟩⟩

def entry : Node :=
  .child graph.root (.entry "Catalogue")
    (.declared ((graph.schema.entry? "Catalogue").getD graph.schema.root) [])

def tags : Node :=
  .child entry (.field "tags") (.nested []
    (.union ⟨1, "Catalogue.tags"⟩ [.ref ⟨2, "Catalogue.tags.0"⟩ "Names" [],
      .primitive ⟨3, "Catalogue.tags.1"⟩ .string]))

def names : Node :=
  .child tags (.member 0) (.nested [] (.ref ⟨2, "Catalogue.tags.0"⟩ "Names" []))

def list : Json := .array [.string "a", .string "b"]

def engine (middleware : Middleware) : Engine :=
  ⟨{ graph, entry := "Catalogue", resolvers := .bind [⟨tags, [middleware]⟩], execution := {},
     reach := defaultReach }, Operator.builtin⟩

def firstPage : List Json :=
  [.object [("kind", .string "paginate"), ("page", .ofNat 1), ("pageSize", .ofNat 1)]]

theorem assemble_eq_engine (middleware : Middleware) :
    Engine.assemble graph "Catalogue" [⟨tags, [middleware]⟩] [] {} = .ok (engine middleware) := rfl

theorem answerAt_list :
    (engine (Middleware.set list)).answerAt 9 false tags
        (Instruction.asMember "Names" :: firstPage) .empty =
      (engine (Middleware.set list)).answerAt 9 false tags firstPage .empty := by
  have hset : (engine (Middleware.set list)).setting.Matched tags names
      ((Context.empty.enter tags).setValue (some list)) :=
    ⟨⟨list, rfl, rfl⟩, rfl, rfl⟩
  have hlookups : ∀ resolver ∈ [(⟨tags, [Middleware.set list]⟩ : Resolver)],
      ∀ middleware ∈ resolver.middlewares, Middleware.ByLookups false middleware := by
    intro resolver hresolver middleware hm
    cases List.mem_singleton.mp hresolver
    cases List.mem_singleton.mp hm
    exact Middleware.byLookups_set false list
  have hquery : Instruction.Unnamed firstPage := by
    intro head rest heq
    cases heq
    exact ⟨by decide, by decide⟩
  apply Engine.answerAt_asMember (assemble_eq_engine _) hlookups rfl
    (rfl : (tags.memberNamed "Names").result = .ok names) hquery
  · exact Middleware.goesOnWhere_of_next hset fun _ => rfl
  · exact .inr (Middleware.failsWhere_of_next hset fun _ => rfl)

/-- A list that is marked as sliced is sliced again if the member is not named. -/
theorem answerAt_sliced :
    (tags.memberNamed "Names").result = .ok names ∧
      (Matching.selectMember defaultReach tags (some list) none).result = .ok names ∧
      (∀ next, Middleware.compose
        ((engine (Middleware.setSliced list)).setting.resolvers.atShape tags.shape)
          (Context.empty.enter tags) next =
        next (((Context.empty.enter tags).push .sliced () (some tags)).setValue (some list))) ∧
      (engine (Middleware.setSliced list)).answerAt 9 false tags
        (Instruction.asMember "Names" :: firstPage) .empty = .ok (some list) ∧
      (engine (Middleware.setSliced list)).answerAt 9 false tags firstPage .empty =
        .ok (some (.array [.string "a"])) :=
  ⟨rfl, rfl, fun _ => rfl, rfl, rfl⟩

end Catalogue

end PathQuery
