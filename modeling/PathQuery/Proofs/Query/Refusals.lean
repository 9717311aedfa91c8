import PathQuery.Proofs.Json.Positions
import PathQuery.Proofs.Query.Language

/-!
# Refusals of queries

What a query is refused for when it is compiled lies in the query, in the limit on its nesting or in a
reference of the schema, and never in a value, as far as no call is made and no member of a union is
named (`Setting.meets_compile_fromQuery`). The instructions that a query leaves for the nodes that come
next are parts of it.
-/

set_option autoImplicit false

namespace PathQuery

/-! ## Parts of queries -/

namespace Json

/-- A value that stands somewhere in another one, or is that one. -/
inductive Part (part : Json) : Json → Prop where
  | whole : Part part part
  | inside {child value : Json} (found : child ∈ value.children) (within : Part part child) :
      Part part value

theorem Part.trans {inner part value : Json} (h : inner.Part part) (hpart : part.Part value) :
    inner.Part value := by
  induction hpart with
  | whole => exact h
  | inside found _ ih => exact .inside found ih

theorem part_of_mem {item : Json} {items : List Json} (h : item ∈ items) : item.Part (.array items) :=
  .inside h .whole

theorem part_of_member? {value part : Json} {name : String} (h : value.member? name = some part) :
    part.Part value := by
  cases value with
  | object members => exact .inside (List.mem_map.mpr ⟨_, Keyed.mem_of_lookup h, rfl⟩) .whole
  | _ => cases h

/-- A list of values that leaves out nothing inside them holds all parts of its values. -/
theorem mem_of_part {part value : Json} {values : List Json}
    (hclosed : ∀ value ∈ values, ∀ child ∈ value.children, child ∈ values) (h : part.Part value)
    (hvalue : value ∈ values) : part ∈ values := by
  induction h with
  | whole => exact hvalue
  | inside found _ ih => exact ih (hclosed _ hvalue _ found)

end Json

namespace Instruction

/-- No object of this kind stands anywhere in the query. -/
def Lacks (kind : String) (query : List Json) : Prop :=
  ∀ part : Json, part.Part (.array query) → kind? part ≠ some kind

variable {kind : String} {query other rest : List Json} {head : Json}

theorem Lacks.of_items (h : Lacks kind query) (hitems : ∀ item ∈ other, item.Part (.array query)) :
    Lacks kind other := by
  intro part hpart
  cases hpart with
  | whole => exact nofun
  | inside hchild hpart => exact h part (hpart.trans (hitems _ hchild))

theorem Lacks.kind_head (h : Lacks kind (head :: rest)) : kind? head ≠ some kind :=
  h head (Json.part_of_mem List.mem_cons_self)

theorem Lacks.tail (h : Lacks kind (head :: rest)) : Lacks kind rest :=
  h.of_items fun _ hitem => Json.part_of_mem (List.mem_cons_of_mem head hitem)

theorem Lacks.of_head (h : Lacks kind (head :: rest)) (hpart : (Json.array other).Part head) :
    Lacks kind other :=
  h.of_items fun _ hitem =>
    (Json.part_of_mem hitem).trans (hpart.trans (Json.part_of_mem List.mem_cons_self))

theorem Lacks.append (h : Lacks kind query) (hrest : Lacks kind rest) : Lacks kind (query ++ rest) := by
  intro part hpart
  cases hpart with
  | whole => exact nofun
  | inside hchild hpart =>
    rcases List.mem_append.mp hchild with hquery | hother
    · exact h part (hpart.trans (Json.part_of_mem hquery))
    · exact hrest part (hpart.trans (Json.part_of_mem hother))

end Instruction

/-- No call is made and no member of a union is named, anywhere in the query. -/
def Instruction.Plain (query : List Json) : Prop :=
  Lacks "call" query ∧ Lacks "as" query

namespace Instruction.Plain

variable {query other rest : List Json} {head : Json}

theorem tail (h : Plain (head :: rest)) : Plain rest :=
  ⟨h.1.tail, h.2.tail⟩

theorem of_head (h : Plain (head :: rest)) (hpart : (Json.array other).Part head) : Plain other :=
  ⟨h.1.of_head hpart, h.2.of_head hpart⟩

theorem append (h : Plain query) (hrest : Plain rest) : Plain (query ++ rest) :=
  ⟨h.1.append hrest.1, h.2.append hrest.2⟩

theorem nil : Plain [] := by
  have lacks (kind : String) : Lacks kind [] := by
    intro part hpart
    cases hpart with
    | whole => exact nofun
    | inside hchild => cases hchild
  exact ⟨lacks "call", lacks "as"⟩

end Instruction.Plain

/-! ## Errors that tell of a query -/

/-- The error lies in a query, in the limit on its nesting or in a reference of the schema. -/
def Error.FromQuery : Error → Prop
  | .invalidQuery .. | .invalidEntry .. | .invalidUnionAccess .. | .noPropertiesOnLeaf ..
  | .unknownProperty .. | .unresolvedReference .. | .recursionLimitExceeded .. => True
  | _ => False

theorem Node.fromQuery_of_child? {node : Node} {step : Step} {error : Error}
    (h : node.child? step = .error error) : error.FromQuery := by
  rw [child?_eq_error_iff] at h
  unfold Site.child at h
  split at h
  case h_10 =>
    rw [bind_pure_comp] at h
    have happlied := Except.map_eq_error_iff.mp h
    unfold Declarations.applied at happlied
    split at happlied
    · cases happlied
      trivial
    · dsimp only at happlied
      split at happlied
      · cases happlied
      · cases happlied
        trivial
  case h_1 | h_2 | h_3 | h_7 =>
    split at h
    · cases h
    · cases h
      trivial
  case h_11 =>
    cases h
    trivial
  all_goals cases h

theorem Node.meets_child_fromQuery (node : Node) (step : Step) :
    (node.child? step).Meets (fun child => node.child? step = .ok child) Error.FromQuery :=
  Except.Meets.iff.mpr ⟨fun _ => id, fun _ => fromQuery_of_child?⟩

/-! ## Demands of plain queries -/

open Instruction (Plain)

/-- What a demand leaves for the nodes that come next is plain, and a node is only passed through if it
wraps another one or is the root. -/
def Demand.PlainAt (node : Node) : Demand → Prop
  | whole => True
  | through _ child rest => (node.Wraps child ∨ node.kind = .root) ∧ Plain rest
  | property _ _ _ rest | items _ _ rest | matched rest | anew rest => Plain rest
  | members _ _ requested => ∀ field ∈ requested, ∀ query, field.2 = .array query → Plain query

namespace Setting

variable {setting : Setting} {node : Node} {query : List Json}

theorem meets_instructions_fromQuery {head : Json} {rest : List Json} (h : Plain (head :: rest))
    (key field : String) :
    (Instruction.instructions? key head field).Meets
      (fun found => ∀ query, found = some query → Plain query) Error.FromQuery := by
  refine Except.Meets.iff.mpr ⟨fun found hfound query hquery => ?_, fun error herror => ?_⟩
  · have hmember := Instruction.member?_of_instructions? hfound
    rw [hquery] at hmember
    exact h.of_head (Json.part_of_member? hmember)
  · unfold Instruction.instructions? at herror
    split at herror
    · cases herror
    · cases herror
    · cases herror
      trivial

theorem meets_requireLast_fromQuery (node : Node) (head : Json) (rest : List Json) :
    (Operator.requireLast node head rest).Meets (fun _ => True) Error.FromQuery := by
  cases rest <;> trivial

theorem meets_absoluteQuery_fromQuery {head : Json} {rest : List Json} (h : Plain (head :: rest)) :
    (absoluteQuery node head rest).Meets Plain Error.FromQuery := by
  unfold absoluteQuery
  refine (meets_requireLast_fromQuery node head rest).bind fun _ _ _ => ?_
  refine (meets_instructions_fromQuery h node.key "path").bind fun path? _ hpath => ?_
  cases path? with
  | none => trivial
  | some path =>
    refine (meets_instructions_fromQuery h node.key "query").bind fun more? _ hmore => ?_
    cases more? with
    | none => exact (hpath path rfl).append .nil
    | some more => exact (hpath path rfl).append (hmore more rfl)

theorem meets_excerptAt_fromQuery (maxSize : Option Nat) (node : Node) (head : Json) :
    (excerptAt maxSize node head).Meets (fun _ => True) Error.FromQuery := by
  have positive (field : String) :
      (Instruction.positive node.key head field).Meets (fun _ => True) Error.FromQuery := by
    unfold Instruction.positive
    split <;> trivial
  unfold excerptAt
  split
  · split <;> trivial
  · split
    · trivial
    · trivial
    · unfold Excerpt.readPage
      refine (positive "page").bind fun _ _ _ => (positive "pageSize").bind fun size _ _ => ?_
      cases maxSize with
      | none => trivial
      | some max =>
        dsimp only
        split <;> trivial
    · trivial

theorem meets_throughStep_fromQuery (h : Plain query) (step : Step)
    (hstep : node.shape.wrapping? = some step ∨ node.kind = .root) :
    ((node.child? step).map fun child => Demand.through none child query).Meets
      (Demand.PlainAt node) Error.FromQuery :=
  (node.meets_child_fromQuery step).map fun _ _ hchild =>
    ⟨hstep.imp_left fun hwraps => ⟨step, hwraps, hchild⟩, h⟩

theorem meets_demandAtObject_fromQuery (h : Plain query) (properties : List (Property Structure)) :
    (demandAtObject node properties query).Meets (Demand.PlainAt node) Error.FromQuery := by
  cases query with
  | nil => trivial
  | cons head rest =>
    simp only [demandAtObject]
    split
    · refine (meets_requireLast_fromQuery node head rest).bind fun _ _ _ => ?_
      split
      · next requested hrequested =>
        rintro ⟨name, value⟩ hfield query rfl
        refine h.of_head (Json.Part.trans ?_ (Json.part_of_member? hrequested))
        exact .inside (List.mem_map.mpr ⟨_, hfield, rfl⟩) .whole
      · trivial
    · split
      · exact (node.meets_child_fromQuery _).map fun _ _ _ => h.tail
      · trivial

theorem meets_demandAtList_fromQuery (h : Plain query) :
    (setting.demandAtList node query).Meets (Demand.PlainAt node) Error.FromQuery := by
  cases query with
  | nil => exact (node.meets_child_fromQuery .items).map fun _ _ _ => h
  | cons head rest =>
    refine (meets_excerptAt_fromQuery _ node head).bind fun excerpt _ _ => ?_
    exact (node.meets_child_fromQuery .items).bind fun _ _ _ => h.tail

theorem meets_demandByStructure_fromQuery (h : Plain query) :
    (setting.demandByStructure node query).Meets (Demand.PlainAt node) Error.FromQuery := by
  unfold demandByStructure
  split
  · next hs =>
    cases query with
    | nil => trivial
    | cons head rest =>
      simp only [demandAtRoot]
      split
      · exact meets_throughStep_fromQuery h.tail _ (.inr (congrArg Structure.kind hs))
      · trivial
  · next hs => exact meets_throughStep_fromQuery h _ (.inl (by rw [hs]; rfl))
  · next hs => exact meets_throughStep_fromQuery h _ (.inl (by rw [hs]; rfl))
  · next hs => exact meets_throughStep_fromQuery h _ (.inl (by rw [hs]; rfl))
  · exact meets_demandAtObject_fromQuery h _
  · exact meets_demandAtList_fromQuery h
  · cases query with
    | nil => trivial
    | cons head rest =>
      rw [demandAtFunction, if_neg h.1.kind_head]
      trivial
  · cases query with
    | nil => exact h
    | cons head rest =>
      rw [demandAtUnion, if_neg h.2.kind_head]
      exact h
  · cases query <;> trivial
  · cases query <;> trivial
  · trivial

theorem meets_demand_fromQuery (h : Plain query) :
    (setting.demand node query).Meets (Demand.PlainAt node) Error.FromQuery := by
  unfold demand
  split
  · split
    · exact (meets_absoluteQuery_fromQuery h).map fun _ _ hplain => hplain
    · exact meets_demandByStructure_fromQuery h
  · exact meets_demandByStructure_fromQuery h

/-! ## Compilation of plain queries -/

theorem meets_compileFields_fromQuery {levels : Nat}
    (ih : ∀ optional node query, Plain query →
      (setting.compile Operator.builtin levels optional node query).result.Meets (fun _ => True)
        Error.FromQuery)
    (optional : Bool) (head : Json) (properties : List (Property Structure))
    {requested : List (String × Json)}
    (h : ∀ field ∈ requested, ∀ query, field.2 = .array query → Plain query) :
    (Operator.compileFields ⟨setting, optional, setting.compile Operator.builtin levels⟩ node head
      properties requested).result.Meets (fun _ => True) Error.FromQuery := by
  induction requested with
  | nil => trivial
  | cons field rest ihrest =>
    obtain ⟨hfield, hrest⟩ := List.forall_mem_cons.mp h
    have hrequested : (node.requested head properties field).Meets (fun part => Plain part.2.2)
        Error.FromQuery := by
      obtain ⟨name, request⟩ := field
      cases request with
      | array query => exact (node.meets_child_fromQuery _).map fun _ _ _ => hfield query rfl
      | _ => trivial
    rw [Operator.result_compileFields_cons]
    refine hrequested.bind fun (flag, child, query) _ hplain => ?_
    exact (ih flag child query hplain).bind fun _ _ _ => (ihrest hrest).map fun _ _ _ => trivial

/-- A plain query is refused for what lies in the query, and never for a value. -/
theorem meets_compile_fromQuery (levels : Nat) (optional : Bool) (node : Node) {query : List Json}
    (h : Plain query) :
    (setting.compile Operator.builtin levels optional node query).result.Meets (fun _ => True)
      Error.FromQuery := by
  induction levels generalizing optional node query with
  | zero => trivial
  | succ levels ih =>
    rw [compile_succ]
    refine (meets_demand_fromQuery h).bind fun demand _ hplain => ?_
    cases demand with
    | whole | matched => trivial
    | through _ child rest => exact (ih optional child hplain.2).map fun _ _ _ => trivial
    | property _ flag child rest => exact (ih flag child hplain).map fun _ _ _ => trivial
    | items _ item rest => exact (ih false item hplain).map fun _ _ _ => trivial
    | anew query => exact (ih false setting.graph.root hplain).map fun _ _ _ => trivial
    | members head properties requested =>
      refine (meets_compileFields_fromQuery (fun optional node _ => ih optional node) optional head
        properties hplain).map fun _ _ _ => trivial

end Setting

end PathQuery
