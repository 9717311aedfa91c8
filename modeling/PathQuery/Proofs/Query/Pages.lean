import PathQuery.Proofs.Query.Language
import PathQuery.Proofs.Query.Product
import Mathlib.Algebra.Group.Nat.Defs
import Mathlib.Data.List.Forall2

/-!
# Pages of a list

What the list operations of a query give is cut out of what `all` gives, if the resolvers of the list
leave it to the query which items are resolved: pages, counted from one, are consecutive and of one
size, and an index or `first` is one item or null (`Engine.operations_of_all`). Pages that fail
together make `all` fail: items are resolved on their own, at their position in the whole list.
-/

set_option autoImplicit false

/-! ## Sequences that are cut -/

namespace List

variable {α : Type}

/-- Consecutive cuts of one size make up the beginning of a list. -/
theorem flatMap_cuts (items : List α) (size count : Nat) :
    ((range count).flatMap fun k => (items.drop (k * size)).take size) =
      items.take (count * size) := by
  induction count with
  | zero => simp
  | succ count ih =>
    rw [range_succ, flatMap_append, ih, Nat.succ_mul, take_add]
    simp

end List

namespace PathQuery

/-! ## Excerpts -/

namespace Excerpt

/-- The value of an excerpt of a list that is not sliced yet, by what its items are resolved to. -/
def resolve (excerpt : Excerpt) (resolveItem : Json × Nat → Except Error (Option Json))
    (list : List Json) : Except Error (Option Json) :=
  match excerpt.single? with
  | some index =>
    match list[index]? with
    | some item => resolveItem (item, index)
    | none => .ok (some .null)
  | none => ((excerpt.items false list).mapM resolveItem).map fun values =>
      some (.array (values.map fun value => value.getD .null))

theorem result_run_eq_ok_iff (excerpt : Excerpt) (parallel : Bool) {node : Node} (inner : Middleware)
    {context : Context} (hsliced : context.isSliced node = false) {list : List Json}
    {answer : Option Json} :
    (excerpt.run parallel node inner context (.array list)).result = .ok answer ↔
      excerpt.resolve (fun item => (runItem inner (context.push .parent (.array list)) item).result)
        list = .ok answer := by
  unfold run resolve
  cases excerpt.single? with
  | some index =>
    dsimp only
    cases list[index]? <;> rfl
  | none =>
    dsimp only
    rw [bind_pure_comp, Traced.result_map, hsliced, Except.map_eq_ok_iff, Except.map_eq_ok_iff]
    simp only [Run.result_all_eq_ok_iff, List.mapM_map, Function.comp_def]

section

variable {resolveItem : Json × Nat → Except Error (Option Json)} {list : List Json}

variable {values : List (Option Json)} (h : list.zipIdx.mapM resolveItem = .ok values)

include h

theorem resolve_all :
    all.resolve resolveItem list =
      .ok (some (.array (values.map fun value => value.getD .null))) := by
  change (list.zipIdx.mapM resolveItem).map _ = _
  rw [h]
  rfl

theorem resolve_page (number size : Nat) :
    (page number size).resolve resolveItem list =
      .ok (some (.array (((values.map fun value => value.getD .null).drop
        ((number - 1) * size)).take size))) := by
  have hcut : ((list.zipIdx.drop ((number - 1) * size)).take size).mapM resolveItem =
      .ok ((values.drop ((number - 1) * size)).take size) :=
    Except.mapM_eq_ok_iff.mpr (List.forall₂_take _ (List.forall₂_drop _
      (Except.mapM_eq_ok_iff.mp h)))
  change (((page number size).items false list).mapM resolveItem).map _ = _
  rw [items_page, hcut, ← List.map_drop, ← List.map_take]
  rfl

theorem resolve_nth (index : Nat) :
    ((nth index).resolve resolveItem list).map (fun value => value.getD .null) =
      .ok ((values.map fun value => value.getD .null)[index]?.getD .null) := by
  obtain ⟨hlength, hresolved⟩ := List.forall₂_iff_get.mp (Except.mapM_eq_ok_iff.mp h)
  rw [List.length_zipIdx] at hlength
  change (match list[index]? with
    | some item => resolveItem (item, index)
    | none => .ok (some .null)).map _ = _
  rw [List.getElem?_map]
  by_cases hindex : index < list.length
  · have hitem := hresolved index (by rwa [List.length_zipIdx]) (hlength ▸ hindex)
    simp only [List.get_eq_getElem, List.getElem_zipIdx, Nat.zero_add] at hitem
    rw [List.getElem?_eq_getElem hindex, List.getElem?_eq_getElem (hlength ▸ hindex)]
    dsimp only
    rw [hitem]
    rfl
  · rw [List.getElem?_eq_none (Nat.not_lt.mp hindex),
      List.getElem?_eq_none (hlength ▸ Nat.not_lt.mp hindex)]
    rfl

end

/-- If all pages of one size are resolved, so is the whole list. -/
theorem exists_resolve_all {resolveItem : Json × Nat → Except Error (Option Json)}
    {list : List Json} {size : Nat} (hsize : 1 ≤ size)
    (h : ∀ number, 1 ≤ number → ∃ value, (page number size).resolve resolveItem list = .ok value) :
    ∃ values, list.zipIdx.mapM resolveItem = .ok values := by
  rw [Except.exists_mapM_eq_ok_iff]
  intro item hitem
  have hall : list.zipIdx.take (list.length * size) = list.zipIdx := by
    apply List.take_of_length_le
    rw [List.length_zipIdx]
    exact Nat.le_mul_of_pos_right _ hsize
  rw [← hall, ← List.flatMap_cuts, List.mem_flatMap] at hitem
  obtain ⟨k, _, hitem⟩ := hitem
  obtain ⟨value, hvalue⟩ := h (k + 1) (Nat.le_add_left 1 k)
  obtain ⟨values, hvalues, _⟩ := Except.map_eq_ok_iff.mp hvalue
  rw [items_page, Nat.add_sub_cancel] at hvalues
  exact Except.exists_mapM_eq_ok_iff.mp ⟨values, hvalues⟩ item hitem

end Excerpt

/-! ## Resolvers that leave the pages to the query -/

/-- Runs the rest once, without regard to the input of a list and to whether there is any, and does
not mark the list as sliced. How often it waits does not matter. -/
structure Middleware.LeavesPages (node : Node) (middleware : Middleware) : Prop where
  once : middleware.Once false
  overlooks : middleware.Overlooks false fun other => (node == other) = true
  unsliced : ∀ context inner, context.isSliced node = false →
    (middleware.complete context).result = .ok inner → inner.isSliced node = false

namespace Middleware

variable {node : Node}

theorem leavesPages_set (node : Node) (value : Json) : (set value).LeavesPages node where
  once := once_set false value
  overlooks := overlooks_set false _ value
  unsliced context inner hcontext h := by
    cases h
    rwa [Context.isSliced, Context.setValue,
      Context.get?_push_of_ne _ (by decide : Key.value ≠ .sliced)]

theorem leavesPages_compose {middlewares : List Middleware}
    (h : ∀ middleware ∈ middlewares, LeavesPages node middleware) :
    (compose middlewares).LeavesPages node where
  once := once_compose fun middleware hm => (h middleware hm).once
  overlooks := overlooks_compose fun middleware hm => (h middleware hm).overlooks
  unsliced := by
    induction middlewares with
    | nil =>
      rintro context _ hcontext ⟨⟩
      exact hcontext
    | cons first rest ih =>
      intro context inner hcontext hinner
      obtain ⟨hfirst, hrest⟩ := List.forall_mem_cons.mp h
      obtain ⟨before, hbefore⟩ := once_false_iff.mp hfirst.once
      rw [complete, compose_cons, andThen, hbefore] at hinner
      obtain ⟨between, hbetween, hinner⟩ := Except.bind_eq_ok_iff.mp hinner
      have hcomplete : (first.complete context).result = .ok between := by
        rw [complete, hbefore, hbetween]
        rfl
      exact ih hrest between inner (hfirst.unsliced context between hcontext hcomplete) hinner

end Middleware

/-! ## What an excerpt gives -/

namespace Descent

variable {resolvers : Resolvers} {node : Node} {context : Context}

theorem isSliced_attach_enter (context : Context) (node : Node) (input : Option Json) :
    (attach node input (context.enter node)).isSliced node = context.isSliced node := by
  rw [Context.isSliced, get?_attach_of_ne _ _ _ (by decide : Key.sliced ≠ .input), Context.enter,
    Context.get?_push_of_ne _ (by decide : Key.node ≠ .sliced)]
  rfl

/-- Whatever input a query attaches to a list, its resolvers leave contexts that are alike but for
this input. -/
theorem exists_left
    (h : ∀ middleware ∈ resolvers.atShape node.shape, Middleware.LeavesPages node middleware)
    (hsliced : context.isSliced node = false) :
    ∃ left : Option Json → Except Error Context,
      (∀ input descent, ((enclose resolvers node input descent).evaluate context).result =
        (left input).bind fun inner => (descent inner).result) ∧
      (∀ input, Except.Agree (Context.AlikeBut fun other => (node == other) = true) (left none)
        (left input)) ∧
      ∀ input inner, left input = .ok inner → inner.isSliced node = false := by
  have hchain := Middleware.leavesPages_compose h
  obtain ⟨before, hbefore⟩ := Middleware.once_false_iff.mp hchain.once
  have hcomplete (start : Context) :
      ((Middleware.compose (resolvers.atShape node.shape)).complete start).result = before start := by
    rw [Middleware.complete, hbefore]
    cases before start <;> rfl
  refine ⟨fun input => before (attach node input (context.enter node)), fun input descent => ?_,
    fun input => ?_, fun input inner hinner => ?_⟩
  · rw [Middleware.result_evaluate_enclose, hbefore, Except.map_bind]
    simp only [value?_core]
  · change Except.Agree _ (before (context.enter node)) (before (attach node input _))
    rw [← hcomplete, ← hcomplete]
    exact (hchain.overlooks _ _ pure pure
      (Context.alikeBut_attach (context.enter node) node input) fun _ _ hinner => .pure hinner).result
  · apply hchain.unsliced (attach node input (context.enter node)) inner
    · rwa [isSliced_attach_enter]
    · rwa [hcomplete]

theorem exists_array_of_checkShape {value : Json} (hkind : node.kind = .array)
    (h : checkShape node value = .ok ()) : ∃ list, value = .array list := by
  have harray := isArray_of_checkShape hkind h
  cases value with
  | array list => exact ⟨list, rfl⟩
  | _ => cases harray

/-- All excerpts of a list fail alike or are undefined alike, or they succeed as excerpts of one list
whose items are resolved in one way. -/
theorem excerpts_of_list {parallel : Bool}
    (h : ∀ middleware ∈ resolvers.atShape node.shape, Middleware.LeavesPages node middleware)
    (hsliced : context.isSliced node = false) (hkind : node.kind = .array) (optional : Bool)
    {inner : Middleware} (hinner : Overlooks parallel (fun other => (node == other) = true)
      fun context => inner.evaluate context) :
    (∃ error, ∀ excerpt : Excerpt, ((enclose resolvers node excerpt.input?
        (onSettled optional node (excerpt.run parallel node inner))).evaluate context).result =
          .error error) ∨
      (∀ excerpt : Excerpt, ((enclose resolvers node excerpt.input?
        (onSettled optional node (excerpt.run parallel node inner))).evaluate context).result =
          .ok none) ∨
      ∃ list resolveItem, ∀ (excerpt : Excerpt) answer, ((enclose resolvers node excerpt.input?
        (onSettled optional node (excerpt.run parallel node inner))).evaluate context).result =
          .ok answer ↔ excerpt.resolve resolveItem list = .ok answer := by
  obtain ⟨left, hleft, hagree, hunsliced⟩ := exists_left h hsliced
  cases hnone : left none with
  | error error =>
    refine .inl ⟨error, fun excerpt => ?_⟩
    have hinput := hagree excerpt.input?
    rw [hnone] at hinput
    rw [hleft]
    generalize left excerpt.input? = result at hinput ⊢
    cases hinput
    rfl
  | ok settled =>
    have hexcerpt (excerpt : Excerpt) : ((enclose resolvers node excerpt.input?
        (onSettled optional node (excerpt.run parallel node inner))).evaluate context).result =
          (onSettled optional node (excerpt.run parallel node inner) settled).result := by
      have hinput := hagree excerpt.input?
      rw [hnone] at hinput
      rw [hleft]
      generalize left excerpt.input? = result at hinput ⊢
      cases hinput with
      | ok halike =>
        have hrun := overlooks_onSettled optional node
          fun value => Setting.overlooks_excerpt hinner excerpt node value
        exact congrArg (fun timed : Timed _ => timed.result) (hrun _ _ halike)
    simp only [hexcerpt, result_onSettled]
    cases hsettle : settle optional node settled with
    | error error => exact .inl ⟨error, fun _ => rfl⟩
    | ok settled? =>
      rcases settle_cases hsettle with ⟨_, rfl⟩ | ⟨value, rfl, hcheck⟩
      · exact .inr (.inl fun _ => rfl)
      · obtain ⟨list, rfl⟩ := exists_array_of_checkShape hkind hcheck
        exact .inr (.inr ⟨list, _, fun excerpt _ =>
          excerpt.result_run_eq_ok_iff parallel inner (hunsliced none settled hnone)⟩)

end Descent

/-! ## List operations -/

namespace Instruction

/-- The instruction asks for a page of a size. -/
def IsPage (head : Json) (number size : Nat) : Prop :=
  kind? head = some "paginate" ∧ (head.member? "page").bind Json.unsigned? = some number ∧
    (head.member? "pageSize").bind Json.unsigned? = some size

end Instruction

open Instruction (IsPage)

namespace Setting

variable {setting : Setting} {node : Node} {head : Json} {maxSize : Option Nat}

/-- Pages may have this many items. -/
def AllowsSize (setting : Setting) (size : Nat) : Prop :=
  1 ≤ size ∧ ∀ max, setting.execution.maxPageSize = some max → size ≤ max

theorem excerptAt_all (h : Instruction.kind? head = some "all") :
    excerptAt maxSize node head = .ok .all := by
  cases head with
  | object members => simp only [excerptAt, h]
  | _ => cases h

theorem excerptAt_first (h : Instruction.kind? head = some "first") :
    excerptAt maxSize node head = .ok .first := by
  cases head with
  | object members => simp only [excerptAt, h]
  | _ => cases h

theorem excerptAt_paginate (h : Instruction.kind? head = some "paginate") :
    excerptAt maxSize node head = Excerpt.readPage maxSize node head := by
  cases head with
  | object members => simp only [excerptAt, h]
  | _ => cases h

theorem excerptAt_nth {index : Nat} (h : head.unsigned? = some index) :
    excerptAt maxSize node head = .ok (.nth index) := by
  cases head with
  | number value =>
    have hvalue : value.unsigned? = some index := h
    rw [excerptAt, hvalue]
  | _ => cases h

theorem excerptAt_page {number size : Nat} (h : IsPage head number size) (hnumber : 1 ≤ number)
    (hsize : setting.AllowsSize size) :
    excerptAt setting.execution.maxPageSize node head = .ok (.page number size) := by
  obtain ⟨hkind, hpage, hpageSize⟩ := h
  have hread : Instruction.positive node.key head "page" = .ok number :=
    Instruction.positive_eq_ok_iff.mpr ⟨hpage, hnumber⟩
  have hread' : Instruction.positive node.key head "pageSize" = .ok size :=
    Instruction.positive_eq_ok_iff.mpr ⟨hpageSize, hsize.1⟩
  rw [excerptAt_paginate hkind, Excerpt.readPage, hread, hread']
  cases hmax : setting.execution.maxPageSize with
  | none => rfl
  | some max =>
    have hbound : ¬ max < size := Nat.not_lt.mpr (hsize.2 max hmax)
    simp only [bind, Except.bind, if_neg hbound]
    rfl

theorem kind?_of_excerptAt {excerpt : Excerpt} (h : excerptAt maxSize node head = .ok excerpt) :
    Instruction.kind? head ≠ some "path" := by
  intro hkind
  cases head with
  | object members =>
    simp only [excerptAt, hkind] at h
    cases h
  | _ => cases hkind

/-- The middleware of the items of a list. -/
def compileItem (setting : Setting) (levels : Nat) (node : Node) (rest : List Json) :
    Except Error Middleware :=
  (node.child? .items).bind fun item =>
    (setting.compile Operator.builtin levels false item rest).result

theorem demand_of_list (hkind : node.kind = .array) {query : List Json}
    (hpath : ∀ head rest, query = head :: rest → Instruction.kind? head ≠ some "path") :
    setting.demand node query = setting.demandAtList node query := by
  have hshape : node.shape.kind = .array := hkind
  rw [setting.demand_of_not_path node (.inr hpath), demandByStructure]
  cases hs : node.shape with
  | array => rfl
  | _ =>
    rw [hs] at hshape
    cases hshape

theorem compile_excerpt (hkind : node.kind = .array) {excerpt : Excerpt}
    (hhead : excerptAt setting.execution.maxPageSize node head = .ok excerpt) (levels : Nat)
    (optional : Bool) (rest : List Json) :
    (setting.compile Operator.builtin (levels + 1) optional node (head :: rest)).result =
      (setting.compileItem levels node rest).map fun inner =>
        Descent.enclose setting.resolvers node excerpt.input?
          (Descent.onSettled optional node
            (excerpt.run setting.execution.parallel node inner)) := by
  have hdemand : setting.demand node (head :: rest) = setting.demandAtList node (head :: rest) := by
    apply demand_of_list hkind
    rintro _ _ ⟨⟩
    exact kind?_of_excerptAt hhead
  rw [compile_succ, hdemand, demandAtList, hhead, compileItem]
  cases node.child? .items <;> rfl

theorem compile_wholeList (hkind : node.kind = .array) {whole : Json}
    (hwhole : Instruction.kind? whole = some "all") (levels : Nat) (optional : Bool) :
    (setting.compile Operator.builtin levels optional node []).result =
      (setting.compile Operator.builtin levels optional node [whole]).result := by
  cases levels with
  | zero => rfl
  | succ levels =>
    have hdemand : setting.demand node [] = setting.demandAtList node [] :=
      demand_of_list hkind nofun
    rw [compile_excerpt hkind (excerptAt_all hwhole), compile_succ, hdemand, demandAtList,
      compileItem]
    cases node.child? .items <;> rfl

end Setting

namespace Engine

open Setting

variable {engine : Engine} {node : Node} {head : Json} {levels : Nat} {optional : Bool}
  {context : Context} {rest : List Json}

/-- All list operations fail alike or are undefined alike, or they succeed as excerpts of one list
whose items are resolved in one way. -/
theorem answers_of_list (hbuiltin : engine.operators = Operator.builtin) (hkind : node.kind = .array)
    (hown : ∀ middleware ∈ engine.setting.resolvers.atShape node.shape,
      Middleware.LeavesPages node middleware)
    (hitems : ∀ item, node.child? .items = .ok item →
      engine.setting.Overlooked (fun other => (node == other) = true) ⟨item, rest⟩)
    (hsliced : context.isSliced node = false) (levels : Nat) (optional : Bool) :
    (∃ error, ∀ head excerpt,
        excerptAt engine.setting.execution.maxPageSize node head = .ok excerpt →
        engine.answerAt levels optional node (head :: rest) context = .error error) ∨
      (∀ head excerpt, excerptAt engine.setting.execution.maxPageSize node head = .ok excerpt →
        engine.answerAt levels optional node (head :: rest) context = .ok none) ∨
      ∃ list resolveItem, ∀ head excerpt,
        excerptAt engine.setting.execution.maxPageSize node head = .ok excerpt → ∀ answer,
        engine.answerAt levels optional node (head :: rest) context = .ok answer ↔
          excerpt.resolve resolveItem list = .ok answer := by
  unfold answerAt
  rw [hbuiltin]
  cases levels with
  | zero => exact .inl ⟨_, fun _ _ _ => rfl⟩
  | succ levels =>
    cases hcompile : engine.setting.compileItem levels node rest with
    | error error =>
      refine .inl ⟨error, fun head excerpt hhead => ?_⟩
      rw [compile_excerpt hkind hhead, hcompile]
      rfl
    | ok inner =>
      have hanswer {head : Json} {excerpt : Excerpt}
          (hhead : excerptAt engine.setting.execution.maxPageSize node head = .ok excerpt) :
          ((engine.setting.compile Operator.builtin (levels + 1) optional node
            (head :: rest)).result.bind fun middleware => (middleware.evaluate context).result) =
              ((Descent.enclose engine.setting.resolvers node excerpt.input? (Descent.onSettled
                optional node (excerpt.run engine.setting.execution.parallel node
                  inner))).evaluate context).result := by
        rw [compile_excerpt hkind hhead, hcompile]
        rfl
      obtain ⟨item, hitem, hinner⟩ := Except.bind_eq_ok_iff.mp hcompile
      have hoverlooks := engine.setting.overlooks _ levels (hitems item hitem) hinner
      rcases Descent.excerpts_of_list hown hsliced hkind optional hoverlooks with
        ⟨error, herror⟩ | hnone | ⟨list, resolveItem, hresolve⟩
      · exact .inl ⟨error, fun head excerpt hhead => (hanswer hhead).trans (herror excerpt)⟩
      · exact .inr (.inl fun head excerpt hhead => (hanswer hhead).trans (hnone excerpt))
      · exact .inr (.inr ⟨list, resolveItem,
          fun head excerpt hhead answer => (hanswer hhead).symm ▸ hresolve excerpt answer⟩)

end Engine

/-! ## A library -/

namespace Library

def threeTags : Json := .array [.string "a", .string "b", .string "c"]

def tagResolvers : List Resolver :=
  [⟨entry, [Middleware.set (.object [])]⟩, ⟨tags, [Middleware.set threeTags]⟩]

def tagEngine : Engine :=
  ⟨{ graph, entry := "Library", resolvers := .bind tagResolvers, execution := {},
     reach := defaultReach }, Operator.builtin⟩

theorem assemble_eq_tagEngine : Engine.assemble graph "Library" tagResolvers [] {} = .ok tagEngine :=
  rfl

theorem exists_set_of_mem {shape : Structure} {middleware : Middleware}
    (h : middleware ∈ tagEngine.setting.resolvers.atShape shape) :
    ∃ value, middleware = Middleware.set value := by
  obtain ⟨resolver, hresolver, hm⟩ := Resolvers.exists_of_mem_atShape h
  rcases List.mem_cons.mp hresolver with rfl | hresolver
  · exact ⟨_, List.mem_singleton.mp hm⟩
  · cases List.mem_singleton.mp hresolver
    exact ⟨_, List.mem_singleton.mp hm⟩

def allTags : Json := .object [("kind", .string "all")]

def tagPage (number size : Nat) : Json :=
  .object [("kind", .string "paginate"), ("page", .ofNat number), ("pageSize", .ofNat size)]

end Library

end PathQuery
