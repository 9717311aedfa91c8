import PathQuery.Middleware.Stock
import PathQuery.Proofs.Query.Enclosure
import PathQuery.Proofs.Query.Places
import PathQuery.Proofs.Siblings

/-!
# Contexts that look alike

Contexts look alike if every lookup finds the same in both, however many layers they have; or every
lookup but that of the input of some nodes. As long as the middlewares at the places that a query may
come to go by what they look up, and overlook that input, so does everything that is compiled for it
(`Setting.overlooks`): it leaves the same value in contexts that look alike. Among siblings that go on
together it also counts how often they wait; among others it does not (`Run.timed_false`).
-/

set_option autoImplicit false

namespace PathQuery

namespace Context

/-- Alike but for the input of hidden nodes. -/
def AlikeBut (hidden : Node → Prop) (context context' : Context) : Prop :=
  ∀ key scope, (key = .input → ∀ node, scope = some node → ¬ hidden node) →
    context'.get? key scope = context.get? key scope

def Alike (context context' : Context) : Prop :=
  ∀ key scope, context'.get? key scope = context.get? key scope

theorem alikeBut_nothing : AlikeBut (fun _ => False) = Alike := by
  funext context context'
  refine propext ⟨fun h key scope => ?_, fun h key scope _ => h key scope⟩
  exact h key scope fun _ _ _ => id

namespace AlikeBut

variable {hidden : Node → Prop} {context context' : Context} (h : context.AlikeBut hidden context')

include h

theorem push (key : Key) (value : key.Value) (scope : Option Node) :
    (context.push key value scope).AlikeBut hidden (context'.push key value scope) := by
  intro other scope' hseen
  rw [get?_push, get?_push, h other scope' hseen]

theorem setValue (value : Option Json) :
    (context.setValue value).AlikeBut hidden (context'.setValue value) :=
  h.push .value value none

theorem get?_eq {key : Key} (hkey : key ≠ .input) (scope : Option Node) :
    context'.get? key scope = context.get? key scope :=
  h key scope fun heq => absurd heq hkey

theorem value?_eq : context'.value? = context.value? := by
  rw [value?, value?, h.get?_eq (by decide)]

theorem fillsEmpty_eq (node : Node) : context'.fillsEmpty node = context.fillsEmpty node := by
  rw [fillsEmpty, fillsEmpty, h.get?_eq (by decide)]

theorem isSliced_eq (node : Node) : context'.isSliced node = context.isSliced node := by
  rw [isSliced, isSliced, h.get?_eq (by decide)]

theorem settle_eq (optional : Bool) (node : Node) :
    Descent.settle optional node context' = Descent.settle optional node context := by
  unfold Descent.settle
  rw [h.value?_eq, h.fillsEmpty_eq]

theorem attach (node : Node) (input : Option Json) :
    (Descent.attach node input context).AlikeBut hidden (Descent.attach node input context') := by
  cases input with
  | none => exact h
  | some input => exact h.push .input input (some node)

theorem passMarks (outer inner : Node) :
    (Descent.passMarks outer inner context).AlikeBut hidden
      (Descent.passMarks outer inner context') := by
  have hfilled : Context.AlikeBut hidden
      (if context.fillsEmpty outer then context.push .fillEmpty () (some inner) else context)
      (if context'.fillsEmpty outer then context'.push .fillEmpty () (some inner) else context') := by
    rw [h.fillsEmpty_eq outer]
    split
    · exact h.push .fillEmpty () _
    · exact h
  unfold Descent.passMarks
  dsimp only
  generalize (if context.fillsEmpty outer then context.push .fillEmpty () (some inner)
    else context) = filled at hfilled ⊢
  generalize (if context'.fillsEmpty outer then context'.push .fillEmpty () (some inner)
    else context') = filled' at hfilled ⊢
  rw [hfilled.isSliced_eq outer]
  split
  · exact hfilled.push .sliced () _
  · exact hfilled

end AlikeBut

/-- The input that is attached to a node is hidden with that node. -/
theorem alikeBut_attach (context : Context) (node : Node) (input : Option Json) :
    context.AlikeBut (fun other => (node == other) = true) (Descent.attach node input context) := by
  cases input with
  | none => exact fun _ _ _ => rfl
  | some input =>
    intro key scope hseen
    rw [Descent.attach, get?_push]
    by_cases hkey : Key.input = key
    · subst hkey
      have hscope : ((some node : Option Node) == scope) = false := by
        cases scope with
        | none => rfl
        | some other => exact (Bool.not_eq_true _).mp (hseen rfl other rfl)
      simp [Layer.value?, hscope]
    · simp [Layer.value?, hkey]

/-- Setting the current value again is not seen. -/
theorem alike_setValue {context : Context} {value : Json} (h : context.value? = some value) :
    context.Alike (context.setValue (some value)) := by
  have hvalue : context.get? .value = some (some value) := Option.join_eq_some_iff.mp h
  intro key scope
  unfold setValue
  rw [get?_push]
  by_cases hkey : Key.value = key
  · subst hkey
    cases scope with
    | none =>
      rw [hvalue]
      rfl
    | some node => rfl
  · simp [Layer.value?, hkey]

end Context

/-! ## What goes by lookups -/

/-- Contexts that look alike get continuations with outcomes that look alike to outcomes that look
alike. -/
def Middleware.ByLookups (parallel : Bool) (middleware : Middleware) : Prop :=
  ∀ context context' next next', context.Alike context' →
    (∀ inner inner', inner.Alike inner' →
      Run.Matches parallel Context.Alike (next inner) (next' inner')) →
    Run.Matches parallel Context.Alike (middleware context next) (middleware context' next')

/-- Goes by lookups other than that of the input of hidden nodes. -/
def Middleware.Overlooks (parallel : Bool) (hidden : Node → Prop) (middleware : Middleware) : Prop :=
  ∀ context context' next next', context.AlikeBut hidden context' →
    (∀ inner inner', inner.AlikeBut hidden inner' →
      Run.Matches parallel (Context.AlikeBut hidden) (next inner) (next' inner')) →
    Run.Matches parallel (Context.AlikeBut hidden) (middleware context next)
      (middleware context' next')

def Descent.ByLookups (parallel : Bool) (descent : Descent) : Prop :=
  ∀ context context', context.Alike context' →
    (descent context').timed parallel = (descent context).timed parallel

def Descent.Overlooks (parallel : Bool) (hidden : Node → Prop) (descent : Descent) : Prop :=
  ∀ context context', context.AlikeBut hidden context' →
    (descent context').timed parallel = (descent context).timed parallel

theorem Middleware.ByLookups.overlooks {parallel : Bool} {middleware : Middleware}
    (h : middleware.ByLookups parallel) : middleware.Overlooks parallel fun _ => False := by
  unfold Overlooks
  rwa [Context.alikeBut_nothing]

theorem Descent.Overlooks.byLookups {parallel : Bool} {descent : Descent}
    (h : descent.Overlooks parallel fun _ => False) : descent.ByLookups parallel := by
  unfold Overlooks at h
  rwa [Context.alikeBut_nothing] at h

section

variable {parallel : Bool} {hidden : Node → Prop}

namespace Middleware

theorem overlooks_compose {middlewares : List Middleware}
    (h : ∀ middleware ∈ middlewares, Overlooks parallel hidden middleware) :
    (compose middlewares).Overlooks parallel hidden := by
  induction middlewares with
  | nil => exact fun context context' _ _ hcontext hnext => hnext context context' hcontext
  | cons first rest ih =>
    intro context context' next next' hcontext hnext
    have hrest := ih fun middleware hm => h middleware (List.mem_cons_of_mem _ hm)
    apply h first List.mem_cons_self context context' _ _ hcontext
    intro inner inner' hinner
    exact hrest inner inner' next next' hinner hnext

theorem overlooks_set (parallel : Bool) (hidden : Node → Prop) (value : Json) :
    (set value).Overlooks parallel hidden :=
  fun _ _ _ _ hcontext hnext => hnext _ _ (hcontext.setValue (some value))

theorem byLookups_set (parallel : Bool) (value : Json) :
    (Middleware.set value).ByLookups parallel := by
  have hset := overlooks_set parallel (fun _ => False) value
  unfold Overlooks at hset
  rwa [Context.alikeBut_nothing] at hset

end Middleware

namespace Descent

theorem overlooks_enclose {resolvers : Resolvers} {node : Node}
    (h : ∀ middleware ∈ resolvers.atShape node.shape, Middleware.Overlooks parallel hidden middleware)
    (input : Option Json) {descent : Descent} (hdescent : descent.Overlooks parallel hidden) :
    Overlooks parallel hidden fun context =>
      (enclose resolvers node input descent).evaluate context := by
  intro context context' hcontext
  dsimp only
  rw [Middleware.evaluate_enclose, Middleware.evaluate_enclose]
  have hstart := (hcontext.push .node node none).attach node input
  have hcore (inner inner' : Context) (hinner : inner.AlikeBut hidden inner') :
      Run.Matches parallel (Context.AlikeBut hidden) (core descent inner) (core descent inner') := by
    rw [core, core, bind_pure_comp, bind_pure_comp]
    exact .map_of_eq (hdescent inner inner' hinner) hinner.setValue
  exact (Middleware.overlooks_compose h _ _ _ _ hstart hcore).map_eq fun _ _ hleft => hleft.value?_eq

theorem overlooks_onSettled (optional : Bool) (node : Node)
    {go : Context → Json → Run (Option Json)}
    (hgo : ∀ value, Overlooks parallel hidden fun context => go context value) :
    Overlooks parallel hidden (onSettled optional node go) := by
  intro context context' hcontext
  rw [onSettled, onSettled, hcontext.settle_eq, Run.timed_bind, Run.timed_bind]
  refine bind_congr fun settled => ?_
  cases settled with
  | none => rfl
  | some value => exact hgo value context context' hcontext

end Descent

namespace Setting

variable {setting : Setting}

theorem overlooks_project {fields : List Operator.Selection}
    (h : ∀ selection ∈ fields,
      Descent.Overlooks parallel hidden fun context => selection.2.evaluate context)
    (given : List (String × Json)) :
    Descent.Overlooks parallel hidden fun context => do
      return some (.object (← Operator.project parallel context given fields)) := by
  intro context context' hcontext
  simp only [Operator.project, bind_pure_comp, Run.timed_map]
  rw [Run.timed_all_congr parallel fun selection hselection => ?_]
  exact h selection hselection _ _ (hcontext.setValue (given.lookup selection.1))

/-- The items see their list and their position, and neither is hidden. -/
theorem overlooks_runItem {inner : Middleware}
    (h : Descent.Overlooks parallel hidden fun context => inner.evaluate context)
    {context context' : Context} (hcontext : context.AlikeBut hidden context') (value : Json)
    (item : Json × Nat) :
    (Excerpt.runItem inner (context'.push .parent value) item).timed parallel =
      (Excerpt.runItem inner (context.push .parent value) item).timed parallel :=
  h _ _ (((hcontext.push .parent value none).push .index item.2 none).setValue _)

theorem overlooks_excerpt {inner : Middleware}
    (h : Descent.Overlooks parallel hidden fun context => inner.evaluate context)
    (excerpt : Excerpt) (node : Node) (value : Json) :
    Descent.Overlooks parallel hidden fun context =>
      excerpt.run parallel node inner context value := by
  intro context context' hcontext
  have hitem := overlooks_runItem h hcontext value
  dsimp only
  unfold Excerpt.run
  split
  · dsimp only
    split
    · split
      · exact hitem _
      · rfl
    · simp only [bind_pure_comp, Run.timed_map, hcontext.isSliced_eq node]
      rw [Run.timed_all_congr parallel fun item _ => hitem item]
  · rfl

/-- The middlewares at all places that the query may come to overlook the input of hidden nodes. -/
def Overlooked (setting : Setting) (hidden : Node → Prop) (start : Place) : Prop :=
  ∀ place, setting.Comes start place → ∀ middleware ∈ setting.resolvers.atShape place.node.shape,
    Middleware.Overlooks setting.execution.parallel hidden middleware

theorem Overlooked.leads {outer next : Place} {demand : Demand}
    (h : setting.Overlooked hidden outer)
    (hdemand : setting.demand outer.node outer.query = .ok demand)
    (hleads : demand.Leads setting outer.node next) : setting.Overlooked hidden next :=
  fun place hcomes => h place (.leads hdemand hleads hcomes)

/-- What is compiled with this many levels left overlooks the input of hidden nodes. -/
def OverlooksAt (setting : Setting) (hidden : Node → Prop) (levels : Nat) : Prop :=
  ∀ {optional node query inner}, setting.Overlooked hidden ⟨node, query⟩ →
    (setting.compile Operator.builtin levels optional node query).result = .ok inner →
      Descent.Overlooks setting.execution.parallel hidden fun context => inner.evaluate context

theorem OverlooksAt.assemble {levels : Nat} (ih : setting.OverlooksAt hidden levels)
    {optional : Bool} {node : Node} {query : List Json} {demand : Demand} {middleware : Middleware}
    (h : setting.Overlooked hidden ⟨node, query⟩) (hdemand : setting.demand node query = .ok demand)
    (hassemble : demand.assemble ⟨setting, optional, setting.compile Operator.builtin levels⟩ node =
      .ok middleware) :
    Descent.Overlooks setting.execution.parallel hidden fun context => middleware.evaluate context := by
  have settled (input : Option Json) {go : Context → Json → Run (Option Json)}
      (hgo : ∀ value, Descent.Overlooks setting.execution.parallel hidden fun context =>
        go context value) :
      Descent.Overlooks setting.execution.parallel hidden fun context =>
        (Descent.enclose setting.resolvers node input
          (Descent.onSettled optional node go)).evaluate context :=
    Descent.overlooks_enclose (h _ (.here _)) input (Descent.overlooks_onSettled optional node hgo)
  have leads {next : Place} (hleads : demand.Leads setting node next) :
      setting.Overlooked hidden next := h.leads hdemand hleads
  cases demand with
  | whole =>
    cases hassemble
    exact settled none fun _ _ _ _ => rfl
  | through input child rest =>
    obtain ⟨inner, hinner, rfl⟩ := Except.map_eq_ok_iff.mp hassemble
    refine Descent.overlooks_enclose (h _ (.here _)) input fun {context context'} hcontext => ?_
    unfold Descent.through
    rw [hcontext.value?_eq]
    split
    · rfl
    · exact ih (leads .through) hinner _ _ (hcontext.passMarks node child)
  | property name flag child rest =>
    obtain ⟨inner, hinner, rfl⟩ := Except.map_eq_ok_iff.mp hassemble
    exact settled none fun value _ _ hcontext =>
      ih (leads .property) hinner _ _ ((hcontext.push .parent value none).setValue _)
  | members head properties requested =>
    obtain ⟨fields, hfields, rfl⟩ := Except.map_eq_ok_iff.mp hassemble
    refine settled none fun value context context' hcontext => ?_
    dsimp only
    unfold Demand.intoMembers
    split
    · refine overlooks_project (fun selection hmem => ?_) _ _ _ (hcontext.push .parent _ none)
      obtain ⟨field, hfield, _, _, _, _, hchild, hinner⟩ :=
        Operator.exists_of_mem_compileFields hfields hmem
      exact ih (leads (.member hfield hchild)) hinner
    · rfl
  | items excerpt item rest =>
    obtain ⟨inner, hinner, rfl⟩ := Except.map_eq_ok_iff.mp hassemble
    exact settled _ (overlooks_excerpt (ih (leads .item) hinner) excerpt node)
  | matched query =>
    cases hassemble
    refine settled none fun value context context' hcontext => ?_
    dsimp only [Demand.intoMatched]
    rw [Run.timed_bind, Run.timed_bind, Run.timed_walk]
    refine Traced.bind_congr_of_ok fun inner hinner => ?_
    rw [Traced.result_ofExcept, Traced.result_bind] at hinner
    obtain ⟨member, hmember, hinner⟩ := Except.bind_eq_ok_iff.mp hinner
    exact ih (leads (.matched hmember)) hinner _ _ (hcontext.setValue (some value))
  | anew query =>
    obtain ⟨inner, hinner, rfl⟩ := Except.map_eq_ok_iff.mp hassemble
    intro context context' hcontext
    dsimp only
    rw [Middleware.evaluate_answerAnew, Middleware.evaluate_answerAnew]
    exact ih (fun place hcomes => h place (.anew hdemand hcomes)) hinner _ _
      (hcontext.setValue none)

/-- If the middlewares where a query may come to overlook the input of hidden nodes, so does what is
compiled for it. -/
theorem overlooks (setting : Setting) (hidden : Node → Prop) (levels : Nat) :
    setting.OverlooksAt hidden levels := by
  induction levels with
  | zero =>
    intro _ _ _ _ _ hinner
    cases hinner
  | succ levels ih =>
    intro optional node query inner h hinner
    rw [compile_succ] at hinner
    obtain ⟨demand, hdemand, hassemble⟩ := Except.bind_eq_ok_iff.mp hinner
    exact ih.assemble h hdemand hassemble

/-- Whatever is compiled with this many levels left goes by lookups. -/
def ByLookupsAt (setting : Setting) (levels : Nat) : Prop :=
  ∀ {optional node query inner},
    (setting.compile Operator.builtin levels optional node query).result = .ok inner →
      Descent.ByLookups setting.execution.parallel fun context => inner.evaluate context

/-- If its middlewares go by lookups, so does everything that an engine compiles. -/
theorem byLookups
    (h : ∀ shape, ∀ middleware ∈ setting.resolvers.atShape shape,
      Middleware.ByLookups setting.execution.parallel middleware)
    (levels : Nat) : setting.ByLookupsAt levels := by
  intro optional node query inner hinner
  refine Descent.Overlooks.byLookups (setting.overlooks _ levels (fun place _ => ?_) hinner)
  exact fun middleware hm => (h _ middleware hm).overlooks

end Setting

end

end PathQuery
