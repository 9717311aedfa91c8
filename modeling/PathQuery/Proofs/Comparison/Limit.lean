import PathQuery.Middleware.Stock
import PathQuery.Proofs.Comparison.Compilation
import PathQuery.Proofs.Query.Selection

/-!
# The recursion limit

Where every middleware passes it on that the rest of its chain has exceeded the recursion limit, a
greater limit changes no answer (`Engine.run_withLimit`): the limit only cuts runs off, and a run that
exceeds a limit exceeds every smaller one. Levels are counted on where a query starts again at the
root, and where the member of a union is compiled during the run. A middleware that never exceeds the
limit itself, but hides that the rest did, tells the limits apart (`Drawer.answers_of_limits`).
-/

set_option autoImplicit false

namespace PathQuery

namespace Run

variable {α : Type}

/-- The run was cut off at a recursion limit. -/
def Exceeds (run : Run α) : Prop :=
  ∃ limit, run.result = .error (.recursionLimitExceeded limit)

end Run

/-- The runs are the same, unless the first one is cut off. Where siblings go on together, what it
noted until then comes first in the second one. -/
def Run.CutOrSame {α : Type} (parallel : Bool) (run run' : Run α) : Prop :=
  run.Exceeds ∧ (parallel = true → run.notes <+: run'.notes) ∨ run.Same run'

/-- An exceeded limit of the rest is passed on: before two rests of the chain that are the same unless
the first one is cut off, the middleware does the same unless it is cut off itself. One that answered
an exceeded limit with a value would tell the limits apart. -/
def Middleware.PassesLimit (parallel : Bool) (middleware : Middleware) : Prop :=
  ∀ context next next', (∀ inner, (next inner).CutOrSame parallel (next' inner)) →
    (middleware context next).CutOrSame parallel (middleware context next')

/-! ## Other limits -/

def Execution.withLimit (execution : Execution) (limit : Nat) : Execution :=
  { execution with recursionLimit := limit }

def Configuration.withLimit (configuration : Configuration) (limit : Nat) : Configuration :=
  { configuration with execution := configuration.execution.withLimit limit }

def Setting.withLimit (setting : Setting) (limit : Nat) : Setting :=
  { setting with execution := setting.execution.withLimit limit }

def Engine.withLimit (engine : Engine) (limit : Nat) : Engine :=
  { engine with setting := engine.setting.withLimit limit }

theorem Configuration.validate_withLimit {configuration : Configuration} {limit : Nat}
    (h : configuration.validate = .ok ()) (hlimit : configuration.execution.recursionLimit ≤ limit) :
    (configuration.withLimit limit).validate = .ok () := by
  unfold validate at h ⊢
  split at h
  · cases h
  · next hpositive =>
    have hlimit' : ¬ (configuration.withLimit limit).execution.recursionLimit = 0 := by
      simp only [withLimit, Execution.withLimit]
      omega
    rw [if_neg hlimit']
    exact h

/-- The same nodes on both sides, until the limit is exceeded. -/
def Comparison.limit (parallel : Bool) : Comparison where
  Paired := (· = ·)
  beq_eq := by
    rintro a _ b _ rfl rfl
    rfl
  Cut error := ∃ limit, error = .recursionLimitExceeded limit
  aligned := parallel

namespace Comparison

variable {parallel : Bool}

theorem scope_eq {scope scope' : Option Node} (h : Option.Rel (· = ·) scope scope') :
    scope = scope' := by
  cases h with
  | none => rfl
  | some heq => exact congrArg some heq

theorem limit_contexts_iff {context context' : Context} :
    (limit parallel).Contexts context context' ↔ context = context' := by
  constructor
  · intro h
    obtain ⟨layers⟩ := context
    obtain ⟨layers'⟩ := context'
    obtain ⟨hlayers⟩ := h
    refine congrArg Context.mk (List.forall₂_eq_eq_eq ▸ hlayers.imp fun layer layer' hlayer => ?_)
    cases hlayer with
    | active scopes nodes => rw [scope_eq scopes, show _ = _ from nodes]
    | data _ value scopes => rw [scope_eq scopes]
  · rintro rfl
    refine ⟨List.forall₂_same.mpr fun layer _ => ?_⟩
    obtain ⟨key, scope, value⟩ := layer
    have hscope : Option.Rel (limit parallel).Paired scope scope := by
      cases scope with
      | none => exact .none
      | some node => exact .some rfl
    by_cases hkey : key = .node
    · subst hkey
      exact .active hscope rfl
    · exact .data hkey value hscope

theorem limit_runs_iff {α : Type} {like : α → α → Prop} (hlike : ∀ a b, like a b ↔ a = b)
    {run run' : Run α} : (limit parallel).Runs like run run' ↔ run.CutOrSame parallel run' := by
  rw [runs_iff hlike, Run.CutOrSame]
  refine or_congr_left ⟨?_, ?_⟩
  · rintro ⟨_, hresult, ⟨exceeded, rfl⟩, hbegins⟩
    exact ⟨⟨exceeded, hresult⟩, hbegins⟩
  · rintro ⟨⟨exceeded, hresult⟩, hbegins⟩
    exact ⟨_, hresult, ⟨exceeded, rfl⟩, hbegins⟩

theorem limit_continues_iff {next next' : Continuation} :
    (limit parallel).Continues next next' ↔
      ∀ inner, (next inner).CutOrSame parallel (next' inner) := by
  have hcontexts : ∀ a b, (limit parallel).Contexts a b ↔ a = b := fun _ _ => limit_contexts_iff
  constructor
  · intro h inner
    exact (limit_runs_iff hcontexts).mp (h inner inner (limit_contexts_iff.mpr rfl))
  · intro h inner inner' hinner
    obtain rfl := limit_contexts_iff.mp hinner
    exact (limit_runs_iff hcontexts).mpr (h inner)

theorem passesLimit_iff {middleware : Middleware} :
    middleware.PassesLimit parallel ↔ (limit parallel).Middlewares middleware middleware := by
  have hcontexts : ∀ a b, (limit parallel).Contexts a b ↔ a = b := fun _ _ => limit_contexts_iff
  constructor
  · intro h context context' hcontext next next' hnext
    obtain rfl := limit_contexts_iff.mp hcontext
    exact (limit_runs_iff hcontexts).mpr (h context next next' (limit_continues_iff.mp hnext))
  · intro h context next next' hnext
    exact (limit_runs_iff hcontexts).mp
      (h context context (limit_contexts_iff.mpr rfl) next next' (limit_continues_iff.mpr hnext))

theorem limit_compares {setting : Setting}
    (h : ∀ shape, ∀ middleware ∈ setting.resolvers.atShape shape,
      Middleware.PassesLimit setting.execution.parallel middleware) (levels : Nat) :
    (limit setting.execution.parallel).Compares (· = ·) setting (setting.withLimit levels) where
  parallel := rfl
  aligned := id
  root := rfl
  paired heq := heq
  shape := by
    rintro node _ rfl
    exact .refl node.shape
  demand := by
    rintro node _ rfl query
    exact (Except.Agree.eq_self _).imp fun demand _ heq => heq ▸ demand.alike_self fun _ => rfl
  requested := by
    rintro node _ rfl head properties properties' hlack field
    rw [node.requested_congr head hlack]
    refine (Except.Agree.eq_self _).imp fun request _ heq => ?_
    subst heq
    exact ⟨rfl, rfl, rfl⟩
  member := by
    rintro node _ rfl value
    exact .eq_self _
  chain := by
    rintro node _ rfl
    refine Middlewares.compose (List.forall₂_same.mpr fun middleware hmiddleware => ?_)
    exact passesLimit_iff.mp (h node.shape middleware hmiddleware)

end Comparison

/-! ## Middlewares that pass the limit -/

theorem Middleware.passesLimit_set (parallel : Bool) (value : Json) :
    (Middleware.set value).PassesLimit parallel :=
  Comparison.passesLimit_iff.mpr (.set value)

/-! ## Queries that start again -/

/-- Starts again at the root this many times before the query. -/
def Operator.restarts (query : List Json) : Nat → List Json
  | 0 => query
  | count + 1 =>
    [.object [("kind", .string "path"), ("path", .array (restarts query count))]]

/-! ## Engines -/

namespace Engine

variable {graph : Graph} {entry : String} {resolvers : List Resolver}
  {configuration : Configuration} {engine : Engine}

/-- The recursion limit only cuts runs off, if middlewares pass it on. Under a greater limit a run that
was not cut off ends with the same answer or error and logs the same, members of unions that are compiled
on the way and queries that start again included; a run that exceeds the greater limit exceeds the
smaller one too. -/
theorem run_withLimit (h : assemble graph entry resolvers [] configuration = .ok engine)
    (hpasses : ∀ resolver ∈ resolvers, ∀ middleware ∈ resolver.middlewares,
      Middleware.PassesLimit configuration.execution.parallel middleware)
    {limit : Nat} (hlimit : configuration.execution.recursionLimit ≤ limit) :
    assemble graph entry resolvers [] (configuration.withLimit limit) =
        .ok (engine.withLimit limit) ∧
      ∀ query values context,
        (¬ (engine.run query values context).Exceeds →
          (engine.run query values context).Same
            ((engine.withLimit limit).run query values context)) ∧
        (((engine.withLimit limit).run query values context).Exceeds →
          (engine.run query values context).Exceeds) := by
  obtain ⟨hentry, hnodes, hvalid, rfl⟩ := assemble_eq_ok_iff.mp h
  have hvalid' := Configuration.validate_withLimit hvalid hlimit
  refine ⟨assemble_eq_ok_iff.mpr ⟨hentry, hnodes, hvalid', rfl⟩, ?_⟩
  intro query values context
  have hchains : ∀ shape, ∀ middleware ∈ (Resolvers.bind resolvers).atShape shape,
      Middleware.PassesLimit configuration.execution.parallel middleware := by
    intro shape middleware hmiddleware
    obtain ⟨resolver, hresolver, hmem⟩ := Resolvers.exists_of_mem_atShape hmiddleware
    exact hpasses resolver hresolver middleware hmem
  obtain ⟨more, rfl⟩ := Nat.exists_eq_add_of_le hlimit
  have hcut : (Comparison.limit configuration.execution.parallel).Cut
      (.recursionLimitExceeded configuration.execution.recursionLimit) := ⟨_, rfl⟩
  have hcompares := @Comparison.limit_compares
    ⟨graph, entry, .bind resolvers, configuration.execution, defaultReach⟩ hchains
    (configuration.execution.recursionLimit + more)
  have hrun := hcompares.run rfl (.inl hcut) rfl query values
    (Comparison.limit_contexts_iff.mpr (Eq.refl context))
  obtain hexceeds | hsame := (Comparison.limit_runs_iff fun _ _ => Iff.rfl).mp hrun
  · exact ⟨fun hnot => absurd hexceeds.1 hnot, fun _ => hexceeds.1⟩
  · exact ⟨fun _ => hsame, fun ⟨n, hn⟩ => ⟨n, hsame.2 ▸ hn⟩⟩

end Engine

namespace Catalogue

def listing : List Resolver :=
  [⟨entry, [Middleware.set (.object [])]⟩, ⟨tags, [Middleware.set list]⟩]

def listingEngine (limit : Nat) : Engine :=
  ⟨{ graph, entry := "Catalogue", resolvers := .bind listing,
     execution := { recursionLimit := limit }, reach := defaultReach }, Operator.builtin⟩

theorem assemble_eq_listingEngine :
    Engine.assemble graph "Catalogue" listing [] { execution := { recursionLimit := 8 } } =
      .ok (listingEngine 8) := rfl

/-- Starts again, and comes to a union whose member is compiled during the run. -/
def listingQuery : Json :=
  .array (Operator.restarts [.string "Catalogue", .string "tags"] 1)

theorem run_of_limits :
    ((listingEngine 7).run listingQuery [] .empty).Exceeds ∧
      ((listingEngine 8).run listingQuery [] .empty).result = .ok list ∧
      ((listingEngine 8).run listingQuery [] .empty).Same
        ((listingEngine 512).run listingQuery [] .empty) := by
  have hpasses : ∀ resolver ∈ listing, ∀ middleware ∈ resolver.middlewares,
      Middleware.PassesLimit false middleware := by
    intro resolver hresolver middleware hmiddleware
    rcases List.mem_cons.mp hresolver with rfl | hresolver
    · cases List.mem_singleton.mp hmiddleware
      exact Middleware.passesLimit_set _ _
    · cases List.mem_singleton.mp hresolver
      cases List.mem_singleton.mp hmiddleware
      exact Middleware.passesLimit_set _ _
  have hanswer : ((listingEngine 8).run listingQuery [] .empty).result = .ok list := rfl
  have hexceeds : ¬ ((listingEngine 8).run listingQuery [] .empty).Exceeds := by
    rintro ⟨limit, hlimit⟩
    cases hanswer.symm.trans hlimit
  have hsame := (Engine.run_withLimit assemble_eq_listingEngine hpasses
    (by decide : 8 ≤ 512)).2 listingQuery [] .empty
  exact ⟨⟨7, rfl⟩, hanswer, hsame.1 hexceeds⟩

end Catalogue

namespace Drawer

/-- The middleware of the drawer never exceeds the limit, and neither run does; still the limit decides
about the answer. -/
theorem answers_of_limits :
    (∀ context next, ¬ (Middleware.rescue context next).Exceeds) ∧
      Engine.assemble graph "Drawer" [⟨entry, [Middleware.rescue]⟩] []
        { execution := { recursionLimit := 3 } } = .ok (engine 3) ∧
      (engine 3).withLimit 4 = engine 4 ∧
      ¬ ((engine 3).run (.array query) [] seed).Exceeds ∧
      ¬ ((engine 3).run (.array query) [] seed).Same
        (((engine 3).withLimit 4).run (.array query) [] seed) := by
  refine ⟨?_, assemble_eq_engine 3 (by decide), rfl, ?_, ?_⟩
  · rintro context next ⟨limit, hlimit⟩
    unfold Middleware.rescue Traced.catchError at hlimit
    split at hlimit
    · next hok => cases hok.symm.trans hlimit
    · cases hlimit
  · rintro ⟨limit, hlimit⟩
    cases run_of_three.symm.trans hlimit
  · rintro ⟨_, hresult⟩
    cases run_of_four.symm.trans (hresult.trans run_of_three)

end Drawer

end PathQuery
