import PathQuery.Proofs.Evaluation.Refinement
import PathQuery.Proofs.Query.Assembly
import PathQuery.Proofs.Structure.Parts

/-!
# Runs of engines

An engine without operators of the host, all of whose resolvers follow rules, answers as direct
evaluation does from the root, with as many levels as the recursion limit allows
(`Engine.evaluate_eq_run`). Rules that pass on that the levels ran out do not let their number show; one
that answers this with a value does (`Drawer.not_evaluation_of_limits`).
-/

set_option autoImplicit false

namespace PathQuery

/-- Nothing but values and entries of the host: no list counts as sliced, no node is marked. -/
def Context.Unmarked (context : Context) : Prop :=
  ∀ layer ∈ context.layers, layer.key ≠ .sliced ∧ layer.key ≠ .fillEmpty

theorem Context.get?_eq_none {context : Context} {key : Key}
    (h : ∀ layer ∈ context.layers, layer.key ≠ key) (scope : Option Node) :
    context.get? key scope = none := by
  rw [get?, List.findSome?_eq_none_iff]
  intro layer hlayer
  rw [Layer.value?, dif_neg (h layer hlayer)]

theorem Context.Unmarked.marked {context : Context} (h : context.Unmarked) (graph : Graph)
    (rules : Structure → List Rule) : context.Marked graph rules where
  unsliced node := by
    rw [isSliced, get?_eq_none fun layer hlayer => (h layer hlayer).1]
    rfl
  filled node _ hfills := by
    rw [fillsEmpty, get?_eq_none fun layer hlayer => (h layer hlayer).2] at hfills
    cases hfills

namespace Engine

variable {graph : Graph} {entry : String} {resolvers : List Resolver}
  {configuration : Configuration} {engine : Engine} {regulations : List Regulation}

theorem ruledBy_of_assemble (h : assemble graph entry resolvers [] configuration = .ok engine)
    (hgoverned : List.Forall₂ (Regulation.Governs configuration.execution.parallel) regulations
      resolvers)
    (hfill : ∀ node, Node.Below graph.root node →
      (Regulation.atShape regulations node.shape).any Rule.isFill = true →
      node.kind = .object ∨ node.kind = .array) :
    engine.setting.RuledBy (Regulation.atShape regulations) := by
  obtain ⟨_, rfl⟩ := eq_of_assemble h
  exact ⟨Regulation.governs_atShape hgoverned, hfill⟩

/-- What direct evaluation from the root gives, with undefined written as null. -/
def evaluated (engine : Engine) (regulations : List Regulation) (levels : Nat)
    (instructions : List Json) (value : Option Json) : Except Error Json :=
  (engine.setting.evaluate (Regulation.atShape regulations) levels false engine.setting.graph.root
    instructions value).result.map fun value => value.getD .null

/-- A run answers as direct evaluation does with the levels that the recursion limit allows; and if all
rules pass on that the levels ran out, then unless the run ends so, as direct evaluation does with any
more levels. -/
theorem evaluate_eq_run (h : assemble graph entry resolvers [] configuration = .ok engine)
    (hgoverned : List.Forall₂ (Regulation.Governs configuration.execution.parallel) regulations
      resolvers)
    (hfill : ∀ node, Node.Below graph.root node →
      (Regulation.atShape regulations node.shape).any Rule.isFill = true →
      node.kind = .object ∨ node.kind = .array)
    {query : Json} {values instructions : List Json} {middleware : Middleware}
    (hquery : engine.instructions query values = .ok instructions)
    (hplan : (engine.plan instructions).result = .ok middleware)
    {context : Context} (hseed : context.Unmarked) :
    engine.evaluated regulations configuration.execution.recursionLimit instructions context.value? =
        (engine.run query values context).result ∧
      ((∀ regulation ∈ regulations, ∀ rule ∈ regulation.rules, Rule.PassesLimit rule) →
        (∀ limit, (engine.run query values context).result ≠
          .error (.recursionLimitExceeded limit)) →
        ∀ levels, configuration.execution.recursionLimit ≤ levels →
          engine.evaluated regulations levels instructions context.value? =
            (engine.run query values context).result) := by
  have hruled := ruledBy_of_assemble h hgoverned hfill
  have hrun : (engine.run query values context).result =
      (middleware.evaluate context).result.map fun value => value.getD .null := by
    rw [result_run, hquery, Except.ok_bind, hplan, Except.ok_bind]
  obtain ⟨_, rfl⟩ := eq_of_assemble h
  have hanswer := (Setting.refined hruled configuration.execution.recursionLimit).answered false
    graph.root instructions .start middleware hplan context (hseed.marked graph _)
  have hresult := congrArg (fun timed => Traced.result timed) hanswer
  dsimp only [Run.result_timed] at hresult
  refine ⟨by rw [evaluated, hrun, hresult], fun hpasses hlimit levels hlevels => ?_⟩
  have hrules (shape : Structure) :
      ∀ rule ∈ Regulation.atShape regulations shape, rule.PassesLimit := by
    intro rule hrule
    obtain ⟨regulation, hregulation, hrule⟩ := List.mem_flatMap.mp hrule
    split at hrule
    · exact hpasses regulation hregulation rule hrule
    · cases hrule
  have hmore := Setting.evaluate_mono
    ⟨graph, entry, .bind resolvers, configuration.execution, defaultReach⟩ hrules hlevels false
    graph.root instructions context.value?
  rw [evaluated, hmore.eq_of_ne, hrun, hresult]
  intro limit hexceeds
  refine hlimit limit ?_
  rw [hrun, hresult, hexceeds]
  rfl

end Engine

namespace Drawer

/-- The drawer answers null whatever comes back. -/
def rescued (outcome : Except Error (Option Json)) : Timed (Option Json) :=
  match outcome with
  | .ok value => return value
  | .error _ => return some .null

def regulations : List Regulation :=
  [⟨entry, [.react fun value => return .proceed value rescued]⟩]

theorem timedValue_rescue (parallel : Bool) (context : Context) (next : Continuation) :
    (Middleware.rescue context next).timedValue parallel =
      ((next context).timedValue parallel).revised rescued := by
  unfold Middleware.rescue Run.timedValue
  generalize next context = run
  obtain ⟨trail, result⟩ := run
  cases result with
  | ok left => exact Traced.ext (List.append_nil _).symm rfl
  | error error =>
    refine Traced.ext ?_ ?_
    · rw [Traced.catchError, Traced.trail_map, Timed.revised, Traced.trail_map]
      simp [Run.timed, Traced.filterTrail, Except.map, rescued]
    · exact congrArg Except.ok (context.value?_setValue _)

theorem governs :
    List.Forall₂ (Regulation.Governs false) regulations [⟨entry, [Middleware.rescue]⟩] := by
  refine .cons ⟨rfl, .cons (fun context next => ⟨context, fun _ _ _ => rfl, ?_, ?_⟩) .nil⟩ .nil
  · rintro value revise ⟨⟩
    rfl
  · exact timedValue_rescue false context next

/-- No evaluation that knows nothing of levels gives what the drawer gives under all limits, though the
query is compiled and no run ends at its limit. -/
theorem not_evaluation_of_limits :
    ¬ ∃ evaluate : List Regulation → Node → Bool → List Json → Option Json → Except Error Json,
      ∀ limit ∈ [3, 4],
        Engine.assemble graph "Drawer" [⟨entry, [Middleware.rescue]⟩] []
            { execution := { recursionLimit := limit } } = .ok (engine limit) →
        List.Forall₂ (Regulation.Governs false) regulations [⟨entry, [Middleware.rescue]⟩] →
        (∃ middleware, ((engine limit).plan query).result = .ok middleware) →
        (∀ exceeded, ((engine limit).run (.array query) [] seed).result ≠
          .error (.recursionLimitExceeded exceeded)) →
        evaluate regulations graph.root false query seed.value? =
          ((engine limit).run (.array query) [] seed).result := by
  rintro ⟨evaluate, h⟩
  have hthree := h 3 (by decide) (assemble_eq_engine 3 (by decide)) governs ⟨_, rfl⟩
    (fun _ hexceeds => by rw [run_of_three] at hexceeds; cases hexceeds)
  have hfour := h 4 (by decide) (assemble_eq_engine 4 (by decide)) governs ⟨_, rfl⟩
    (fun _ hexceeds => by rw [run_of_four] at hexceeds; cases hexceeds)
  rw [run_of_three] at hthree
  rw [run_of_four, hthree] at hfour
  cases hfour

end Drawer

namespace Library

def regulations : List Regulation :=
  [⟨entry, [.react fun _ => return .proceed (some (.object [])) Traced.ofExcept]⟩, ⟨tags, [.fillEmpty]⟩]

theorem governs : List.Forall₂ (Regulation.Governs false) regulations resolvers := by
  refine .cons ⟨rfl, .cons (fun context next => ?_) .nil⟩ (.cons ⟨rfl, .cons rfl .nil⟩ .nil)
  refine ⟨context.setValue (some (.object [])), ?_, ?_, ?_⟩
  · intro key scope hkey
    exact context.get?_push_of_ne hkey.symm _ _ _
  · rintro value revise ⟨⟩
    exact context.value?_setValue _
  · exact (Timed.revised_ofExcept _).symm

/-- Direct evaluation gives the library with its tags, as the run does. -/
theorem evaluate_query :
    engine.evaluated regulations 512 query none = .ok answer ∧
      engine.evaluated regulations 600 query none = .ok answer := by
  have hfill : ∀ part ∈ graph.schema.root.parts,
      (Regulation.atShape regulations part).any Rule.isFill = true →
      part.kind = .object ∨ part.kind = .array := by decide
  have hpasses : ∀ regulation ∈ regulations, ∀ rule ∈ regulation.rules, Rule.PassesLimit rule := by
    intro regulation hregulation rule hrule
    rcases List.mem_cons.mp hregulation with rfl | hregulation
    · cases List.mem_singleton.mp hrule
      rintro value next revise ⟨⟩ limit
      rfl
    · cases List.mem_singleton.mp hregulation
      cases List.mem_singleton.mp hrule
      trivial
  obtain ⟨middleware, hplan⟩ : ∃ middleware, (engine.plan query).result = .ok middleware :=
    ⟨_, rfl⟩
  have hquery : engine.instructions (.array query) [] = .ok query := rfl
  have hseed : Context.empty.Unmarked := nofun
  have hrun := Engine.evaluate_eq_run assemble_eq_engine governs
    (fun node hnode => hfill node.shape hnode.shape_mem_parts) hquery hplan hseed
  rw [run_query] at hrun
  exact ⟨hrun.1, hrun.2 hpasses nofun 600 (by decide)⟩

end Library

end PathQuery
