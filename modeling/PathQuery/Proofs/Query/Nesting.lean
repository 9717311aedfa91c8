import PathQuery.Proofs.Middleware.Traces
import PathQuery.Proofs.Query.Places
import PathQuery.Proofs.Query.Registration

/-!
# Traces along a line

With a trace in front of every middleware the log of a run shows the line that is being resolved: the
traces of the outer nodes are all open, those of the last node one after another
(`Engine.traces_of_run`). Whatever the resolvers do with the context, they cannot change this, as
long as none of them goes on twice, hides an error, or waits while its siblings go on. The traces of
siblings that wait may cross, and resolvers of one structure stay in the order of their registration,
whichever nodes they were registered on (`Gloves.traces_cross`).
-/

set_option autoImplicit false

namespace PathQuery

open Run (Logs)

/-- The traces of some outer places, and those behind them. -/
def LabelledResolver.openAt (resolvers : List LabelledResolver) (above : List Place)
    (part : List String) : List String :=
  (above.flatMap fun outer => labelsAt resolvers outer.node.shape) ++ part

open LabelledResolver (resolver labelledAt labelsAt openAt)
open Middleware (trace)

/-- The traces that are open while the places of a line are being resolved: all of the outer ones,
and some first ones of the last. -/
inductive Opened (resolvers : List LabelledResolver) : List Place → List String → Prop where
  | none : Opened resolvers [] []
  | last {above : List Place} {place : Place} {part : List String}
      (hpart : part <+: labelsAt resolvers place.node.shape) :
      Opened resolvers (above ++ [place]) (openAt resolvers above part)

theorem opened_all (resolvers : List LabelledResolver) (line : List Place) :
    Opened resolvers line (line.flatMap fun place => labelsAt resolvers place.node.shape) := by
  rcases List.eq_nil_or_concat line with rfl | ⟨above, place, rfl⟩
  · exact .none
  · rw [List.concat_eq_append, List.flatMap_append, List.flatMap_singleton]
    exact .last List.prefix_rfl

theorem Run.Logs.core {parallel : Bool} {good : List String → Prop}
    {fine : List String → String → Snapshot → Prop} {entered : List String} {descent : Descent}
    {context : Context} (h : (descent context).Logs parallel good fine entered) :
    (Descent.core descent context).Logs parallel good fine entered := by
  unfold Descent.core
  rw [bind_pure_comp]
  exact h.map _

/-- The places from a start on that explain the open traces. -/
def Shows (setting : Setting) (start : Place) (resolvers : List LabelledResolver)
    (now : List String) : Prop :=
  ∃ line, setting.Line start line ∧ Opened resolvers line now

namespace LabelledResolver

variable {setting : Setting} {start : Place} {resolvers : List LabelledResolver}

/-- Runs stay within the traces of the line. -/
def invariant (setting : Setting) (start : Place) (resolvers : List LabelledResolver) :
    RunInvariant where
  context _ _ := True
  run line _ run := run.Logs setting.execution.parallel (Shows setting start resolvers)
    (fun _ _ _ => True) (line.flatMap fun place => labelsAt resolvers place.node.shape)

theorem kept (hresolvers : setting.resolvers = .bind (resolvers.map (resolver trace)))
    (hsingle : ∀ labelled ∈ resolvers, ∀ entry ∈ labelled.labelled,
      Middleware.Single setting.execution.parallel entry.2) :
    (invariant setting start resolvers).Kept setting start where
  walk {line _} hline _ := Logs.of_walk ⟨line, hline, opened_all resolvers line⟩
  bind := Logs.bind
  all {line _ _} hline := Logs.all ⟨line, hline, opened_all resolvers line⟩
  push _ _ _ _ _ := trivial
  enclose {above place demand} hline _ descent hdescent context _ := by
    have hpart (part : List String) (hpart : part <+: labelsAt resolvers place.node.shape) :
        Shows setting start resolvers (openAt resolvers above part) :=
      ⟨above ++ [place], hline, .last hpart⟩
    rw [Middleware.evaluate_enclose, hresolvers, atShape_bind]
    apply Logs.map
    apply Middleware.logs_compose (fun _ => True) _ _ trivial
    · intro context _
      have h := hdescent context trivial
      dsimp only [invariant] at h
      rw [List.flatMap_append, List.flatMap_singleton] at h
      exact h.core
    · intro part label hbegins context next _ h
      rw [← List.append_assoc] at h
      exact Middleware.logs_trace (hpart part ((List.prefix_append part [label]).trans hbegins)) h
    · intro entry hentry entered context next hgood _ hnext
      obtain ⟨labelled, hlabelled, hentry⟩ := mem_labelled_of_mem_labelledAt hentry
      apply (hsingle labelled hlabelled entry hentry).logs _ fun context' _ => hnext context' trivial
      exact fun hnotes => .of_unnoticed hnotes hgood fun _ _ _ => trivial

end LabelledResolver

/-- What the log of a run shows of the places that it resolved. -/
structure Engine.TracesFollow (engine : Engine) (resolvers : List LabelledResolver) (query : Json)
    (values : List Json) (run : Run Json) : Prop where
  /-- At every moment all traces of the outer nodes of a line are open, and some of the last one. -/
  moment : ∀ before, before <+: run.trail → ∃ now, openAfter [] before = some now ∧
    (now = [] ∨ ∃ instructions, engine.instructions query values = .ok instructions ∧
      Shows engine.setting ⟨engine.setting.graph.root, instructions⟩ resolvers now)
  nested : ∀ value, run.result = .ok value → Nested run.trail
  prefix_nested : ∃ rest, Nested (run.trail ++ rest)

namespace Engine

variable {graph : Graph} {entry : String} {resolvers : List LabelledResolver}
  {configuration : Configuration} {engine : Engine}

/-- Reading and compiling a query logs nothing but visits. -/
theorem logs_of_evaluate {parallel : Bool} {good : List String → Prop}
    {fine : List String → String → Snapshot → Prop} {query : Json} {values : List Json}
    {context : Context} (hgood : good [])
    (h : ∀ instructions middleware, engine.instructions query values = .ok instructions →
      (engine.plan instructions).result = .ok middleware →
        (middleware.evaluate context).Logs parallel good fine []) :
    (engine.run query values context).Logs parallel good fine [] := by
  refine Logs.bind (.of_unnoticed nofun hgood nofun) fun instructions hinstructions => ?_
  refine Logs.bind (.of_walk hgood) fun middleware hplan => ?_
  refine Logs.bind ?_ fun _ _ => .pure hgood _
  exact h instructions middleware hinstructions hplan

theorem logs_run
    (h : assemble graph entry (resolvers.map (resolver trace)) [] configuration = .ok engine)
    (hsingle : ∀ labelled ∈ resolvers, ∀ entry ∈ labelled.labelled,
      Middleware.Single configuration.execution.parallel entry.2)
    (query : Json) (values : List Json) (context : Context) :
    (engine.run query values context).Logs configuration.execution.parallel (fun now => now = [] ∨
      ∃ instructions, engine.instructions query values = .ok instructions ∧
        Shows engine.setting ⟨engine.setting.graph.root, instructions⟩ resolvers now)
      (fun _ _ _ => True) [] := by
  apply logs_of_evaluate (.inl rfl)
  intro instructions middleware hinstructions hplan
  rw [← execution_of_assemble h] at hsingle ⊢
  have hrun : (middleware.evaluate context).Logs engine.setting.execution.parallel
      (Shows engine.setting _ resolvers) _ [] :=
    (LabelledResolver.kept (resolvers_of_assemble h) hsingle).evaluate_plan
      (operators_of_assemble h) hplan trivial
  exact hrun.mono (fun _ hshows => .inr ⟨instructions, hinstructions, hshows⟩) fun _ _ _ _ => trivial

theorem tracesFollow_of_assemble
    (h : assemble graph entry (resolvers.map (resolver trace)) [] configuration = .ok engine)
    (hsingle : ∀ labelled ∈ resolvers, ∀ entry ∈ labelled.labelled,
      Middleware.Single configuration.execution.parallel entry.2)
    (query : Json) (values : List Json) (context : Context) :
    engine.TracesFollow resolvers query values (engine.run query values context) where
  moment := (logs_run h hsingle query values context).moment
  nested := (logs_run h hsingle query values context).closed
  prefix_nested := by
    obtain ⟨now, hnow, _⟩ :=
      (logs_run h hsingle query values context).moment _ List.prefix_rfl
    refine ⟨now.reverse.map .leave, ?_⟩
    rw [Nested, openAfter_append, hnow]
    exact openAfter_leaves now

/-- Whether a resolver is found for a structure is all that orders it: lists in which the resolvers
of every structure come in the same order make engines that run alike. -/
theorem run_of_reordered {resolvers' : List LabelledResolver}
    (h : assemble graph entry (resolvers.map (resolver trace)) [] configuration = .ok engine)
    (hsame : ∀ shape, resolvers'.filter (LabelledResolver.serves shape) =
      resolvers.filter (LabelledResolver.serves shape)) :
    ∃ engine', assemble graph entry (resolvers'.map (resolver trace)) [] configuration =
        .ok engine' ∧
      ∀ query values context, engine'.run query values context = engine.run query values context := by
  apply run_congr h
  · intro resolver hresolver
    obtain ⟨labelled, hlabelled, rfl⟩ := List.mem_map.mp hresolver
    have hserves : labelled.serves labelled.node.shape = true := decide_eq_true rfl
    have hfilter := List.mem_filter.mpr ⟨hlabelled, hserves⟩
    rw [hsame] at hfilter
    exact ⟨_, List.mem_map_of_mem (List.mem_of_mem_filter hfilter), rfl⟩
  · intro shape
    rw [LabelledResolver.atShape_bind, LabelledResolver.atShape_bind, labelledAt, hsame]
    rfl

/-- The traces of a run follow its descent, and only the order of the resolvers of one structure
matters for them. -/
theorem traces_of_run
    (h : assemble graph entry (resolvers.map (resolver trace)) [] configuration = .ok engine)
    (hsingle : ∀ labelled ∈ resolvers, ∀ entry ∈ labelled.labelled,
      Middleware.Single configuration.execution.parallel entry.2)
    (query : Json) (values : List Json) (context : Context) :
    engine.TracesFollow resolvers query values (engine.run query values context) ∧
      ∀ resolvers' : List LabelledResolver, (∀ shape, resolvers'.filter (LabelledResolver.serves shape) =
          resolvers.filter (LabelledResolver.serves shape)) →
        ∃ engine', assemble graph entry (resolvers'.map (resolver trace)) [] configuration =
            .ok engine' ∧
          engine'.run query values context = engine.run query values context := by
  refine ⟨tracesFollow_of_assemble h hsingle query values context, ?_⟩
  intro resolvers' hsame
  obtain ⟨engine', hassemble, hrun⟩ := run_of_reordered h hsame
  exact ⟨engine', hassemble, hrun query values context⟩

end Engine

namespace Library

def tracedResolvers : List LabelledResolver :=
  [⟨entry, [("library", Middleware.set (.object []))]⟩, ⟨tags, [("tags", Middleware.fillEmpty)]⟩]

def tracedEngine : Engine :=
  ⟨{ graph, entry := "Library", resolvers := .bind (tracedResolvers.map (resolver trace)),
     execution := {}, reach := defaultReach }, Operator.builtin⟩

theorem assemble_eq_tracedEngine :
    Engine.assemble graph "Library" (tracedResolvers.map (resolver trace)) [] {} =
      .ok tracedEngine := rfl

theorem single_tracedResolvers :
    ∀ labelled ∈ tracedResolvers, ∀ entry ∈ labelled.labelled, Middleware.Single false entry.2 := by
  intro labelled hlabelled entry hentry
  rcases List.mem_cons.mp hlabelled with rfl | hlabelled
  · cases List.mem_singleton.mp hentry
    exact Middleware.single_set _
  · cases List.mem_singleton.mp hlabelled
    cases List.mem_singleton.mp hentry
    exact Middleware.single_fillEmpty

theorem filter_reverse (shape : Structure) :
    tracedResolvers.reverse.filter (LabelledResolver.serves shape) =
      tracedResolvers.filter (LabelledResolver.serves shape) := by
  have hne : entry.shape.identity? ≠ tags.shape.identity? := by decide
  -- no structure is served by both
  by_cases hentry : entry.shape.identity? = shape.identity?
  · have htags : ¬ tags.shape.identity? = shape.identity? := fun h => hne (hentry.trans h.symm)
    simp [tracedResolvers, LabelledResolver.serves, List.filter, hentry, htags]
  · by_cases htags : tags.shape.identity? = shape.identity?
    · simp [tracedResolvers, LabelledResolver.serves, List.filter, hentry, htags]
    · simp [tracedResolvers, LabelledResolver.serves, List.filter, hentry, htags]

theorem traces_of_query :
    tracedEngine.TracesFollow tracedResolvers (.array query) []
        (tracedEngine.run (.array query) [] .empty) ∧
      ∃ engine', Engine.assemble graph "Library"
          (tracedResolvers.reverse.map (resolver trace)) [] {} = .ok engine' ∧
        engine'.run (.array query) [] .empty = tracedEngine.run (.array query) [] .empty := by
  have h := Engine.traces_of_run assemble_eq_tracedEngine single_tracedResolvers (.array query) []
    .empty
  exact ⟨h.1, h.2 tracedResolvers.reverse filter_reverse⟩

example : (tracedEngine.run (.array query) [] .empty).trail.filter (fun event => !event.silent) =
    [.enter "library", .enter "tags", .leave "tags", .leave "library"] := rfl

end Library

/-! ## A pair of gloves -/

namespace Gloves

/-- Both gloves of a pair are declared by the same alias. -/
def entries : Declarations :=
  [("Pair", .object ⟨0, "Pair"⟩ (some "Pair") [] [
      ⟨"left", .ref ⟨1, "Pair.left"⟩ "Glove" [], false⟩,
      ⟨"right", .ref ⟨2, "Pair.right"⟩ "Glove" [], false⟩]),
    ("Glove", .typeAlias ⟨3, "Glove"⟩ "Glove" [] (.primitive ⟨4, "Glove.type"⟩ .string))]

def graph : Graph := ⟨0, ⟨entries, by decide, by rfl⟩⟩

def pair : LabelledResolver :=
  ⟨graph.nodeAt [.entry "Pair"],
    [("pair", Middleware.set (.object [("left", .string "l"), ("right", .string "r")]))]⟩

/-- Each glove waits for something outside. -/
def waiting : List LabelledResolver :=
  [pair, ⟨graph.nodeAt [.entry "Pair", .field "left"], [("left", Middleware.pause)]⟩,
    ⟨graph.nodeAt [.entry "Pair", .field "right"], [("right", Middleware.pause)]⟩]

def left : LabelledResolver :=
  ⟨graph.nodeAt [.entry "Pair", .field "left", .target], [("left", Middleware.pass)]⟩

def right : LabelledResolver :=
  ⟨graph.nodeAt [.entry "Pair", .field "right", .target], [("right", Middleware.pass)]⟩

def engine (parallel : Bool) (resolvers : List LabelledResolver) : Engine :=
  ⟨{ graph, entry := "Pair", resolvers := .bind (resolvers.map (resolver trace)),
     execution := { parallel }, reach := defaultReach }, Operator.builtin⟩

def both : List Json :=
  [.string "Pair", .object [("kind", .string "select"),
    ("fields", .object [("left", .array []), ("right", .array [])])]]

def onlyLeft : List Json := [.string "Pair", .string "left"]

def run (parallel : Bool) (resolvers : List LabelledResolver) (query : List Json) : Run Json :=
  (engine parallel resolvers).run (.array query) [] .empty

theorem single_of_resolvers {labelled : LabelledResolver}
    (h : labelled ∈ waiting ++ [left, right]) :
    ∀ entry ∈ labelled.labelled, Middleware.Single false entry.2 := by
  have hpause : Middleware.pause.Single false :=
    Middleware.goesOn_of_before (fun context => do Run.wait; return context)
      (fun context event hevent => by cases List.mem_singleton.mp hevent; rfl)
      (fun _ _ _ => trivial) fun _ _ => rfl
  have hpass : Middleware.pass.Single false :=
    Middleware.goesOn_of_before pure (fun _ => nofun) (fun _ _ _ => trivial)
      fun context next => (pure_bind context next).symm
  intro entry hentry
  simp only [waiting, List.cons_append, List.nil_append, List.mem_cons, List.not_mem_nil,
    or_false] at h
  rcases h with rfl | rfl | rfl | rfl | rfl
  · cases List.mem_singleton.mp hentry
    exact Middleware.single_set _
  · cases List.mem_singleton.mp hentry
    exact hpause
  · cases List.mem_singleton.mp hentry
    exact hpause
  · cases List.mem_singleton.mp hentry
    exact hpass
  · cases List.mem_singleton.mp hentry
    exact hpass

/-- No middleware goes on twice or hides an error. Still gloves that are asked for together cross
where they wait: the left one is left before the right one, which was entered after it. And the order
in which resolvers of either glove were registered shows in the traces of both. -/
theorem traces_cross :
    (∀ labelled ∈ waiting ++ [left, right], ∀ entry ∈ labelled.labelled,
      Middleware.Single false entry.2) ∧
    (Engine.assemble graph "Pair" (waiting.map (resolver trace)) []
          { execution := { parallel := true } } = .ok (engine true waiting) ∧
      (run true waiting both).result =
        .ok (.object [("left", .string "l"), ("right", .string "r")]) ∧
      ¬ Nested (run true waiting both).trail) ∧
    (left.node == right.node) = false ∧
      (∀ resolvers ∈ [[pair, left, right], [pair, right, left]],
        Engine.assemble graph "Pair" (resolvers.map (resolver trace)) [] {} =
          .ok (engine false resolvers)) ∧
      (run false [pair, left, right] onlyLeft).trail ≠
        (run false [pair, right, left] onlyLeft).trail := by
  refine ⟨fun _ => single_of_resolvers, ⟨rfl, rfl, fun hnested => ?_⟩, rfl, ?_, fun heq => ?_⟩
  · have hcross : openAfter [] (run true waiting both).trail = none := rfl
    cases hcross.symm.trans hnested
  · intro resolvers hresolvers
    rcases List.mem_cons.mp hresolvers with rfl | hresolvers
    · rfl
    · cases List.mem_singleton.mp hresolvers
      rfl
  · have hlabels := congrArg (fun log => openAfter [] (log.take 6)) heq
    revert hlabels
    decide

end Gloves

end PathQuery
