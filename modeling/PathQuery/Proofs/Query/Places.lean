import PathQuery.Engine
import PathQuery.Proofs.Query.Compilation
import PathQuery.Proofs.Siblings

/-!
# Lines of places

A place is a node together with what a query asks there. The nodes that are being resolved at one
time form a line: a descent of the query leads from each of them to the next (`Setting.Line`). A
`path` instruction is no place of its own; it leads to the root. `RunInvariant.Kept` lists what
makes an invariant hold in every run below a place (`RunInvariant.Kept.evaluate`): sequences keep
it, and so does the middleware of one node if the descent of that node does.
-/

set_option autoImplicit false

namespace PathQuery

structure Place where
  node : Node
  query : List Json

namespace Demand

/-- The input that the query attaches to the node. -/
def input? : Demand → Option Json
  | through input _ _ => input
  | items excerpt _ _ => excerpt.input?
  | _ => none

/-- Where a demand goes on: behind a wrapper, a call or the name of a union member, at a property,
at the items of a list, or at the member that a value of a union turns out to be. -/
inductive Leads (setting : Setting) (node : Node) : Demand → Place → Prop where
  | through {input : Option Json} {child : Node} {rest : List Json} :
      Leads setting node (through input child rest) ⟨child, rest⟩
  | property {name : String} {optional : Bool} {child : Node} {rest : List Json} :
      Leads setting node (property name optional child rest) ⟨child, rest⟩
  | member {head : Json} {properties : List (Property Structure)}
      {requested : List (String × Json)} {field : String × Json} {optional : Bool} {child : Node}
      {query : List Json} (hfield : field ∈ requested)
      (hchild : node.requested head properties field = .ok (optional, child, query)) :
      Leads setting node (members head properties requested) ⟨child, query⟩
  | item {excerpt : Excerpt} {item : Node} {rest : List Json} :
      Leads setting node (items excerpt item rest) ⟨item, rest⟩
  | matched {query : List Json} {value : Json} {member : Node}
      (hmember : (Matching.selectMember setting.reach node (some value) none).result = .ok member) :
      Leads setting node (matched query) ⟨member, query⟩

end Demand

namespace Setting

variable {setting : Setting} {start outer inner place : Place} {above : List Place}

/-- The place that is resolved for a place: another one only where the query starts again. -/
inductive Arrives (setting : Setting) : Place → Place → Prop where
  | here {place : Place} {demand : Demand} (hdemand : setting.demand place.node place.query = .ok demand)
      (hanew : ∀ query, demand ≠ .anew query) : Arrives setting place place
  | anew {place next : Place} {query : List Json}
      (hdemand : setting.demand place.node place.query = .ok (.anew query))
      (hnext : Arrives setting ⟨setting.graph.root, query⟩ next) : Arrives setting place next

/-- One descent of the query leads from the outer place to the inner one. -/
def Descends (setting : Setting) (outer inner : Place) : Prop :=
  ∃ demand next, setting.demand outer.node outer.query = .ok demand ∧
    demand.Leads setting outer.node next ∧ setting.Arrives next inner

/-- The places that may be resolved at one time, the outermost one first. -/
inductive Line (setting : Setting) (start : Place) : List Place → Prop where
  | nil : Line setting start []
  | first {place : Place} (h : setting.Arrives start place) : Line setting start [place]
  | next {above : List Place} {outer inner : Place} (habove : Line setting start (above ++ [outer]))
      (h : setting.Descends outer inner) : Line setting start (above ++ [outer] ++ [inner])

/-- Every place that is resolved for this one continues the line. -/
def Continues (setting : Setting) (start : Place) (above : List Place) (place : Place) : Prop :=
  setting.Line start above ∧ ∀ next, setting.Arrives place next → setting.Line start (above ++ [next])

theorem continues_start (setting : Setting) (start : Place) : setting.Continues start [] start :=
  ⟨.nil, fun _ h => .first h⟩

theorem Continues.line {demand : Demand} (h : setting.Continues start above place)
    (hdemand : setting.demand place.node place.query = .ok demand)
    (hanew : ∀ query, demand ≠ .anew query) : setting.Line start (above ++ [place]) :=
  h.2 place (.here hdemand hanew)

theorem Continues.leads {demand : Demand} {next : Place}
    (h : setting.Line start (above ++ [place]))
    (hdemand : setting.demand place.node place.query = .ok demand)
    (hleads : demand.Leads setting place.node next) :
    setting.Continues start (above ++ [place]) next :=
  ⟨h, fun _ harrives => .next h ⟨demand, next, hdemand, hleads, harrives⟩⟩

theorem Continues.anew {query : List Json} (h : setting.Continues start above place)
    (hdemand : setting.demand place.node place.query = .ok (.anew query)) :
    setting.Continues start above ⟨setting.graph.root, query⟩ :=
  ⟨h.1, fun _ harrives => h.2 _ (.anew hdemand harrives)⟩

/-- The places that a query may come to: demands lead there, or it starts again at the root. -/
inductive Comes (setting : Setting) : Place → Place → Prop where
  | here (place : Place) : Comes setting place place
  | leads {outer next place : Place} {demand : Demand}
      (hdemand : setting.demand outer.node outer.query = .ok demand)
      (hleads : demand.Leads setting outer.node next) (hnext : Comes setting next place) :
      Comes setting outer place
  | anew {outer place : Place} {query : List Json}
      (hdemand : setting.demand outer.node outer.query = .ok (.anew query))
      (hnext : Comes setting ⟨setting.graph.root, query⟩ place) : Comes setting outer place

end Setting

theorem Operator.exists_of_mem_compileFields {position : Position} {node : Node} {head : Json}
    {properties : List (Property Structure)} {requested : List (String × Json)}
    {fields : List Selection} {selection : Selection}
    (h : (compileFields position node head properties requested).result = .ok fields)
    (hmem : selection ∈ fields) :
    ∃ field ∈ requested, Selects position node head properties field selection :=
  (forall₂_of_compileFields h).exists_of_mem hmem

/-! ## Invariants of runs -/

/-- What is known of contexts and of runs while the places of a line are being resolved. -/
structure RunInvariant where
  context : List Place → Context → Prop
  run : List Place → ∀ {α : Type}, Run α → Prop

namespace RunInvariant

/-- Sequences and siblings keep the invariant, and the middleware of a place keeps it if its descent
does. -/
structure Kept (invariant : RunInvariant) (setting : Setting) (start : Place) : Prop where
  walk : ∀ {line} {α : Type}, setting.Line start line → ∀ walk : Walk α,
    invariant.run line (Walk.run walk)
  bind : ∀ {line} {α β : Type} {run : Run α} {f : α → Run β}, invariant.run line run →
    (∀ value, run.result = .ok value → invariant.run line (f value)) →
      invariant.run line (run >>= f)
  all : ∀ {line} {α : Type} {runs : List (Run α)}, setting.Line start line →
    (∀ run ∈ runs, invariant.run line run) →
      invariant.run line (Run.all setting.execution.parallel runs)
  push : ∀ {line context}, invariant.context line context →
    ∀ key : Key, key ≠ .node ∧ key ≠ .input → ∀ (value : key.Value) scope,
      invariant.context line (context.push key value scope)
  enclose : ∀ {above place demand}, setting.Line start (above ++ [place]) →
    setting.demand place.node place.query = .ok demand → ∀ {descent : Descent},
      (∀ context, invariant.context (above ++ [place]) context →
        invariant.run (above ++ [place]) (descent context)) →
      ∀ {context}, invariant.context above context →
        invariant.run above
          ((Descent.enclose setting.resolvers place.node demand.input? descent).evaluate context)

namespace Kept

variable {invariant : RunInvariant} {setting : Setting} {start : Place}
  (kept : invariant.Kept setting start) {line : List Place} {context : Context}

include kept

theorem pure {α : Type} (hline : setting.Line start line) (value : α) :
    invariant.run line (Pure.pure value : Run α) :=
  kept.walk hline (Pure.pure value : Walk α)

theorem ofExcept {α : Type} (hline : setting.Line start line) (result : Except Error α) :
    invariant.run line (Traced.ofExcept result : Run α) :=
  kept.walk hline (Traced.ofExcept result : Walk α)

theorem setValue (h : invariant.context line context) (value : Option Json) :
    invariant.context line (context.setValue value) :=
  kept.push h .value (by decide) value none

theorem onSettled (hline : setting.Line start line) (optional : Bool) (node : Node)
    {go : Context → Json → Run (Option Json)}
    (hgo : ∀ value, invariant.run line (go context value)) :
    invariant.run line (Descent.onSettled optional node go context) := by
  refine kept.bind (kept.ofExcept hline _) fun settled _ => ?_
  cases settled with
  | none => exact kept.pure hline _
  | some value => exact hgo value

theorem passMarks (h : invariant.context line context) (outer inner : Node) :
    invariant.context line (Descent.passMarks outer inner context) := by
  have hfilled : invariant.context line
      (if context.fillsEmpty outer then context.push .fillEmpty () (some inner) else context) := by
    split
    · exact kept.push h .fillEmpty (by decide) () _
    · exact h
  unfold Descent.passMarks
  dsimp only
  generalize (if context.fillsEmpty outer then context.push .fillEmpty () (some inner)
    else context) = filled at hfilled ⊢
  split
  · exact kept.push hfilled .sliced (by decide) () _
  · exact hfilled

theorem excerpt (hline : setting.Line start line) (excerpt : Excerpt) (node : Node)
    {inner : Middleware} (h : invariant.context line context)
    (hinner : ∀ context, invariant.context line context →
      invariant.run line (inner.evaluate context)) (value : Json) :
    invariant.run line
      (excerpt.run setting.execution.parallel node inner context value) := by
  unfold Excerpt.run
  split
  · next list =>
    have hinside : invariant.context line (context.push .parent (.array list)) :=
      kept.push h .parent (by decide) _ none
    have hitem (item : Json × Nat) :
        invariant.run line (Excerpt.runItem inner (context.push .parent (.array list)) item) := by
      apply hinner
      exact kept.setValue (kept.push hinside .index (by decide) item.2 none) _
    simp only
    split
    · split
      · exact hitem _
      · exact kept.pure hline _
    · refine kept.bind (kept.all hline fun run hrun => ?_) fun _ _ => kept.pure hline _
      obtain ⟨item, _, rfl⟩ := List.mem_map.mp hrun
      exact hitem item
  · exact kept.pure hline _

theorem project (hline : setting.Line start line) (h : invariant.context line context)
    (given : List (String × Json)) {fields : List Operator.Selection}
    (hfields : ∀ selection ∈ fields, ∀ context, invariant.context line context →
      invariant.run line (selection.2.evaluate context)) :
    invariant.run line
      (Operator.project setting.execution.parallel context given fields) := by
  refine kept.bind (kept.all hline fun run hrun => ?_) fun _ _ => kept.pure hline _
  obtain ⟨selection, hselection, rfl⟩ := List.mem_map.mp hrun
  exact hfields selection hselection _ (kept.setValue h _)

/-- What is compiled with this many levels left keeps the invariant. -/
def At (invariant : RunInvariant) (setting : Setting) (start : Place) (levels : Nat) : Prop :=
  ∀ {optional place inner above}, setting.Continues start above place →
    (setting.compile Operator.builtin levels optional place.node place.query).result = .ok inner →
      ∀ {context}, invariant.context above context → invariant.run above (inner.evaluate context)

theorem assemble {levels : Nat} (ih : At invariant setting start levels) {optional : Bool}
    {place : Place} {above : List Place} {demand : Demand} {middleware : Middleware}
    (hcontinues : setting.Continues start above place)
    (hdemand : setting.demand place.node place.query = .ok demand)
    (h : demand.assemble ⟨setting, optional, setting.compile Operator.builtin levels⟩ place.node =
      .ok middleware)
    (hcontext : invariant.context above context) :
    invariant.run above (middleware.evaluate context) := by
  by_cases hanew : ∃ query, demand = .anew query
  case pos =>
    obtain ⟨query, rfl⟩ := hanew
    obtain ⟨inner, hinner, rfl⟩ := Except.map_eq_ok_iff.mp h
    refine kept.bind (kept.bind ?_ fun _ _ => kept.pure hcontinues.1 _) fun _ _ =>
      kept.pure hcontinues.1 _
    exact ih (hcontinues.anew hdemand) hinner (kept.setValue hcontext none)
  -- every other demand is enclosed, so that its place is the last of a longer line
  have hline := hcontinues.line hdemand fun query heq => hanew ⟨query, heq⟩
  have below {next : Place} {flag : Bool} {inner : Middleware}
      (hleads : demand.Leads setting place.node next)
      (hinner : (setting.compile Operator.builtin levels flag next.node next.query).result =
        .ok inner) (context : Context) (hcontext : invariant.context (above ++ [place]) context) :
      invariant.run (above ++ [place]) (inner.evaluate context) :=
    ih (Setting.Continues.leads hline hdemand hleads) hinner hcontext
  have settled {go : Context → Json → Run (Option Json)}
      (hgo : ∀ context value, invariant.context (above ++ [place]) context →
        invariant.run (above ++ [place]) (go context value)) :
      invariant.run above ((Descent.enclose setting.resolvers place.node demand.input?
        (Descent.onSettled optional place.node go)).evaluate context) :=
    kept.enclose hline hdemand (fun context hcontext =>
      kept.onSettled hline optional place.node fun value => hgo context value hcontext)
      hcontext
  cases demand with
  | anew query => exact absurd ⟨query, rfl⟩ hanew
  | whole =>
    cases h
    exact settled fun _ _ _ => kept.pure hline _
  | through input child rest =>
    obtain ⟨inner, hinner, rfl⟩ := Except.map_eq_ok_iff.mp h
    refine kept.enclose hline hdemand (fun context hcontext => ?_) hcontext
    unfold Descent.through
    split
    · exact kept.pure hline _
    · exact below .through hinner _ (kept.passMarks hcontext _ _)
  | property name flag child rest =>
    obtain ⟨inner, hinner, rfl⟩ := Except.map_eq_ok_iff.mp h
    refine settled fun context value hcontext => ?_
    exact below .property hinner _
      (kept.setValue (kept.push hcontext .parent (by decide) value none) _)
  | members head properties requested =>
    obtain ⟨fields, hfields, rfl⟩ := Except.map_eq_ok_iff.mp h
    refine settled fun context value hcontext => ?_
    unfold Demand.intoMembers
    split
    · refine kept.bind ?_ fun _ _ => kept.pure hline _
      apply kept.project hline (kept.push hcontext .parent (by decide) _ none)
      intro selection hmem context hcontext
      obtain ⟨field, hfield, _, _, _, _, hrequested, hinner⟩ :=
        Operator.exists_of_mem_compileFields hfields hmem
      exact below (.member hfield hrequested) hinner context hcontext
    · exact kept.pure hline _
  | items excerpt item rest =>
    obtain ⟨inner, hinner, rfl⟩ := Except.map_eq_ok_iff.mp h
    refine settled fun context value hcontext => ?_
    exact kept.excerpt hline excerpt place.node hcontext (below .item hinner) value
  | matched query =>
    cases h
    refine settled fun context value hcontext => ?_
    refine kept.bind (kept.walk hline _) fun inner hinner => ?_
    rw [Walk.run, Traced.result_mapTrail, Traced.result_bind] at hinner
    obtain ⟨member, hmember, hinner⟩ := Except.bind_eq_ok_iff.mp hinner
    exact below (.matched hmember) hinner _ (kept.setValue hcontext _)

theorem at_levels (levels : Nat) : At invariant setting start levels := by
  induction levels with
  | zero =>
    intro _ _ _ _ _ h
    cases h
  | succ levels ih =>
    intro optional place inner above hcontinues h context hcontext
    rw [Setting.compile_succ] at h
    obtain ⟨demand, hdemand, h⟩ := Except.bind_eq_ok_iff.mp h
    exact kept.assemble ih hcontinues hdemand h hcontext

/-- An invariant that is kept holds in the run of what is compiled for the start. -/
theorem evaluate {levels : Nat} {optional : Bool} {inner : Middleware}
    (h : (setting.compile Operator.builtin levels optional start.node start.query).result =
      .ok inner) (hcontext : invariant.context [] context) :
    invariant.run [] (inner.evaluate context) :=
  kept.at_levels levels (setting.continues_start start) h hcontext

omit kept in
theorem evaluate_plan {engine : Engine} (hoperators : engine.operators = Operator.builtin)
    {instructions : List Json}
    (kept : invariant.Kept engine.setting ⟨engine.setting.graph.root, instructions⟩)
    {middleware : Middleware} (h : (engine.plan instructions).result = .ok middleware)
    (hcontext : invariant.context [] context) : invariant.run [] (middleware.evaluate context) := by
  unfold Engine.plan at h
  rw [hoperators] at h
  exact kept.evaluate h hcontext

end Kept

end RunInvariant

end PathQuery
