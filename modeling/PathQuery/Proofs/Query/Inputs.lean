import PathQuery.Proofs.Query.Nesting

/-!
# Inputs along a line

An input is found for its node wherever the node is resolved below the place that it was attached
at. So the middlewares of a node see the input of the innermost place of the line that stands at
their node and attaches one (`Engine.input_of_peek`). Without a `path` instruction no node comes
twice on a line, and the input is the one that the query attaches right there; behind one, a place
that attaches nothing lets the input of an outer place of the same node show
(`Library.input_behind_path`).
-/

set_option autoImplicit false

namespace PathQuery

open Run (Logs)
open LabelledResolver (resolver labelledAt labelsAt openAt)

/-! ## Inputs in a context -/

namespace Context

/-- Both have the same active node, and the same input for every node. -/
structure SameInputs (context context' : Context) : Prop where
  node : context'.get? .node = context.get? .node
  input : ∀ node, context'.inputOf? node = context.inputOf? node

theorem sameInputs_push (context : Context) {key : Key} (hkey : key ≠ .node ∧ key ≠ .input)
    (value : key.Value) (scope : Option Node) : context.SameInputs (context.push key value scope) where
  node := context.get?_push_of_ne hkey.1 value scope none
  input node := context.get?_push_of_ne hkey.2 value scope (some node)

theorem SameInputs.refl (context : Context) : context.SameInputs context :=
  ⟨rfl, fun _ => rfl⟩

theorem SameInputs.trans {context context' context'' : Context} (h : context.SameInputs context')
    (h' : context'.SameInputs context'') : context.SameInputs context'' where
  node := h'.node.trans h.node
  input node := (h'.input node).trans (h.input node)

theorem inputOf?_attach (context : Context) (node other : Node) (input : Option Json) :
    (Descent.attach node input context).inputOf? other =
      if node == other then input.or (context.inputOf? other) else context.inputOf? other := by
  cases input with
  | none =>
    rw [Option.none_or, ite_self]
    rfl
  | some input =>
    unfold Descent.attach inputOf?
    rw [get?_push]
    by_cases h : (node == other) = true
    · simp [Layer.value?, h]
    · simp [Layer.value?, h]

theorem inputOf?_enter (context : Context) (node other : Node) :
    (context.enter node).inputOf? other = context.inputOf? other :=
  context.get?_push_of_ne (by decide : Key.node ≠ .input) node none (some other)

/-- The context in which the middlewares of a node start. -/
theorem node_attach_enter (context : Context) (node : Node) (input : Option Json) :
    (Descent.attach node input (context.enter node)).get? .node = some node := by
  rw [Descent.get?_attach_of_ne _ _ _ (by decide : Key.node ≠ .input)]
  exact context.get?_push_self .node node

end Context

namespace Setting

variable {setting : Setting} {start place : Place} {above : List Place} {seed : Context}

/-- The input that the instruction at a place attaches to its node: the arguments of a call, the page
that is asked for, or none. -/
def attached (setting : Setting) (place : Place) : Option Json :=
  (setting.demand place.node place.query).toOption.bind Demand.input?

/-- The input of the last place of a line that stands at the node and attaches one. -/
def inputAt (setting : Setting) (seed : Context) (line : List Place) (node : Node) : Option Json :=
  line.foldl (fun found place =>
    if place.node == node then (setting.attached place).or found else found) (seed.inputOf? node)

theorem inputAt_concat (setting : Setting) (seed : Context) (above : List Place) (place : Place)
    (node : Node) : setting.inputAt seed (above ++ [place]) node =
      if place.node == node then (setting.attached place).or (setting.inputAt seed above node)
      else setting.inputAt seed above node := by
  unfold inputAt
  rw [List.foldl_append, List.foldl_cons, List.foldl_nil]

theorem attached_of_demand {demand : Demand}
    (h : setting.demand place.node place.query = .ok demand) :
    setting.attached place = demand.input? := by
  rw [attached, h]
  rfl

end Setting

/-! ## Peeks -/

/-- A visit at which no sibling goes on. -/
def Event.passing (parallel : Bool) : Event → Bool
  | visit stopover => !Run.yields parallel (visit stopover)
  | _ => false

theorem Event.unnoticed_of_passing {parallel : Bool} {event : Event}
    (h : event.passing parallel = true) : event.unnoticed parallel = true := by
  cases event with
  | visit stopover => exact h
  | enter _ | leave _ | peek _ _ => cases h

namespace Middleware

/-- Opens a trace and shows the context in it. -/
def traceAndPeek (label : String) : Middleware :=
  andThen (trace label) (peek label)

theorem logs_traceAndPeek {parallel : Bool} {good : List String → Prop}
    {fine : List String → String → Snapshot → Prop} {entered : List String} {label : String}
    {context : Context} {next : Continuation} (hgood : good entered)
    (hfine : fine (entered ++ [label]) label context.snapshot)
    (h : (next context).Logs parallel good fine (entered ++ [label])) :
    (traceAndPeek label context next).Logs parallel good fine entered := by
  unfold traceAndPeek andThen
  apply logs_trace hgood
  exact logs_peek hfine h

theorem mem_trail_traceAndPeek {label name : String} {seen : Snapshot} {context : Context}
    {next : Continuation} (h : .peek name seen ∈ (traceAndPeek label context next).trail) :
    name = label ∧ seen = context.snapshot ∨ .peek name seen ∈ (next context).trail := by
  unfold traceAndPeek andThen trace peek at h
  rcases Traced.mem_trail_bind h with h | ⟨_, _, h⟩
  · cases List.mem_singleton.mp h
  · rcases Traced.mem_trail_bind h with h | ⟨_, _, h⟩
    · rcases Traced.mem_trail_bind h with h | ⟨_, _, h⟩
      · cases List.mem_singleton.mp h
        exact .inl ⟨rfl, rfl⟩
      · exact .inr h
    · cases List.mem_singleton.mp h

/-- Shows nothing by itself, and leaves the inputs as they are for the rest of the chain, which it may
run as often as it likes. -/
def KeepsInputs (middleware : Middleware) : Prop :=
  ∀ context next label seen, .peek label seen ∈ (middleware context next).trail →
    ∃ context', context.SameInputs context' ∧ .peek label seen ∈ (next context').trail

theorem keepsInputs_set (value : Json) : (set value).KeepsInputs :=
  fun context _ _ _ h => ⟨_, context.sameInputs_push (by decide) _ none, h⟩

/-- Goes on at most once, with the inputs as they are; logs nothing by itself, and does not wait where
siblings go on in the meantime. -/
def PassesInputs (parallel : Bool) (middleware : Middleware) : Prop :=
  middleware.GoesOn (Event.passing parallel) Context.SameInputs

theorem passesInputs_set {parallel : Bool} (value : Json) : (set value).PassesInputs parallel :=
  goesOn_set value fun context => context.sameInputs_push (by decide) _ none

/-- What is shown in a chain is shown by one of those that watch it, or behind the chain. -/
theorem mem_trail_compose {labelled : List (String × Middleware)}
    (h : ∀ entry ∈ labelled, KeepsInputs entry.2) {context : Context} {next : Continuation}
    {label : String} {seen : Snapshot}
    (hpeek : .peek label seen ∈ (compose (watched traceAndPeek labelled) context next).trail) :
    ∃ context', context.SameInputs context' ∧
      ((∃ part, part ++ [label] <+: labelled.map Prod.fst ∧ seen = context'.snapshot) ∨
        .peek label seen ∈ (next context').trail) := by
  induction labelled generalizing context with
  | nil => exact ⟨context, .refl context, .inr hpeek⟩
  | cons first rest ih =>
    obtain ⟨hfirst, hrest⟩ := List.forall_mem_cons.mp h
    rcases mem_trail_traceAndPeek hpeek with ⟨rfl, rfl⟩ | hpeek
    · exact ⟨context, .refl context, .inl ⟨[], List.prefix_append _ _, rfl⟩⟩
    · obtain ⟨inside, hinside, hpeek⟩ := hfirst _ _ _ _ hpeek
      obtain ⟨context', hcontext', hshown⟩ := ih hrest hpeek
      refine ⟨context', hinside.trans hcontext', hshown.imp_left ?_⟩
      rintro ⟨part, hpart, hseen⟩
      exact ⟨first.1 :: part, (List.prefix_cons_inj first.1).mpr hpart, hseen⟩

end Middleware

/-- A peek in the chain of a place, behind the traces of a first part of it, that shows the input of
its line. -/
structure PeekedAt (setting : Setting) (start : Place) (seed : Context)
    (resolvers : List LabelledResolver) (label : String) (seen : Snapshot) (above : List Place)
    (place : Place) (part : List String) : Prop where
  line : setting.Line start (above ++ [place])
  behind : part ++ [label] <+: labelsAt resolvers place.node.shape
  node : seen.nodeKey = some place.node.key
  input : seen.input = setting.inputAt seed (above ++ [place]) place.node

namespace LabelledResolver

variable {setting : Setting} {start : Place} {seed : Context} {resolvers : List LabelledResolver}

section

variable {above : List Place} {place : Place} {demand : Demand} {context : Context}

/-- The chain of a place starts with the inputs of the longer line. -/
theorem inputOf?_begun (hdemand : setting.demand place.node place.query = .ok demand)
    (hcontext : ∀ node, context.inputOf? node = setting.inputAt seed above node) (node : Node) :
    (Descent.attach place.node demand.input? (context.enter place.node)).inputOf? node =
      setting.inputAt seed (above ++ [place]) node := by
  rw [Context.inputOf?_attach, Context.inputOf?_enter, hcontext, Setting.inputAt_concat,
    Setting.attached_of_demand hdemand]

theorem peekedAt_of_sameInputs (hline : setting.Line start (above ++ [place]))
    (hdemand : setting.demand place.node place.query = .ok demand)
    (hcontext : ∀ node, context.inputOf? node = setting.inputAt seed above node)
    {context' : Context}
    (hsame : (Descent.attach place.node demand.input? (context.enter place.node)).SameInputs
      context') {part : List String} {label : String}
    (hpart : part ++ [label] <+: labelsAt resolvers place.node.shape) :
    PeekedAt setting start seed resolvers label context'.snapshot above place part := by
  have hactive : context'.get? .node = some place.node :=
    hsame.node.trans (context.node_attach_enter place.node demand.input?)
  refine ⟨hline, hpart, ?_, ?_⟩
  · rw [Context.snapshot, hactive]
    rfl
  · rw [Context.snapshot, hactive]
    exact (hsame.input place.node).trans (inputOf?_begun hdemand hcontext place.node)

end

/-- The inputs of contexts are those of the line, and so are the inputs that peeks show. -/
def inputs (setting : Setting) (start : Place) (seed : Context)
    (resolvers : List LabelledResolver) : RunInvariant where
  context line context := ∀ node, context.inputOf? node = setting.inputAt seed line node
  run _ _ run := ∀ label seen, .peek label seen ∈ run.trail →
    ∃ above place part, PeekedAt setting start seed resolvers label seen above place part

theorem kept_inputs
    (hresolvers : setting.resolvers = .bind (resolvers.map (resolver Middleware.traceAndPeek)))
    (hkeeps : ∀ labelled ∈ resolvers, ∀ entry ∈ labelled.labelled,
      Middleware.KeepsInputs entry.2) :
    (inputs setting start seed resolvers).Kept setting start where
  walk _ walk _ _ hpeek := by
    obtain ⟨_, _, heq⟩ := List.mem_map.mp hpeek
    cases heq
  bind hrun hf label seen hpeek := by
    rcases Traced.mem_trail_bind hpeek with hpeek | ⟨value, hvalue, hpeek⟩
    · exact hrun label seen hpeek
    · exact hf value hvalue label seen hpeek
  all _ hruns label seen hpeek := by
    obtain ⟨run, hrun, hpeek⟩ := Run.mem_trail_all hpeek
    exact hruns run hrun label seen hpeek
  push {line context} hcontext key hkey value scope node :=
    ((context.sameInputs_push hkey value scope).input node).trans (hcontext node)
  enclose {above place demand} hline hdemand descent hdescent context hcontext label seen hpeek := by
    rw [Middleware.evaluate_enclose, hresolvers, atShape_bind, Traced.trail_map] at hpeek
    have hlabelled : ∀ entry ∈ labelledAt resolvers place.node.shape,
        Middleware.KeepsInputs entry.2 := by
      intro entry hentry
      obtain ⟨labelled, hlabelled, hentry⟩ := mem_labelled_of_mem_labelledAt hentry
      exact hkeeps labelled hlabelled entry hentry
    obtain ⟨context', hsame, ⟨part, hpart, rfl⟩ | hpeek⟩ :=
      Middleware.mem_trail_compose hlabelled hpeek
    · exact ⟨above, place, part, peekedAt_of_sameInputs hline hdemand hcontext hsame hpart⟩
    · rw [Descent.core, bind_pure_comp, Traced.trail_map] at hpeek
      refine hdescent context' (fun node => ?_) label seen hpeek
      exact (hsame.input node).trans (inputOf?_begun hdemand hcontext node)

/-- The same, with the traces that are open at every peek. -/
def openInputs (setting : Setting) (start : Place) (seed : Context)
    (resolvers : List LabelledResolver) : RunInvariant where
  context line context := ∀ node, context.inputOf? node = setting.inputAt seed line node
  run line _ run := run.Logs setting.execution.parallel (fun _ => True)
    (fun now label seen => ∃ above place part, now = openAt resolvers above (part ++ [label]) ∧
      PeekedAt setting start seed resolvers label seen above place part)
    (line.flatMap fun place => labelsAt resolvers place.node.shape)

theorem kept_openInputs
    (hresolvers : setting.resolvers = .bind (resolvers.map (resolver Middleware.traceAndPeek)))
    (hpasses : ∀ labelled ∈ resolvers, ∀ entry ∈ labelled.labelled,
      Middleware.PassesInputs setting.execution.parallel entry.2) :
    (openInputs setting start seed resolvers).Kept setting start where
  walk _ _ := Logs.of_walk trivial
  bind := Logs.bind
  all _ := Logs.all trivial
  push {line context} hcontext key hkey value scope node :=
    ((context.sameInputs_push hkey value scope).input node).trans (hcontext node)
  enclose {above place demand} hline hdemand descent hdescent context hcontext := by
    rw [Middleware.evaluate_enclose, hresolvers, atShape_bind]
    apply Logs.map
    refine Middleware.logs_compose
      (Descent.attach place.node demand.input? (context.enter place.node)).SameInputs ?_ ?_
      (.refl _) ?_
    · intro part label hpart context' next hsame h
      rw [← List.append_assoc] at h
      refine Middleware.logs_traceAndPeek trivial ⟨above, place, part, ?_, ?_⟩ h
      · rw [openAt, List.append_assoc]
      · exact peekedAt_of_sameInputs hline hdemand hcontext hsame hpart
    · intro entry hentry entered context' next _ hsame hnext
      obtain ⟨labelled, hlabelled, hentry⟩ := mem_labelled_of_mem_labelledAt hentry
      apply (hpasses labelled hlabelled entry hentry).logs
      · intro run hnotes
        refine Logs.of_unnoticed (fun event hevent => ?_) trivial fun label seen hmem => ?_
        · exact Event.unnoticed_of_passing (hnotes event hevent)
        · cases hnotes _ hmem
      · exact fun context'' hnear => hnext context'' (hsame.trans hnear)
    · intro context' hsame
      have h := hdescent context' fun node =>
        (hsame.input node).trans (inputOf?_begun hdemand hcontext node)
      dsimp only [openInputs] at h
      rw [List.flatMap_append, List.flatMap_singleton] at h
      exact h.core

end LabelledResolver

/-! ## Lines without a way back -/

namespace Setting

variable {setting : Setting} {start place next : Place} {above line : List Place} {seed : Context}

/-- The places that demands lead to from a start. -/
inductive Asked (setting : Setting) (start : Place) : Place → Prop where
  | start : Asked setting start start
  | leads {outer inner : Place} {demand : Demand} (houter : Asked setting start outer)
      (hdemand : setting.demand outer.node outer.query = .ok demand)
      (hleads : demand.Leads setting outer.node inner) : Asked setting start inner

/-- Nothing that is asked starts again at the root. -/
def Straight (setting : Setting) (start : Place) : Prop :=
  ∀ place, setting.Asked start place →
    ∀ query, setting.demand place.node place.query ≠ .ok (.anew query)

theorem child?_of_leads {outer inner : Place} {demand : Demand}
    (hdemand : setting.demand outer.node outer.query = .ok demand)
    (hleads : demand.Leads setting outer.node inner) :
    ∃ step, outer.node.child? step = .ok inner.node := by
  have hsuits := suits_demand hdemand
  cases hleads with
  | through =>
    obtain ⟨_, _, step, hstep⟩ := hsuits
    exact ⟨step, hstep⟩
  | property => exact ⟨_, hsuits.2⟩
  | member _ hchild => exact ⟨_, Node.child?_of_requested hchild⟩
  | item => exact ⟨_, hsuits.2⟩
  | matched hmember =>
    obtain ⟨index, hindex⟩ := Matching.memberOf_of_selectMember hmember
    exact ⟨_, hindex⟩

theorem Straight.eq_of_arrives (h : setting.Straight start) (hplace : setting.Asked start place)
    (harrives : setting.Arrives place next) : next = place := by
  cases harrives with
  | here => rfl
  | anew hdemand => exact absurd hdemand (h place hplace _)

/-- A straight line goes down. -/
theorem Straight.length_lt (h : setting.Straight start) (hline : setting.Line start line) :
    ∀ {above place}, line = above ++ [place] → setting.Asked start place ∧
      ∀ outer ∈ above, outer.node.trace.length < place.node.trace.length := by
  induction hline with
  | nil =>
    intro above place heq
    cases above <;> cases heq
  | first harrives =>
    intro above place heq
    have heq' : ([] : List Place) ++ [_] = above ++ [place] := heq
    obtain ⟨rfl, hplace⟩ := List.append_inj' heq' rfl
    cases hplace
    cases h.eq_of_arrives .start harrives
    exact ⟨.start, nofun⟩
  | @next before outer inner _ hdescends ih =>
    intro above place heq
    obtain ⟨rfl, hplace⟩ := List.append_inj' heq rfl
    cases hplace
    obtain ⟨houter, hlonger⟩ := ih rfl
    obtain ⟨demand, next, hdemand, hleads, harrives⟩ := hdescends
    have hnext : setting.Asked start next := .leads houter hdemand hleads
    cases h.eq_of_arrives hnext harrives
    obtain ⟨step, hstep⟩ := child?_of_leads hdemand hleads
    have htrace : inner.node.trace.length = outer.node.trace.length + 1 := by
      rw [Node.trace_of_child? hstep, List.length_cons]
    refine ⟨hnext, fun other hother => ?_⟩
    rcases List.mem_append.mp hother with hother | hother
    · have := hlonger other hother
      omega
    · cases List.mem_singleton.mp hother
      omega

/-- On a straight line a node has the input that is attached right there. -/
theorem Straight.inputAt_eq (h : setting.Straight start)
    (hline : setting.Line start (above ++ [place])) :
    setting.inputAt seed (above ++ [place]) place.node =
      (setting.attached place).or (seed.inputOf? place.node) := by
  have hne : ∀ outer ∈ above, (outer.node == place.node) = false := by
    intro outer houter
    have hlt := (h.length_lt hline rfl).2 outer houter
    rw [← Bool.not_eq_true, Node.beq_iff]
    rintro ⟨_, htrace⟩
    rw [htrace] at hlt
    exact Nat.lt_irrefl _ hlt
  have habove : setting.inputAt seed above place.node = seed.inputOf? place.node := by
    unfold inputAt
    generalize seed.inputOf? place.node = found
    clear hline
    induction above with
    | nil => rfl
    | cons outer rest ih =>
      rw [List.foldl_cons, hne outer List.mem_cons_self]
      exact ih fun other hother => hne other (List.mem_cons_of_mem _ hother)
  have hself : (place.node == place.node) = true := (Node.beq_iff _ _).mpr ⟨rfl, rfl⟩
  rw [inputAt_concat, if_pos hself, habove]

end Setting

/-! ## Engines -/

namespace Engine

variable {graph : Graph} {entry : String} {resolvers : List LabelledResolver}
  {configuration : Configuration} {engine : Engine}

/-- If nothing starts again at the root, a peek shows what is attached at its place. -/
theorem input_of_peek_straight {instructions : List Json} {context : Context} {label : String}
    {seen : Snapshot} {above : List Place} {place : Place} {part : List String}
    (h : PeekedAt engine.setting ⟨engine.setting.graph.root, instructions⟩ context resolvers label
      seen above place part)
    (hstraight : engine.setting.Straight ⟨engine.setting.graph.root, instructions⟩) :
    seen.input = (engine.setting.attached place).or (context.inputOf? place.node) := by
  rw [h.input, hstraight.inputAt_eq h.line]

theorem peekedAt_of_peek
    (h : assemble graph entry (resolvers.map (resolver Middleware.traceAndPeek)) [] configuration =
      .ok engine)
    (hkeeps : ∀ labelled ∈ resolvers, ∀ entry ∈ labelled.labelled, Middleware.KeepsInputs entry.2)
    {query : Json} {values : List Json} {context : Context} {label : String} {seen : Snapshot}
    (hpeek : .peek label seen ∈ (engine.run query values context).trail) :
    ∃ instructions above place part, engine.instructions query values = .ok instructions ∧
      PeekedAt engine.setting ⟨engine.setting.graph.root, instructions⟩ context resolvers label
        seen above place part := by
  rcases Traced.mem_trail_bind hpeek with hpeek | ⟨instructions, hinstructions, hpeek⟩
  · cases hpeek
  rcases Traced.mem_trail_bind hpeek with hpeek | ⟨middleware, hplan, hpeek⟩
  · obtain ⟨_, _, heq⟩ := List.mem_map.mp hpeek
    cases heq
  rcases Traced.mem_trail_bind hpeek with hpeek | ⟨_, _, hpeek⟩
  · obtain ⟨above, place, part, hpeeked⟩ :=
      (LabelledResolver.kept_inputs (resolvers_of_assemble h) hkeeps).evaluate_plan
        (operators_of_assemble h) hplan
        (fun _ => rfl : ∀ node, context.inputOf? node = engine.setting.inputAt context [] node)
        label seen hpeek
    exact ⟨instructions, above, place, part, hinstructions, hpeeked⟩
  · cases hpeek

theorem peekedAt_of_open
    (h : assemble graph entry (resolvers.map (resolver Middleware.traceAndPeek)) [] configuration =
      .ok engine)
    (hpasses : ∀ labelled ∈ resolvers, ∀ entry ∈ labelled.labelled,
      Middleware.PassesInputs configuration.execution.parallel entry.2)
    {query : Json} {values : List Json} {context : Context} {before : List Event} {label : String}
    {seen : Snapshot}
    (hpeek : before ++ [.peek label seen] <+: (engine.run query values context).trail) :
    ∃ instructions above place part, engine.instructions query values = .ok instructions ∧
      PeekedAt engine.setting ⟨engine.setting.graph.root, instructions⟩ context resolvers label
        seen above place part ∧
      openAfter [] before = some (openAt resolvers above (part ++ [label])) := by
  rw [← execution_of_assemble h] at hpasses
  have hlogs : (engine.run query values context).Logs engine.setting.execution.parallel
      (fun _ => True) (fun now label seen => ∃ instructions above place part,
        engine.instructions query values = .ok instructions ∧
          PeekedAt engine.setting ⟨engine.setting.graph.root, instructions⟩ context resolvers label
            seen above place part ∧ now = openAt resolvers above (part ++ [label])) [] := by
    apply logs_of_evaluate trivial
    intro instructions middleware hinstructions hplan
    have hrun := (LabelledResolver.kept_openInputs (resolvers_of_assemble h) hpasses).evaluate_plan
      (operators_of_assemble h) hplan
      (fun _ => rfl : ∀ node, context.inputOf? node = engine.setting.inputAt context [] node)
    refine Logs.mono hrun (fun _ _ => trivial) fun now label seen hpeeked => ?_
    obtain ⟨above, place, part, hopen, hpeeked⟩ := hpeeked
    exact ⟨instructions, above, place, part, hinstructions, hpeeked, hopen⟩
  obtain ⟨now, hnow, instructions, above, place, part, hinstructions, hpeeked, rfl⟩ :=
    hlogs.peek before label seen hpeek
  exact ⟨instructions, above, place, part, hinstructions, hpeeked, hnow⟩

/-- What the middlewares of a node see of its input is what its line attaches, the innermost place
first; if nothing starts again at the root, it is what the instruction at the node attaches. The traces
that are open then are those of the line. -/
theorem input_of_peek
    (h : assemble graph entry (resolvers.map (resolver Middleware.traceAndPeek)) [] configuration =
      .ok engine)
    (hkeeps : ∀ labelled ∈ resolvers, ∀ entry ∈ labelled.labelled, Middleware.KeepsInputs entry.2)
    (query : Json) (values : List Json) (context : Context) {before : List Event} {label : String}
    {seen : Snapshot}
    (hpeek : before ++ [.peek label seen] <+: (engine.run query values context).trail) :
    ∃ instructions above place part, engine.instructions query values = .ok instructions ∧
      PeekedAt engine.setting ⟨engine.setting.graph.root, instructions⟩ context resolvers label
        seen above place part ∧
      (engine.setting.Straight ⟨engine.setting.graph.root, instructions⟩ →
        seen.input = (engine.setting.attached place).or (context.inputOf? place.node)) ∧
      ((∀ labelled ∈ resolvers, ∀ entry ∈ labelled.labelled,
          Middleware.PassesInputs configuration.execution.parallel entry.2) →
        openAfter [] before = some (openAt resolvers above (part ++ [label]))) := by
  by_cases hpasses : ∀ labelled ∈ resolvers, ∀ entry ∈ labelled.labelled,
      Middleware.PassesInputs configuration.execution.parallel entry.2
  · obtain ⟨instructions, above, place, part, hinstructions, hpeeked, hopen⟩ :=
      peekedAt_of_open h hpasses hpeek
    exact ⟨instructions, above, place, part, hinstructions, hpeeked,
      input_of_peek_straight hpeeked, fun _ => hopen⟩
  · obtain ⟨instructions, above, place, part, hinstructions, hpeeked⟩ :=
      peekedAt_of_peek h hkeeps (hpeek.subset List.mem_concat_self)
    exact ⟨instructions, above, place, part, hinstructions, hpeeked,
      input_of_peek_straight hpeeked, fun hall => absurd hall hpasses⟩

end Engine

namespace Library

def peekedResolvers : List LabelledResolver :=
  [⟨entry, [("library", Middleware.set (.object []))]⟩,
    ⟨tags, [("tags", Middleware.set (.array [.string "a", .string "b"]))]⟩]

def peekedEngine : Engine :=
  ⟨{ graph, entry := "Library",
     resolvers := .bind (peekedResolvers.map (resolver Middleware.traceAndPeek)),
     execution := {}, reach := defaultReach }, Operator.builtin⟩

theorem assemble_eq_peekedEngine :
    Engine.assemble graph "Library" (peekedResolvers.map (resolver Middleware.traceAndPeek)) [] {} =
      .ok peekedEngine := rfl

theorem keepsInputs_peekedResolvers {labelled : LabelledResolver}
    (h : labelled ∈ peekedResolvers) : ∀ entry ∈ labelled.labelled,
      Middleware.KeepsInputs entry.2 ∧ Middleware.PassesInputs false entry.2 := by
  intro entry hentry
  rcases List.mem_cons.mp h with rfl | h
  · cases List.mem_singleton.mp hentry
    exact ⟨Middleware.keepsInputs_set _, Middleware.passesInputs_set _⟩
  · cases List.mem_singleton.mp h
    cases List.mem_singleton.mp hentry
    exact ⟨Middleware.keepsInputs_set _, Middleware.passesInputs_set _⟩

def page : Json := .object [("page", .ofNat 1), ("pageSize", .ofNat 1)]

def firstPage : Json :=
  .object [("kind", .string "paginate"), ("page", .ofNat 1), ("pageSize", .ofNat 1)]

def all : Json := .object [("kind", .string "all")]

/-- All tags again for each tag of the first page. -/
def queryAnew : List Json :=
  [.string "Library", .string "tags", firstPage,
    .object [("kind", .string "path"),
      ("path", .array [.string "Library", .string "tags", all])]]

def firstTags : List Json := [.string "Library", .string "tags", firstPage]

/-- Nothing but the library, its tags and their items is asked for. -/
theorem straight_firstTags : peekedEngine.setting.Straight ⟨graph.root, firstTags⟩ := by
  have hplace {place : Place} (h : peekedEngine.setting.Asked ⟨graph.root, firstTags⟩ place) :
      place ∈ [⟨graph.root, firstTags⟩, ⟨entry, firstTags.drop 1⟩, ⟨tags, [firstPage]⟩,
        ⟨graph.nodeAt [.entry "Library", .field "tags", .items], []⟩] := by
    induction h with
    | start => exact List.mem_cons_self
    | @leads outer inner demand _ hdemand hleads ih =>
      simp only [List.mem_cons, List.not_mem_nil, or_false] at ih ⊢
      rcases ih with rfl | rfl | rfl | rfl
      · cases hdemand
        cases hleads
        exact .inr (.inl rfl)
      · cases hdemand
        cases hleads
        exact .inr (.inr (.inl rfl))
      · cases hdemand
        cases hleads
        exact .inr (.inr (.inr rfl))
      · cases hdemand
        cases hleads
  intro place hasked query hdemand
  have hmem := hplace hasked
  simp only [List.mem_cons, List.not_mem_nil, or_false] at hmem
  rcases hmem with rfl | rfl | rfl | rfl
  · cases hdemand
  · cases hdemand
  · cases hdemand
  · cases hdemand

def log (query : List Json) : List Event := (peekedEngine.run (.array query) [] .empty).trail

theorem peek_log :
    (∃ seen, (log queryAnew).take 9 ++ [.peek "tags" seen] <+: log queryAnew ∧
      seen.input = some page) ∧
    ∃ seen, (log firstTags).take 6 ++ [.peek "tags" seen] <+: log firstTags ∧
      seen.input = some page :=
  ⟨⟨_, ⟨(log queryAnew).drop 10, rfl⟩, rfl⟩, _, ⟨(log firstTags).drop 7, rfl⟩, rfl⟩

/-- Of a page behind which the query starts again, and of one behind which it does not. -/
theorem input_of_queryAnew :
    (∃ seen, (log queryAnew).take 9 ++ [.peek "tags" seen] <+: log queryAnew ∧
      ∃ instructions above place part,
        peekedEngine.instructions (.array queryAnew) [] = .ok instructions ∧
        PeekedAt peekedEngine.setting ⟨graph.root, instructions⟩ .empty peekedResolvers "tags" seen
          above place part ∧
        openAfter [] ((log queryAnew).take 9) = some (openAt peekedResolvers above (part ++ ["tags"]))) ∧
    ∃ seen, (log firstTags).take 6 ++ [.peek "tags" seen] <+: log firstTags ∧
      ∃ instructions above place part,
        peekedEngine.instructions (.array firstTags) [] = .ok instructions ∧
        PeekedAt peekedEngine.setting ⟨graph.root, instructions⟩ .empty peekedResolvers "tags" seen
          above place part ∧
        seen.input = (peekedEngine.setting.attached place).or (Context.empty.inputOf? place.node) := by
  obtain ⟨⟨seen, hpeek, _⟩, seen', hpeek', _⟩ := peek_log
  constructor
  · obtain ⟨instructions, above, place, part, hinstructions, hpeeked, _, hopen⟩ :=
      Engine.input_of_peek assemble_eq_peekedEngine
        (fun _ hlabelled entry hentry => (keepsInputs_peekedResolvers hlabelled entry hentry).1)
        (.array queryAnew) [] .empty hpeek
    exact ⟨seen, hpeek, instructions, above, place, part, hinstructions, hpeeked,
      hopen fun _ hlabelled entry hentry => (keepsInputs_peekedResolvers hlabelled entry hentry).2⟩
  · obtain ⟨instructions, above, place, part, hinstructions, hpeeked, hstraight, _⟩ :=
      Engine.input_of_peek assemble_eq_peekedEngine
        (fun _ hlabelled entry hentry => (keepsInputs_peekedResolvers hlabelled entry hentry).1)
        (.array firstTags) [] .empty hpeek'
    cases hinstructions
    exact ⟨seen', hpeek', _, above, place, part, rfl, hpeeked, hstraight straight_firstTags⟩

/-- All tags are asked for without any input; below the page their middlewares see the one of the
page. -/
theorem input_behind_path :
    peekedEngine.setting.attached ⟨tags, [all]⟩ = none ∧
      openAfter [] ((log queryAnew).take 13) = some ["library", "tags", "library", "tags"] ∧
      ∃ seen, (log queryAnew).take 13 ++ [.peek "tags" seen] <+: log queryAnew ∧ seen.input = some page :=
  ⟨rfl, rfl, _, ⟨(log queryAnew).drop 14, rfl⟩, rfl⟩

end Library

end PathQuery
