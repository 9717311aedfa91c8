import PathQuery.Middleware.Stock
import PathQuery.Proofs.Graph.Renumbering
import PathQuery.Proofs.Located.Run
import PathQuery.Query.Descent

/-!
# Comparing runs

Two runs are compared where nodes of the one stand for nodes of the other. Contexts are alike layer by
layer, and then every lookup of data finds the same (`Comparison.Contexts.get?_eq`). Runs are alike
if they note the same and end alike; some errors of the first run cut the comparison short
(`Comparison.Runs`), and where siblings go on together what was noted until then has to come first in the
second run as well. Middlewares are alike if they do the same in contexts that are alike, before rests
of the chain that do.
-/

set_option autoImplicit false

namespace Except

variable {ε α β γ δ : Type} {cut : ε → Prop} {like : α → β → Prop} {like' : γ → δ → Prop}
  {x : Except ε α} {y : Except ε β}

theorem agree_eq_iff {like : α → α → Prop} {x y : Except ε α} (hlike : ∀ a b, like a b ↔ a = b) :
    Agree like x y ↔ y = x := by
  constructor
  · intro h
    cases h with
    | ok h => rw [(hlike _ _).mp h]
    | error => rfl
  · rintro rfl
    exact (Agree.eq_self y).imp fun a b => (hlike a b).mpr

/-- They agree, or the first fails with an error after which nothing is compared. -/
def AgreeUnless (cut : ε → Prop) (like : α → β → Prop) (x : Except ε α) (y : Except ε β) : Prop :=
  (∃ e, x = .error e ∧ cut e) ∨ Agree like x y

namespace AgreeUnless

theorem of_agree (h : Agree like x y) : AgreeUnless cut like x y :=
  .inr h

theorem bind {f : α → Except ε γ} {g : β → Except ε δ} (h : AgreeUnless cut like x y)
    (hf : ∀ a b, like a b → AgreeUnless cut like' (f a) (g b)) :
    AgreeUnless cut like' (x.bind f) (y.bind g) := by
  obtain ⟨e, rfl, he⟩ | h := h
  · exact .inl ⟨e, rfl, he⟩
  · cases h with
    | ok hlike => exact hf _ _ hlike
    | error e => exact .inr (.error e)

theorem map {f : α → γ} {g : β → δ} (h : AgreeUnless cut like x y)
    (hf : ∀ a b, like a b → like' (f a) (g b)) : AgreeUnless cut like' (x.map f) (y.map g) := by
  obtain ⟨e, rfl, he⟩ | h := h
  · exact .inl ⟨e, rfl, he⟩
  · cases h with
    | ok hlike => exact .inr (.ok (hf _ _ hlike))
    | error e => exact .inr (.error e)

end AgreeUnless

end Except

namespace PathQuery

/-! ## Notes -/

namespace Run

variable {α β : Type} {run : Run α} {f : α → Run β}

theorem notes_bind_of_ok {a : α} (h : run.result = .ok a) :
    notes (run >>= f) = run.notes ++ (f a).notes := by
  rw [notes, Traced.bind_of_ok h, List.filter_append]
  rfl

theorem notes_bind_of_error {error : Error} (h : run.result = .error error) :
    notes (run >>= f) = run.notes := by
  rw [Traced.bind_of_error h]
  rfl

theorem notes_prefix_bind (run : Run α) (f : α → Run β) : run.notes <+: notes (run >>= f) := by
  cases h : run.result with
  | ok a => exact ⟨_, (notes_bind_of_ok h).symm⟩
  | error error => exact ⟨[], by rw [notes_bind_of_error h, List.append_nil]⟩

theorem notes_walk (walk : Walk α) : walk.run.notes = [] := by
  simp [notes, Walk.run, Traced.mapTrail, Event.visited?]

/-- The runs log the same and end alike. -/
def Same (run run' : Run α) : Prop :=
  run'.notes = run.notes ∧ run'.result = run.result

/-- A run without the visits of nodes. -/
def noted (run : Run α) : Run α :=
  run.filterTrail (Option.guard fun event => event.visited?.isNone)

theorem trail_noted (run : Run α) : run.noted.trail = run.notes :=
  congrFun List.filterMap_eq_filter run.trail

/-- Siblings wait for each other whatever nodes they visit. -/
theorem noted_together (runs : List (Run α)) :
    noted (Traced.together Event.waits runs) = Traced.together Event.waits (runs.map noted) := by
  refine Traced.filterTrail_together (fun event => ⟨fun hwaits => ⟨event, ?_, hwaits⟩, ?_⟩) runs
  · cases event with
    | visit stopover =>
      cases stopover with
      | node => cases hwaits
      | outside => rfl
    | enter | leave | peek => cases hwaits
  · intro hwaits event' hevent
    obtain ⟨_, heq⟩ := Option.ite_none_right_eq_some.mp hevent
    cases heq
    exact hwaits

end Run

/-! ## Structures -/

/-- The same in all that is read of a structure where a value is settled. -/
structure Structure.Resembles (s s' : Structure) : Prop where
  kind : s'.kind = s.kind
  key : s'.key = s.key
  expected : ∀ value, Descent.expected? s' value = Descent.expected? s value
  empty : Descent.emptyValue? s' = Descent.emptyValue? s

namespace Structure.Resembles

theorem refl (s : Structure) : Resembles s s :=
  ⟨rfl, rfl, fun _ => rfl, rfl⟩

theorem root (entries entries' : List (String × Structure)) :
    Resembles (.root entries) (.root entries') :=
  ⟨rfl, rfl, fun _ => rfl, rfl⟩

theorem renumber (f : Nat → Nat) (s : Structure) : Resembles s (s.renumber f) where
  kind := kind_renumber f s
  key := key_renumber f s
  expected value := by cases s <;> rfl
  empty := by cases s <;> rfl

end Structure.Resembles

/-- Which nodes of two engines stand for each other, and which errors of the first one cut the
comparison short. -/
structure Comparison where
  Paired : Node → Node → Prop
  beq_eq : ∀ {a a' b b' : Node}, Paired a a' → Paired b b' → (a == b) = (a' == b')
  Cut : Error → Prop
  /-- Whether the second run has to begin as the first one does before it is cut short. -/
  aligned : Bool

namespace Comparison

/-! ## Contexts -/

/-- Layers under one key, for nodes that stand for each other, with equal data or with nodes that
stand for each other. -/
inductive Layers (comparison : Comparison) : Layer → Layer → Prop where
  | active {scope scope' : Option Node} {node node' : Node}
      (scopes : Option.Rel comparison.Paired scope scope') (nodes : comparison.Paired node node') :
      Layers comparison ⟨.node, scope, node⟩ ⟨.node, scope', node'⟩
  | data {key : Key} {scope scope' : Option Node} (hkey : key ≠ .node) (value : key.Value)
      (scopes : Option.Rel comparison.Paired scope scope') :
      Layers comparison ⟨key, scope, value⟩ ⟨key, scope', value⟩

structure Contexts (comparison : Comparison) (context context' : Context) : Prop where
  layers : List.Forall₂ comparison.Layers context.layers context'.layers

variable {comparison : Comparison} {context context' : Context} {node node' : Node}

theorem scope_beq {asked asked' scope scope' : Option Node}
    (hscope : Option.Rel comparison.Paired scope scope')
    (hasked : Option.Rel comparison.Paired asked asked') : (scope == asked) = (scope' == asked') := by
  cases hscope with
  | none =>
    cases hasked with
    | none => rfl
    | some => rfl
  | some hscope =>
    cases hasked with
    | none => rfl
    | some hasked => exact comparison.beq_eq hscope hasked

theorem Layers.value?_eq {layer layer' : Layer} (h : comparison.Layers layer layer') {key : Key}
    (hkey : key ≠ .node) {scope scope' : Option Node}
    (hscope : Option.Rel comparison.Paired scope scope') :
    layer'.value? key scope' = layer.value? key scope := by
  cases h with
  | active scopes nodes => rw [Layer.value?, Layer.value?, dif_neg hkey.symm, dif_neg hkey.symm]
  | data _ value scopes => simp only [Layer.value?, scope_beq scopes hscope]

theorem Layers.node? {layer layer' : Layer} (h : comparison.Layers layer layer')
    {scope scope' : Option Node} (hscope : Option.Rel comparison.Paired scope scope') :
    Option.Rel comparison.Paired (layer.value? .node scope) (layer'.value? .node scope') := by
  cases h with
  | active scopes nodes =>
    rw [Layer.value?, Layer.value?, dif_pos rfl, dif_pos rfl, scope_beq scopes hscope]
    split
    · exact .some nodes
    · exact .none
  | data hkey =>
    rw [Layer.value?, Layer.value?, dif_neg hkey, dif_neg hkey]
    exact .none

namespace Contexts

variable (h : comparison.Contexts context context')

include h

theorem push (key : Key) (hkey : key ≠ .node) (value : key.Value) {scope scope' : Option Node}
    (hscope : Option.Rel comparison.Paired scope scope') :
    comparison.Contexts (context.push key value scope) (context'.push key value scope') where
  layers := .cons (.data hkey value hscope) h.layers

theorem setValue (value : Option Json) :
    comparison.Contexts (context.setValue value) (context'.setValue value) :=
  h.push .value (by decide) value .none

theorem enter (hnode : comparison.Paired node node') :
    comparison.Contexts (context.enter node) (context'.enter node') where
  layers := .cons (.active .none hnode) h.layers

/-- Data are found in both, or in none. -/
theorem get?_eq {key : Key} (hkey : key ≠ .node) {scope scope' : Option Node}
    (hscope : Option.Rel comparison.Paired scope scope') :
    context'.get? key scope' = context.get? key scope := by
  obtain ⟨layers⟩ := context
  obtain ⟨layers'⟩ := context'
  obtain ⟨hlayers⟩ := h
  unfold Context.get?
  dsimp only at hlayers ⊢
  induction hlayers with
  | nil => rfl
  | cons hfirst _ ih =>
    rw [List.findSome?_cons, List.findSome?_cons, hfirst.value?_eq hkey hscope, ih]

/-- Nodes that stand for each other are active in both, or there is none. -/
theorem activeNode : Except.Agree comparison.Paired context.activeNode context'.activeNode := by
  have hfound : Option.Rel comparison.Paired (context.get? .node) (context'.get? .node) := by
    obtain ⟨layers⟩ := context
    obtain ⟨layers'⟩ := context'
    obtain ⟨hlayers⟩ := h
    unfold Context.get?
    dsimp only at hlayers ⊢
    induction hlayers with
    | nil => exact .none
    | @cons layer layer' _ _ hfirst _ ih =>
      rw [List.findSome?_cons, List.findSome?_cons]
      have hnode := hfirst.node? .none
      generalize layer.value? .node none = found at hnode
      generalize layer'.value? .node none = found' at hnode
      cases hnode with
      | none => exact ih
      | some hnodes => exact .some hnodes
  unfold Context.activeNode Context.require
  generalize context.get? .node = found at hfound
  generalize context'.get? .node = found' at hfound
  cases hfound with
  | none => exact .error _
  | some hnodes => exact .ok hnodes

theorem value?_eq : context'.value? = context.value? := by
  rw [Context.value?, Context.value?, h.get?_eq (by decide) .none]

theorem fillsEmpty_eq (hnode : comparison.Paired node node') :
    context'.fillsEmpty node' = context.fillsEmpty node := by
  rw [Context.fillsEmpty, Context.fillsEmpty, h.get?_eq (by decide) (.some hnode)]

theorem isSliced_eq (hnode : comparison.Paired node node') :
    context'.isSliced node' = context.isSliced node := by
  rw [Context.isSliced, Context.isSliced, h.get?_eq (by decide) (.some hnode)]

theorem attach (hnode : comparison.Paired node node') (input : Option Json) :
    comparison.Contexts (Descent.attach node input context)
      (Descent.attach node' input context') := by
  cases input with
  | none => exact h
  | some input => exact h.push .input (by decide) input (.some hnode)

theorem passMarks {inner inner' : Node} (hnode : comparison.Paired node node')
    (hinner : comparison.Paired inner inner') :
    comparison.Contexts (Descent.passMarks node inner context)
      (Descent.passMarks node' inner' context') := by
  have hfilled : comparison.Contexts
      (if context.fillsEmpty node then context.push .fillEmpty () (some inner) else context)
      (if context'.fillsEmpty node' then context'.push .fillEmpty () (some inner')
        else context') := by
    rw [h.fillsEmpty_eq hnode]
    split
    · exact h.push .fillEmpty (by decide) () (.some hinner)
    · exact h
  unfold Descent.passMarks
  dsimp only
  generalize (if context.fillsEmpty node then context.push .fillEmpty () (some inner)
    else context) = filled at hfilled ⊢
  generalize (if context'.fillsEmpty node' then context'.push .fillEmpty () (some inner')
    else context') = filled' at hfilled ⊢
  rw [hfilled.isSliced_eq hnode]
  split
  · exact hfilled.push .sliced (by decide) () (.some hinner)
  · exact hfilled

end Contexts

/-! ## Runs -/

/-- The runs note the same and end alike, unless an error of the first one cuts the comparison. -/
def Runs (comparison : Comparison) {α β : Type} (like : α → β → Prop) (run : Run α)
    (run' : Run β) : Prop :=
  (∃ error, run.result = .error error ∧ comparison.Cut error ∧
      (comparison.aligned = true → run.notes <+: run'.notes)) ∨
    run'.notes = run.notes ∧ Except.Agree like run.result run'.result

theorem runs_iff {α : Type} {like : α → α → Prop} (hlike : ∀ a b, like a b ↔ a = b)
    {run run' : Run α} : comparison.Runs like run run' ↔
      (∃ error, run.result = .error error ∧ comparison.Cut error ∧
        (comparison.aligned = true → run.notes <+: run'.notes)) ∨ run.Same run' := by
  rw [Runs, Except.agree_eq_iff hlike, Run.Same]

namespace Runs

variable {α β γ δ : Type} {like : α → β → Prop} {like' : γ → δ → Prop}

theorem pure {a : α} {b : β} (h : like a b) : comparison.Runs like (pure a) (pure b) :=
  .inr ⟨rfl, .ok h⟩

theorem ofExcept {x : Except Error α} {y : Except Error β} (h : Except.Agree like x y) :
    comparison.Runs like (Traced.ofExcept x) (Traced.ofExcept y) :=
  .inr ⟨rfl, h⟩

theorem of_walk {walk : Walk α} {walk' : Walk β}
    (h : Except.AgreeUnless comparison.Cut like walk.result walk'.result) :
    comparison.Runs like walk.run walk'.run := by
  obtain ⟨error, herror, hcut⟩ | hagree := h
  · refine .inl ⟨error, herror, hcut, fun _ => ?_⟩
    rw [Run.notes_walk]
    exact List.nil_prefix
  · exact .inr ⟨by rw [Run.notes_walk, Run.notes_walk], hagree⟩

theorem bind {run : Run α} {run' : Run β} {f : α → Run γ} {g : β → Run δ}
    (h : comparison.Runs like run run') (hf : ∀ a b, like a b → comparison.Runs like' (f a) (g b)) :
    comparison.Runs like' (run >>= f) (run' >>= g) := by
  obtain ⟨error, herror, hcut, hbegins⟩ | ⟨hnotes, hagree⟩ := h
  · refine .inl ⟨error, ?_, hcut, fun haligned => ?_⟩
    · rw [Traced.bind_of_error herror]
    · rw [Run.notes_bind_of_error herror]
      exact (hbegins haligned).trans (Run.notes_prefix_bind run' g)
  · generalize hresult : run.result = outcome at hagree
    generalize hresult' : run'.result = outcome' at hagree
    cases hagree with
    | error error =>
      rw [Traced.bind_of_error hresult, Traced.bind_of_error hresult']
      exact .inr ⟨hnotes, .error error⟩
    | @ok a b hlike =>
      have hnext := hf a b hlike
      rw [Runs, Run.notes_bind_of_ok hresult, Run.notes_bind_of_ok hresult', hnotes,
        Traced.bind_of_ok hresult, Traced.bind_of_ok hresult']
      refine hnext.imp ?_ fun hnext => ⟨congrArg _ hnext.1, hnext.2⟩
      rintro ⟨error, herror, hcut, hbegins⟩
      exact ⟨error, herror, hcut, fun haligned => (List.prefix_append_right_inj _).mpr
        (hbegins haligned)⟩

theorem map {run run' : Run α} (h : comparison.Runs (· = ·) run run') (f : α → γ) :
    comparison.Runs (· = ·) (f <$> run) (f <$> run') :=
  h.bind fun _ _ heq => .pure (congrArg f heq)

/-! ### Siblings -/

theorem mapM {runs runs' : List (Run α)}
    (h : List.Forall₂ (comparison.Runs (· = ·)) runs runs') :
    comparison.Runs (· = ·) (runs.mapM id) (runs'.mapM id) := by
  induction h with
  | nil => exact .pure rfl
  | cons hfirst _ ih =>
    rw [List.mapM_cons, List.mapM_cons]
    refine hfirst.bind ?_
    rintro value _ rfl
    refine ih.bind ?_
    rintro values _ rfl
    exact .pure rfl

theorem until_iff (haligned : comparison.aligned = true) {run run' : Run α} :
    comparison.Runs (· = ·) run run' ↔ Traced.Until comparison.Cut run.noted run'.noted := by
  rw [runs_iff fun _ _ => Iff.rfl, Traced.Until, Run.trail_noted, Run.trail_noted]
  refine or_congr (exists_congr fun error => ?_) ?_
  · exact and_congr_right fun _ => and_congr_right fun _ => ⟨fun h => h haligned, fun h _ => h⟩
  · constructor
    · rintro ⟨hnotes, hresult⟩
      exact Traced.ext ((Run.trail_noted run').trans (hnotes.trans (Run.trail_noted run).symm))
        hresult
    · intro h
      have hresult : run'.noted.result = run.noted.result := by rw [h]
      refine ⟨?_, hresult⟩
      rw [← Run.trail_noted, ← Run.trail_noted, h]

/-- Siblings that go on together have to be aligned: where one of them is cut short, the others are. -/
theorem all {parallel : Bool} (haligned : parallel = true → comparison.aligned = true)
    {runs runs' : List (Run α)} (h : List.Forall₂ (comparison.Runs (· = ·)) runs runs') :
    comparison.Runs (· = ·) (Run.all parallel runs) (Run.all parallel runs') := by
  cases parallel with
  | false => exact mapM h
  | true =>
    rw [until_iff (haligned rfl)]
    change Traced.Until comparison.Cut (Run.noted (Traced.together Event.waits runs))
      (Run.noted (Traced.together Event.waits runs'))
    rw [Run.noted_together, Run.noted_together]
    refine Traced.Until.together ?_
    rw [List.forall₂_map_left_iff, List.forall₂_map_right_iff]
    exact h.imp fun run run' => (until_iff (haligned rfl)).mp

end Runs

/-! ## Middlewares -/

/-- They go on alike in contexts that are alike. -/
def Continues (comparison : Comparison) (next next' : Continuation) : Prop :=
  ∀ context context', comparison.Contexts context context' →
    comparison.Runs comparison.Contexts (next context) (next' context')

/-- In contexts that are alike, and before rests of the chain that go on alike, they do the same. -/
def Middlewares (comparison : Comparison) (middleware middleware' : Middleware) : Prop :=
  ∀ context context', comparison.Contexts context context' → ∀ next next',
    comparison.Continues next next' →
      comparison.Runs comparison.Contexts (middleware context next) (middleware' context' next')

/-- They give the same value in contexts that are alike. -/
def Descents (comparison : Comparison) (descent descent' : Descent) : Prop :=
  ∀ context context', comparison.Contexts context context' →
    comparison.Runs (· = ·) (descent context) (descent' context')

namespace Middlewares

variable {middleware middleware' : Middleware}

theorem compose {middlewares middlewares' : List Middleware}
    (h : List.Forall₂ comparison.Middlewares middlewares middlewares') :
    comparison.Middlewares (Middleware.compose middlewares) (Middleware.compose middlewares') := by
  induction h with
  | nil => exact fun context context' hcontext next next' hnext => hnext context context' hcontext
  | cons hfirst _ ih =>
    intro context context' hcontext next next' hnext
    refine hfirst context context' hcontext _ _ ?_
    exact fun inner inner' hinner => ih inner inner' hinner next next' hnext

theorem set (value : Json) :
    comparison.Middlewares (Middleware.set value) (Middleware.set value) :=
  fun _ _ hcontext _ _ hnext => hnext _ _ (hcontext.setValue (some value))

theorem fillEmpty : comparison.Middlewares Middleware.fillEmpty Middleware.fillEmpty := by
  intro context context' hcontext next next' hnext
  refine Runs.bind (.ofExcept hcontext.activeNode) fun node node' hnode => ?_
  exact hnext _ _ (hcontext.push .fillEmpty (by decide) () (.some hnode))

theorem evaluate (h : comparison.Middlewares middleware middleware') :
    comparison.Descents middleware.evaluate middleware'.evaluate := by
  intro context context' hcontext
  refine (h context context' hcontext Pure.pure Pure.pure fun _ _ hinner => .pure hinner).bind ?_
  exact fun _ _ hinner => .pure hinner.value?_eq.symm

end Middlewares

end Comparison

end PathQuery
