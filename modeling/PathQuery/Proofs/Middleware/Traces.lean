import Mathlib.Data.List.Infix
import PathQuery.Middleware.Stock
import PathQuery.Proofs.Siblings

/-!
# Traces in a log

A trace notes that it is entered, goes on, and notes that it is left. `openAfter` reads a log and
finds the traces that are open. A run logs within some set of open traces if it never leaves that
set, ends with the traces open that were so before unless it fails, and never gives way to its
siblings (`Run.Logs`). A chain in which traces alternate with other middlewares opens them one after
another (`Middleware.logs_compose`).
-/

set_option autoImplicit false

namespace PathQuery

def Event.silent : Event → Bool
  | visit _ | peek .. => true
  | enter _ | leave _ => false

/-- Neither a trace nor a wait at which siblings go on. -/
def Event.unnoticed (parallel : Bool) (event : Event) : Bool :=
  event.silent && !Run.yields parallel event

/-- The traces that are open after some events, the last one at the end; none if a trace is left
that is not the last. -/
def openAfter (entered : List String) : List Event → Option (List String)
  | [] => some entered
  | .enter label :: rest => openAfter (entered ++ [label]) rest
  | .leave label :: rest =>
    if entered.getLast? = some label then openAfter entered.dropLast rest else none
  | .visit _ :: rest | .peek .. :: rest => openAfter entered rest

/-- Every trace that is entered is left again, the last one first. -/
def Nested (log : List Event) : Prop :=
  openAfter [] log = some []

theorem openAfter_append (entered : List String) (log log' : List Event) :
    openAfter entered (log ++ log') = (openAfter entered log).bind (openAfter · log') := by
  induction log generalizing entered with
  | nil => rfl
  | cons event rest ih =>
    cases event with
    | enter label | visit _ | peek _ _ => exact ih _
    | leave label =>
      simp only [List.cons_append, openAfter]
      split
      · exact ih _
      · rfl

theorem openAfter_of_silent {entered : List String} {log : List Event}
    (h : ∀ event ∈ log, event.silent = true) : openAfter entered log = some entered := by
  induction log with
  | nil => rfl
  | cons event rest ih =>
    have hevent := h event List.mem_cons_self
    have hrest := ih fun event hmem => h event (List.mem_cons_of_mem _ hmem)
    cases event with
    | visit _ | peek _ _ => exact hrest
    | enter _ | leave _ => cases hevent

theorem openAfter_leave (entered : List String) (label : String) :
    openAfter (entered ++ [label]) [.leave label] = some entered := by
  simp [openAfter]

/-- What is open can be left again. -/
theorem openAfter_leaves (entered : List String) :
    openAfter entered (entered.reverse.map .leave) = some [] := by
  induction entered using List.reverseRecOn with
  | nil => rfl
  | append_singleton before label ih =>
    rw [List.reverse_append, List.map_append, openAfter_append]
    change (openAfter (before ++ [label]) [.leave label]).bind _ = some []
    rw [openAfter_leave]
    exact ih

theorem prefix_append_cases {α : Type} {before first second : List α}
    (h : before <+: first ++ second) :
    before <+: first ∨ ∃ rest, rest <+: second ∧ before = first ++ rest := by
  rcases List.prefix_or_prefix_of_prefix h (List.prefix_append first second) with h' | ⟨rest, rfl⟩
  · exact .inl h'
  · exact .inr ⟨rest, (List.prefix_append_right_inj first).mp h, rfl⟩

theorem prefix_concat_append_cases {α : Type} {before first second : List α} {last : α}
    (h : before ++ [last] <+: first ++ second) :
    before ++ [last] <+: first ∨ ∃ rest, rest ++ [last] <+: second ∧ before = first ++ rest := by
  rcases prefix_append_cases h with hfirst | ⟨rest, hrest, heq⟩
  · exact .inl hfirst
  · rcases List.eq_nil_or_concat rest with rfl | ⟨init, final, rfl⟩
    · rw [heq, List.append_nil]
      exact .inl List.prefix_rfl
    · rw [List.concat_eq_append, ← List.append_assoc] at heq
      obtain ⟨rfl, hlast⟩ := List.append_inj' heq rfl
      cases hlast
      rw [List.concat_eq_append] at hrest
      exact .inr ⟨init, hrest, rfl⟩

/-! ## Runs -/

namespace Run

variable {α β : Type} {parallel : Bool} {good : List String → Prop}
  {fine : List String → String → Snapshot → Prop} {entered : List String}

/-- Notes only events of some sort. -/
def Notes (own : Event → Bool) (run : Run α) : Prop :=
  ∀ event ∈ run.trail, own event = true

theorem Notes.silent {run : Run α} (h : run.Notes (Event.unnoticed parallel)) :
    ∀ event ∈ run.trail, event.silent = true :=
  fun event hevent => (Bool.and_eq_true_iff.mp (h event hevent)).1

/-- What is open stays good throughout, what is peeked at is fine for what is open then, and at the
end of a success the same is open as before. No sibling goes on in the meantime. -/
structure Logs (parallel : Bool) (good : List String → Prop)
    (fine : List String → String → Snapshot → Prop) (entered : List String) (run : Run α) :
    Prop where
  moment : ∀ before, before <+: run.trail → ∃ now, openAfter entered before = some now ∧ good now
  peek : ∀ before label seen, before ++ [.peek label seen] <+: run.trail →
    ∃ now, openAfter entered before = some now ∧ fine now label seen
  closed : ∀ value, run.result = .ok value → openAfter entered run.trail = some entered
  alone : ∀ event ∈ run.trail, yields parallel event = false

namespace Logs

theorem good_start {run : Run α} (h : run.Logs parallel good fine entered) : good entered := by
  obtain ⟨now, hnow, hgood⟩ := h.moment [] List.nil_prefix
  cases hnow
  exact hgood

theorem mono {good' : List String → Prop} {fine' : List String → String → Snapshot → Prop}
    {run : Run α} (h : run.Logs parallel good fine entered) (hgood : ∀ now, good now → good' now)
    (hfine : ∀ now label seen, fine now label seen → fine' now label seen) :
    run.Logs parallel good' fine' entered where
  moment before hbefore := by
    obtain ⟨now, hnow, hmoment⟩ := h.moment before hbefore
    exact ⟨now, hnow, hgood now hmoment⟩
  peek before label seen hbefore := by
    obtain ⟨now, hnow, hpeek⟩ := h.peek before label seen hbefore
    exact ⟨now, hnow, hfine now label seen hpeek⟩
  closed := h.closed
  alone := h.alone

theorem of_unnoticed {run : Run α} (h : run.Notes (Event.unnoticed parallel)) (hgood : good entered)
    (hfine : ∀ label seen, .peek label seen ∈ run.trail → fine entered label seen) :
    run.Logs parallel good fine entered where
  moment _ hbefore :=
    ⟨entered, openAfter_of_silent fun event hmem => h.silent event (hbefore.subset hmem), hgood⟩
  peek before label seen hbefore := by
    have hmem : .peek label seen ∈ run.trail := hbefore.subset List.mem_concat_self
    have hopen : openAfter entered before = some entered := by
      refine openAfter_of_silent fun event hevent => h.silent event ?_
      exact hbefore.subset (List.mem_append_left _ hevent)
    exact ⟨entered, hopen, hfine label seen hmem⟩
  closed _ _ := openAfter_of_silent h.silent
  alone event hevent := by
    have hyields := (Bool.and_eq_true_iff.mp (h event hevent)).2
    exact Bool.not_eq_true' _ ▸ hyields

theorem of_walk {walk : Walk α} (hgood : good entered) :
    (Walk.run walk).Logs parallel good fine entered := by
  have hvisit : ∀ event ∈ (Walk.run walk).trail, ∃ node, event = .visit (.node node) := by
    intro event hevent
    obtain ⟨node, _, rfl⟩ := List.mem_map.mp hevent
    exact ⟨node, rfl⟩
  apply of_unnoticed _ hgood
  · intro label seen hmem
    obtain ⟨node, heq⟩ := hvisit _ hmem
    cases heq
  · intro event hevent
    obtain ⟨node, rfl⟩ := hvisit event hevent
    simp [Event.unnoticed, Event.silent, yields, Event.waits]

theorem pure (hgood : good entered) (value : α) : Logs parallel good fine entered (pure value : Run α) :=
  .of_unnoticed nofun hgood nofun

theorem bind {run : Run α} {f : α → Run β} (h : run.Logs parallel good fine entered)
    (hf : ∀ value, run.result = .ok value → (f value).Logs parallel good fine entered) :
    (run >>= f).Logs parallel good fine entered := by
  cases hrun : run.result with
  | error error =>
    rw [Traced.bind_of_error hrun]
    exact ⟨h.moment, h.peek, nofun, h.alone⟩
  | ok value =>
    rw [Traced.bind_of_ok hrun]
    have hclosed := h.closed value hrun
    have hvalue := hf value hrun
    constructor
    case moment =>
      intro before hbefore
      rcases prefix_append_cases hbefore with hfirst | ⟨rest, hrest, rfl⟩
      · exact h.moment before hfirst
      · rw [openAfter_append, hclosed]
        exact hvalue.moment rest hrest
    case peek =>
      intro before label seen hbefore
      rcases prefix_concat_append_cases hbefore with hfirst | ⟨rest, hrest, rfl⟩
      · exact h.peek before label seen hfirst
      · rw [openAfter_append, hclosed]
        exact hvalue.peek rest label seen hrest
    case closed =>
      intro result hresult
      rw [openAfter_append, hclosed]
      exact hvalue.closed result hresult
    case alone =>
      intro event hevent
      rcases List.mem_append.mp hevent with hevent | hevent
      · exact h.alone event hevent
      · exact hvalue.alone event hevent

theorem map {run : Run α} (h : run.Logs parallel good fine entered) (f : α → β) :
    (f <$> run).Logs parallel good fine entered := by
  rw [map_eq_pure_bind]
  exact h.bind fun value _ => .pure h.good_start _

/-- Siblings of which none gives way run one after another. -/
theorem all {runs : List (Run α)} (hgood : good entered)
    (h : ∀ run ∈ runs, run.Logs parallel good fine entered) :
    (Run.all parallel runs).Logs parallel good fine entered := by
  rw [all_eq_together, Traced.together_of_still fun run hrun => (h run hrun).alone]
  induction runs with
  | nil => exact .pure hgood []
  | cons first rest ih =>
    obtain ⟨hfirst, hrest⟩ := List.forall_mem_cons.mp h
    rw [List.mapM_cons]
    exact hfirst.bind fun _ _ => (ih hrest).bind fun _ _ => .pure hgood _

end Logs

end Run

namespace Middleware

open Run (Notes Logs yields)

variable {parallel : Bool} {good : List String → Prop}
  {fine : List String → String → Snapshot → Prop} {entered : List String}

theorem logs_trace {label : String} {context : Context} {next : Continuation}
    (hgood : good entered) (h : (next context).Logs parallel good fine (entered ++ [label])) :
    (trace label context next).Logs parallel good fine entered := by
  -- the trace is open while the rest of the chain runs
  have within {log : List Event} (hlog : log <+: .enter label :: (next context).trail) :
      ∃ now, openAfter entered log = some now ∧ good now := by
    rcases List.prefix_cons_iff.mp hlog with rfl | ⟨rest, rfl, hrest⟩
    · exact ⟨entered, rfl, hgood⟩
    · exact h.moment rest hrest
  have peeked {log : List Event} {name : String} {seen : Snapshot}
      (hlog : log ++ [.peek name seen] <+: .enter label :: (next context).trail) :
      ∃ now, openAfter entered log = some now ∧ fine now name seen := by
    cases log with
    | nil => cases (List.cons_prefix_cons.mp hlog).1
    | cons event rest =>
      obtain ⟨rfl, hrest⟩ := List.cons_prefix_cons.mp hlog
      exact h.peek rest name seen hrest
  have hstays : yields parallel (.enter label) = false := by simp [yields, Event.waits]
  have halone : ∀ event ∈ .enter label :: (next context).trail, yields parallel event = false :=
    List.forall_mem_cons.mpr ⟨hstays, h.alone⟩
  unfold trace
  rw [Traced.bind_of_ok (Traced.result_note _)]
  cases hnext : (next context).result with
  | error error =>
    rw [Traced.bind_of_error hnext]
    constructor
    case moment => exact fun before hbefore => within hbefore
    case peek => exact fun before name seen hlog => peeked hlog
    case closed =>
      intro left hleft
      cases hleft
    case alone => exact halone
  | ok left =>
    rw [Traced.bind_of_ok hnext]
    have hclosed : openAfter entered ((.enter label :: (next context).trail) ++ [.leave label]) =
        some entered := by
      rw [openAfter_append, openAfter, h.closed left hnext]
      exact openAfter_leave entered label
    constructor
    case moment =>
      intro before hbefore
      change before <+: (.enter label :: (next context).trail) ++ [.leave label] at hbefore
      rcases List.prefix_concat_iff.mp hbefore with rfl | hbefore
      · exact ⟨entered, hclosed, hgood⟩
      · exact within hbefore
    case peek =>
      intro before name seen hbefore
      change before ++ [.peek name seen] <+:
        (.enter label :: (next context).trail) ++ [.leave label] at hbefore
      rcases List.prefix_concat_iff.mp hbefore with heq | hbefore
      · cases (List.append_inj' heq rfl).2
      · exact peeked hbefore
    case closed => exact fun _ _ => hclosed
    case alone =>
      change ∀ event ∈ (.enter label :: (next context).trail) ++ [.leave label], _
      refine List.forall_mem_append.mpr ⟨halone, fun event hevent => ?_⟩
      cases List.mem_singleton.mp hevent
      simp [yields, Event.waits]

theorem logs_peek {label : String} {context : Context} {next : Continuation}
    (hfine : fine entered label context.snapshot) (h : (next context).Logs parallel good fine entered) :
    (peek label context next).Logs parallel good fine entered := by
  refine Logs.bind (.of_unnoticed ?_ h.good_start ?_) fun _ _ => h
  · intro event hevent
    cases List.mem_singleton.mp hevent
    simp [Event.unnoticed, Event.silent, yields, Event.waits]
  · intro name seen hmem
    cases List.mem_singleton.mp hmem
    exact hfine

/-- Goes on at most once, in a related context, and fails where the rest of the chain does; what it
notes by itself is of some sort. -/
def GoesOn (own : Event → Bool) (related : Context → Context → Prop) (middleware : Middleware) :
    Prop :=
  ∀ context next, Notes own (middleware context next) ∨
    ∃ (before : Run Context) (after : Context → Run Context), Notes own before ∧
      (∀ context', before.result = .ok context' → related context context') ∧
      (∀ left, Notes own (after left)) ∧ middleware context next = before >>= next >>= after

/-- Goes on at most once and fails where the rest of the chain does; logs no trace of its own, and
does not wait where siblings go on in the meantime. -/
def Single (parallel : Bool) (middleware : Middleware) : Prop :=
  middleware.GoesOn (Event.unnoticed parallel) fun _ _ => True

theorem GoesOn.logs {own : Event → Bool} {related : Context → Context → Prop}
    {middleware : Middleware} (h : middleware.GoesOn own related)
    (hown : ∀ {run : Run Context}, Notes own run → run.Logs parallel good fine entered)
    {context : Context} {next : Continuation} (hnext : ∀ context', related context context' →
      (next context').Logs parallel good fine entered) :
    (middleware context next).Logs parallel good fine entered := by
  rcases h context next with hnotes | ⟨before, after, hbefore, hrelated, hafter, heq⟩
  · exact hown hnotes
  · rw [heq]
    refine Logs.bind ?_ fun left _ => hown (hafter left)
    exact (hown hbefore).bind fun context' hresult => hnext context' (hrelated context' hresult)

/-- Changing the context before going on is going on once. -/
theorem goesOn_of_before {own : Event → Bool} {related : Context → Context → Prop}
    {middleware : Middleware} (before : Context → Run Context)
    (hbefore : ∀ context, Notes own (before context))
    (hrelated : ∀ context context', (before context).result = .ok context' →
      related context context')
    (h : ∀ context next, middleware context next = before context >>= next) :
    middleware.GoesOn own related := by
  intro context next
  refine .inr ⟨before context, Pure.pure, hbefore context, hrelated context, fun _ => nofun, ?_⟩
  rw [h, bind_pure]

theorem goesOn_set {own : Event → Bool} {related : Context → Context → Prop} (value : Json)
    (hrelated : ∀ context, related context (context.setValue (some value))) :
    (set value).GoesOn own related := by
  apply goesOn_of_before fun context => return context.setValue (some value)
  · exact fun _ => nofun
  · intro context context' h
    cases h
    exact hrelated context
  · exact fun _ _ => (pure_bind _ _).symm

theorem single_set (value : Json) : (set value).Single parallel :=
  goesOn_set value fun _ => trivial

theorem single_fillEmpty : fillEmpty.Single parallel := by
  apply goesOn_of_before fun context => do
    return context.push .fillEmpty () (some (← Traced.ofExcept context.activeNode))
  · intro context event hevent
    cases hnode : context.activeNode with
    | error error =>
      rw [hnode] at hevent
      cases hevent
    | ok node =>
      rw [hnode] at hevent
      cases hevent
  · exact fun _ _ _ => trivial
  · intro context next
    unfold fillEmpty
    rw [bind_assoc]
    simp only [pure_bind]

/-- Each middleware behind one that goes by its label. -/
def watched (watch : String → Middleware) (labelled : List (String × Middleware)) :
    List Middleware :=
  labelled.flatMap fun (label, middleware) => [watch label, middleware]

/-- The traces of a chain are opened in order; all of them are open when its end is reached. The
contexts that the chain passes on are all of one sort. -/
theorem logs_compose {watch : String → Middleware} {labelled : List (String × Middleware)}
    (holds : Context → Prop)
    (hwatch : ∀ part label, part ++ [label] <+: labelled.map Prod.fst → ∀ context next,
      holds context → (next context).Logs parallel good fine (entered ++ (part ++ [label])) →
        (watch label context next).Logs parallel good fine (entered ++ part))
    (hmiddleware : ∀ entry ∈ labelled, ∀ {entered context next}, good entered → holds context →
      (∀ context', holds context' → (next context').Logs parallel good fine entered) →
        (entry.2 context next).Logs parallel good fine entered)
    {context : Context} (hcontext : holds context) {next : Continuation}
    (hnext : ∀ context', holds context' →
      (next context').Logs parallel good fine (entered ++ labelled.map Prod.fst)) :
    (compose (watched watch labelled) context next).Logs parallel good fine entered := by
  induction labelled generalizing entered context with
  | nil =>
    have h := hnext context hcontext
    rwa [List.map_nil, List.append_nil] at h
  | cons first rest ih =>
    obtain ⟨label, middleware⟩ := first
    have hrest (context : Context) (hcontext : holds context) :
        (compose (watched watch rest) context next).Logs parallel good fine (entered ++ [label]) := by
      apply ih _ _ hcontext
      · intro context hcontext
        rw [List.append_assoc]
        exact hnext context hcontext
      · intro part name hpart context next hcontext h
        rw [List.append_assoc] at h ⊢
        exact hwatch (label :: part) name ((List.prefix_cons_inj label).mpr hpart) context next
          hcontext h
      · exact fun entry hentry => hmiddleware entry (List.mem_cons_of_mem _ hentry)
    -- what runs behind the first trace
    let inside : Continuation := fun context =>
      middleware context fun context => compose (watched watch rest) context next
    have hinside : (inside context).Logs parallel good fine (entered ++ [label]) :=
      hmiddleware _ List.mem_cons_self (hrest context hcontext).good_start hcontext hrest
    have hfirst := hwatch [] label ((List.prefix_cons_inj label).mpr List.nil_prefix) context inside
      hcontext hinside
    rwa [List.append_nil] at hfirst

end Middleware

end PathQuery
