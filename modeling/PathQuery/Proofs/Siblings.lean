import PathQuery.Proofs.Together

/-!
# Siblings

The runs of siblings go on together or one after another. Both are taking turns at the waits at which
a run gives way, and one after another means that there are none of these (`Run.all_eq_together`). The
values and the error of siblings are those of their runs; which error it is may depend on the waits
before it, and on nothing else that the runs do (`Run.timed_all`).
-/

set_option autoImplicit false

namespace PathQuery

/-- A computation of which nothing is known but its waits and what comes of it. -/
abbrev Timed (α : Type) := Traced Unit α

/-- Those that go on together take turns at every wait. -/
def Timed.together {α : Type} (computations : List (Timed α)) : Timed (List α) :=
  Traced.together (fun _ => true) computations

/-- What all of them do at first, each on its own, they might as well do before. -/
theorem Timed.together_bind {α β γ : Type} (first : Timed α) (f : γ → α → Timed β) {items : List γ}
    (hne : items ≠ []) :
    Timed.together (items.map fun item => first >>= f item) =
      first >>= fun a => Timed.together (items.map fun item => f item a) := by
  obtain ⟨trail, result⟩ := first
  induction trail with
  | nil =>
    cases result with
    | ok a =>
      change Timed.together (items.map fun item => pure a >>= f item) = pure a >>= _
      simp only [pure_bind]
    | error error =>
      obtain ⟨item, rest, rfl⟩ := List.exists_cons_of_ne_nil hne
      rfl
  | cons entry trail ih =>
    have hne' : items.map (fun item => (⟨trail, result⟩ : Timed α) >>= f item) ≠ [] :=
      fun heq => hne (List.map_eq_nil_iff.mp heq)
    calc Timed.together (items.map fun item => (⟨entry :: trail, result⟩ : Timed α) >>= f item)
        = Timed.together ((items.map fun item => (⟨trail, result⟩ : Timed α) >>= f item).map
            (Traced.behind entry)) := by
          rw [List.map_map]
          exact congrArg _ (List.map_congr_left fun item _ =>
            Traced.behind_bind entry ⟨trail, result⟩ (f item))
      _ = (Timed.together (items.map fun item => (⟨trail, result⟩ : Timed α) >>= f item)).behind
            entry := Traced.together_behind rfl hne'
      _ = _ := by
          rw [ih]
          exact (Traced.behind_bind entry ⟨trail, result⟩ _).symm

namespace Run

variable {α β : Type}

/-- Whether siblings go on while a run does this. -/
def yields (parallel : Bool) (event : Event) : Bool := parallel && event.waits

theorem all_eq_together (parallel : Bool) (runs : List (Run α)) :
    all parallel runs = Traced.together (yields parallel) runs := by
  cases parallel with
  | true => rfl
  | false => exact (Traced.together_of_still fun _ _ _ _ => rfl).symm

theorem mem_trail_all {parallel : Bool} {runs : List (Run α)} {event : Event}
    (h : event ∈ (all parallel runs).trail) : ∃ run ∈ runs, event ∈ run.trail := by
  rw [all_eq_together] at h
  exact Traced.mem_trail_together h

theorem result_all_eq_ok_iff {parallel : Bool} {runs : List (Run α)} {values : List α} :
    (all parallel runs).result = .ok values ↔ runs.mapM Traced.result = .ok values := by
  rw [all_eq_together]
  exact Traced.result_together_eq_ok_iff

/-- Siblings give their values where none of them fails. -/
theorem forall₂_of_all {parallel : Bool} {runs : List (Run α)} {values : List α}
    (h : (all parallel runs).result = .ok values) :
    List.Forall₂ (fun run value => run.result = .ok value) runs values := by
  rw [result_all_eq_ok_iff] at h
  exact Except.mapM_eq_ok_iff.mp h

/-- One of the runs fails with the error before all others that fail: it gives way less often before
that, or as often and is earlier in the list. -/
def FailsFirst (parallel : Bool) (runs : List (Run α)) (error : Error) : Prop :=
  Traced.FailsFirst (yields parallel) runs error

theorem result_all_eq_error_iff {parallel : Bool} {runs : List (Run α)} {error : Error} :
    (all parallel runs).result = .error error ↔ FailsFirst parallel runs error := by
  rw [all_eq_together]
  exact Traced.result_together_eq_error_iff

theorem exists_of_result_all_eq_error {parallel : Bool} {runs : List (Run α)} {error : Error}
    (h : (all parallel runs).result = .error error) : ∃ run ∈ runs, run.result = .error error := by
  obtain ⟨before, run, after, rfl, hrun, _⟩ := result_all_eq_error_iff.mp h
  exact ⟨run, List.mem_append_right before List.mem_cons_self, hrun⟩

theorem meets_all {parallel : Bool} {runs : List (Run α)} {fine : Error → Prop}
    (h : ∀ run ∈ runs, run.result.Meets (fun _ => True) fine) :
    (all parallel runs).result.Meets (fun _ => True) fine := by
  cases hresult : (all parallel runs).result with
  | ok values => exact trivial
  | error error =>
    obtain ⟨run, hrun, herror⟩ := exists_of_result_all_eq_error hresult
    exact (h run hrun).fine_of herror

/-- What was given way to, and what came of the run. -/
def timed (parallel : Bool) (run : Run α) : Timed α :=
  run.filterTrail fun event => if yields parallel event then some () else none

section

variable (parallel : Bool)

@[simp] theorem result_timed (run : Run α) : (run.timed parallel).result = run.result := rfl

theorem timed_ofExcept (result : Except Error α) :
    timed parallel (Traced.ofExcept result) = Traced.ofExcept result := rfl

theorem timed_bind (run : Run α) (f : α → Run β) :
    timed parallel (run >>= f) = run.timed parallel >>= fun value => (f value).timed parallel :=
  Traced.filterTrail_bind _ run f

theorem timed_map (f : α → β) (run : Run α) : timed parallel (f <$> run) = f <$> run.timed parallel :=
  Traced.filterTrail_map _ f run

theorem timed_walk (walk : Walk α) : walk.run.timed parallel = Traced.ofExcept walk.result := by
  have htrail : (walk.run.timed parallel).trail = [] := by
    refine List.filterMap_eq_nil_iff.mpr fun event hevent => ?_
    obtain ⟨node, _, rfl⟩ := List.mem_map.mp hevent
    simp [yields, Event.waits]
  exact Traced.ext htrail rfl

theorem timed_all (runs : List (Run α)) :
    (all parallel runs).timed parallel = Timed.together (runs.map (timed parallel)) := by
  rw [all_eq_together]
  refine Traced.filterTrail_together (fun event => ?_) runs
  cases h : yields parallel event with
  | true => exact ⟨fun _ => ⟨(), by simp, rfl⟩, nofun⟩
  | false => exact ⟨nofun, fun _ _ hkept => by simp at hkept⟩

/-- Siblings that give way as often and come to the same, one by one, do so altogether. -/
theorem timed_all_congr {δ : Type} {f g : δ → Run α} {items : List δ}
    (h : ∀ item ∈ items, (g item).timed parallel = (f item).timed parallel) :
    (all parallel (items.map g)).timed parallel = (all parallel (items.map f)).timed parallel := by
  rw [timed_all, timed_all, List.map_map, List.map_map]
  exact congrArg Timed.together (List.map_congr_left h)

/-- One after another, only what comes of the runs counts. -/
theorem timed_false (run : Run α) : run.timed false = Traced.ofExcept run.result := by
  refine Traced.ext (List.filterMap_eq_nil_iff.mpr fun event _ => ?_) rfl
  simp [yields]

end

theorem result_of_timed {parallel : Bool} {run : Run α} {first : Timed β} {f : β → Timed α}
    (h : run.timed parallel = first >>= f) :
    run.result = first.result.bind fun value => (f value).result := by
  rw [← result_timed parallel, h, Traced.result_bind]

/-- The runs give way as often and come to what is alike. -/
structure Matches (parallel : Bool) (like : α → β → Prop) (run : Run α) (run' : Run β) : Prop where
  trail : (run'.timed parallel).trail = (run.timed parallel).trail
  result : Except.Agree like run.result run'.result

namespace Matches

variable {parallel : Bool} {γ δ : Type} {like : α → β → Prop} {run : Run α} {run' : Run β}

theorem pure {a : α} {b : β} (h : like a b) : Matches parallel like (pure a) (pure b) :=
  ⟨rfl, .ok h⟩

theorem map_eq (h : Matches parallel like run run') {f : α → γ} {g : β → γ}
    (hfg : ∀ a b, like a b → g b = f a) :
    (g <$> run').timed parallel = (f <$> run).timed parallel := by
  rw [timed_map, timed_map]
  refine Traced.ext ?_ ?_
  · rw [Traced.trail_map, Traced.trail_map, h.trail]
  · rw [Traced.result_map, Traced.result_map]
    exact h.result.map_eq hfg

theorem map_of_eq {run run' : Run α} (h : run'.timed parallel = run.timed parallel)
    {like : γ → δ → Prop} {f : α → γ} {g : α → δ} (hfg : ∀ a, like (f a) (g a)) :
    Matches parallel like (f <$> run) (g <$> run') where
  trail := by rw [timed_map, timed_map, Traced.trail_map, Traced.trail_map, h]
  result := by
    have hresult : run'.result = run.result := by rw [← result_timed parallel, h, result_timed]
    rw [Traced.result_map, Traced.result_map, hresult]
    cases run.result with
    | ok a => exact .ok (hfg a)
    | error error => exact .error error

end Matches

end Run

end PathQuery
