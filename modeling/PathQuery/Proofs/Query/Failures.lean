import PathQuery.Middleware.Stock
import PathQuery.Proofs.Query.Enclosure
import PathQuery.Proofs.Query.Places

/-!
# Failures of runs

What a query is compiled to can fail in a run for three reasons: a middleware of the host fails, a value
cannot be settled, or the member that a value of a union stands for is not found or refuses its part of
the query. If all these errors are of some sort, so are those of the run (`Setting.keeps_compile`).
-/

set_option autoImplicit false

namespace PathQuery

/-- The errors that the middleware raises by itself are of its own sort; others come from the rest of the
chain. -/
def Middleware.RaisesOnly (own : Error → Prop) (middleware : Middleware) : Prop :=
  ∀ context next error, (middleware context next).result = .error error →
    own error ∨ ∃ inner, (next inner).result = .error error

section

variable {fine own : Error → Prop} {middleware : Middleware}

theorem Middleware.RaisesOnly.keeps (h : middleware.RaisesOnly own)
    (hown : ∀ error, own error → fine error) : middleware.Keeps fine := by
  intro context next hnext
  refine Except.Meets.iff.mpr ⟨fun _ _ => trivial, fun error herror => ?_⟩
  rcases h context next error herror with hraised | ⟨inner, hinner⟩
  · exact hown error hraised
  · exact (hnext inner).fine_of hinner

theorem Middleware.raisesOnly_set (value : Json) : (Middleware.set value).RaisesOnly own :=
  fun context _ _ herror => .inr ⟨context.setValue (some value), herror⟩

/-! ## Settled values -/

/-- Values that do not fit, or are missing, fail with errors of the sort. -/
def Descent.Settles (fine : Error → Prop) : Prop :=
  ∀ optional node context, (settle optional node context).Meets (fun _ => True) fine

theorem Descent.settles (hmisfit : ∀ key expected received,
      fine (.invalidResolvedValue key expected received))
    (hmissing : ∀ key, fine (.couldNotResolve key)) : Settles fine := by
  intro optional node context
  have checked (value : Json) :
      ((checkShape node value).map fun _ => some value).Meets (fun _ => True) fine := by
    unfold checkShape
    split
    · exact hmisfit _ _ _
    · exact trivial
  unfold settle
  split
  · exact checked _
  · split
    · exact checked _
    · split
      · exact trivial
      · exact hmissing _

theorem Descent.Settles.meets_onSettled (h : Settles fine) (optional : Bool) (node : Node)
    (context : Context) {go : Context → Json → Run (Option Json)}
    (hgo : ∀ value, (go context value).result.Meets (fun _ => True) fine) :
    (onSettled optional node go context).result.Meets (fun _ => True) fine := by
  rw [result_onSettled]
  refine (h optional node context).bind fun settled _ _ => ?_
  cases settled with
  | none => exact trivial
  | some value => exact hgo value

/-! ## Members and items -/

theorem Operator.meets_project {fields : List Selection}
    (h : ∀ field ∈ fields, Middleware.Keeps fine field.2) (parallel : Bool) (context : Context)
    (given : List (String × Json)) :
    (project parallel context given fields).result.Meets (fun _ => True) fine := by
  rw [project, bind_pure_comp, Traced.result_map]
  refine (Run.meets_all fun run hrun => ?_).map fun _ _ _ => trivial
  obtain ⟨field, hfield, rfl⟩ := List.mem_map.mp hrun
  exact (h field hfield).meets_evaluate _

theorem Excerpt.meets_run {inner : Middleware} (h : inner.Keeps fine) (excerpt : Excerpt)
    (parallel : Bool) (node : Node) (context : Context) (value : Json) :
    (excerpt.run parallel node inner context value).result.Meets (fun _ => True) fine := by
  have hitem (context : Context) (item : Json × Nat) :
      (runItem inner context item).result.Meets (fun _ => True) fine :=
    h.meets_evaluate _
  unfold run
  split
  · simp only
    split
    · split
      · exact hitem _ _
      · exact trivial
    · rw [bind_pure_comp, Traced.result_map]
      refine (Run.meets_all fun run hrun => ?_).map fun _ _ _ => trivial
      obtain ⟨item, _, rfl⟩ := List.mem_map.mp hrun
      exact hitem _ item
  · exact trivial

/-! ## Compiled queries -/

/-- What the member is compiled to that a value of a union stands for. -/
def Setting.compileMatched (setting : Setting) (levels : Nat) (optional : Bool) (union : Node)
    (query : List Json) (value : Json) : Except Error Middleware :=
  (Matching.selectMember setting.reach union (some value) none).result.bind fun member =>
    (setting.compile Operator.builtin levels optional member query).result

variable {setting : Setting} {levels : Nat} {optional : Bool} {node : Node}

theorem Demand.meets_intoMatched {query : List Json} {value : Json} (context : Context)
    (hinner : ∀ inner, setting.compileMatched levels optional node query value = .ok inner →
      inner.Keeps fine)
    (herror : ∀ error, setting.compileMatched levels optional node query value = .error error →
      fine error) :
    (intoMatched ⟨setting, optional, setting.compile Operator.builtin levels⟩ node query context
      value).result.Meets (fun _ => True) fine := by
  have hmatched : (setting.compileMatched levels optional node query value).Meets
      (Middleware.Keeps fine) fine := Except.Meets.iff.mpr ⟨hinner, herror⟩
  simp only [intoMatched, Walk.run, Traced.result_bind, Traced.result_mapTrail]
  exact hmatched.bind fun inner _ hkeeps => hkeeps.meets_evaluate _

/-- What a demand is assembled to raises what the resolvers of the node raise, what settling raises, and
what is raised at the next places. -/
theorem Demand.keeps_assemble {demand : Demand} (hsettles : Descent.Settles fine)
    (hresolvers : ∀ middleware ∈ setting.resolvers.atShape node.shape, Middleware.Keeps fine middleware)
    (hleads : ∀ {next : Place}, demand.Leads setting node next → ∀ {optional inner},
      (setting.compile Operator.builtin levels optional next.node next.query).result = .ok inner →
        inner.Keeps fine)
    (hanew : ∀ {query inner}, demand = .anew query →
      (setting.compile Operator.builtin levels false setting.graph.root query).result = .ok inner →
        inner.Keeps fine)
    (hmatched : ∀ {query value error}, demand = .matched query →
      setting.compileMatched levels optional node query value = .error error → fine error)
    (h : demand.assemble ⟨setting, optional, setting.compile Operator.builtin levels⟩ node =
      .ok middleware) : middleware.Keeps fine := by
  -- all but two demands settle the value of the node first
  have keeps_settled (input : Option Json) {go : Context → Json → Run (Option Json)}
      (hgo : ∀ context value, (go context value).result.Meets (fun _ => True) fine) :
      Middleware.Keeps fine
        (Descent.enclose setting.resolvers node input (Descent.onSettled optional node go)) := by
    apply Descent.keeps_enclose hresolvers input
    intro context
    exact hsettles.meets_onSettled optional node context (hgo context)
  cases demand with
  | whole =>
    cases h
    exact keeps_settled none fun _ _ => trivial
  | through input child rest =>
    obtain ⟨inner, hinner, rfl⟩ := Except.map_eq_ok_iff.mp h
    apply Descent.keeps_enclose hresolvers input
    intro context
    unfold Descent.through
    split
    · exact trivial
    · exact (hleads .through hinner).meets_evaluate _
  | property name flag child rest =>
    obtain ⟨inner, hinner, rfl⟩ := Except.map_eq_ok_iff.mp h
    apply keeps_settled none
    intro context value
    exact (hleads .property hinner).meets_evaluate _
  | members head properties requested =>
    obtain ⟨fields, hfields, rfl⟩ := Except.map_eq_ok_iff.mp h
    have hkeeps : ∀ field ∈ fields, Middleware.Keeps fine field.2 := by
      intro selection hmem
      obtain ⟨field, hfield, _, _, _, _, hrequested, hinner⟩ :=
        Operator.exists_of_mem_compileFields hfields hmem
      exact hleads (.member hfield hrequested) hinner
    apply keeps_settled none
    intro context value
    unfold Demand.intoMembers
    split
    · rw [bind_pure_comp, Traced.result_map]
      exact (Operator.meets_project hkeeps _ _ _).map fun _ _ _ => trivial
    · exact trivial
  | items excerpt item rest =>
    obtain ⟨inner, hinner, rfl⟩ := Except.map_eq_ok_iff.mp h
    apply keeps_settled
    intro context value
    exact Excerpt.meets_run (hleads .item hinner) excerpt _ node context value
  | matched query =>
    cases h
    apply keeps_settled none
    intro context value
    refine meets_intoMatched context (fun inner hinner => ?_) fun error => hmatched rfl
    obtain ⟨member, hmember, hinner⟩ := Except.bind_eq_ok_iff.mp hinner
    exact hleads (.matched hmember) hinner
  | anew query =>
    obtain ⟨inner, hinner, rfl⟩ := Except.map_eq_ok_iff.mp h
    intro context next hnext
    unfold Demand.answerAnew
    rw [Traced.result_bind]
    exact ((hanew rfl hinner).meets_evaluate _).bind fun value _ _ => hnext _

/-- The errors of a run are of a sort that holds the errors of the resolvers, those of settling, and those
that come of the unions which the query leaves to their values. -/
theorem Setting.keeps_compile (hsettles : Descent.Settles fine)
    (hresolvers : ∀ shape, ∀ middleware ∈ setting.resolvers.atShape shape,
      Middleware.Keeps fine middleware)
    (start : Place) (hmatched : ∀ {place query}, setting.Comes start place →
      setting.demand place.node place.query = .ok (.matched query) →
        ∀ {levels optional value error},
          setting.compileMatched levels optional place.node query value = .error error → fine error)
    {inner : Middleware}
    (h : (setting.compile Operator.builtin levels optional start.node start.query).result = .ok inner) :
    inner.Keeps fine := by
  induction levels generalizing optional start inner with
  | zero => cases h
  | succ levels ih =>
    rw [compile_succ] at h
    obtain ⟨demand, hdemand, h⟩ := Except.bind_eq_ok_iff.mp h
    refine Demand.keeps_assemble hsettles (hresolvers _) (fun hleads _ _ hinner => ?_) ?_ ?_ h
    · exact ih _ (fun hcomes => hmatched (.leads hdemand hleads hcomes)) hinner
    · rintro query inner rfl hinner
      exact ih ⟨setting.graph.root, query⟩ (fun hcomes => hmatched (.anew hdemand hcomes)) hinner
    · rintro query value error rfl herror
      exact hmatched (.here start) hdemand herror

end

end PathQuery
