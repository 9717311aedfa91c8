import PathQuery.Proofs.Evaluation.Chain

/-!
# Runs and direct evaluation

What is compiled for a query does to the current value of every context in order what direct
evaluation does. The statement is carried along all levels at once (`Refined`): what is compiled at
a level refers to what is compiled one level deeper, now or, for the members of unions, when their
value is known.
-/

set_option autoImplicit false

namespace PathQuery

/-- The resolvers of a setting follow rules, and only objects and lists are filled. -/
structure Setting.RuledBy (setting : Setting) (rules : Structure → List Rule) : Prop where
  governs : ∀ shape, List.Forall₂ (Rule.Governs setting.execution.parallel) (rules shape)
    (setting.resolvers.atShape shape)
  containers : ∀ node, Node.Below setting.graph.root node →
    (rules node.shape).any Rule.isFill = true → node.kind = .object ∨ node.kind = .array

/-- At this many levels every query is compiled as it is accepted, and what is compiled answers as
direct evaluation does. -/
structure Setting.Refined (setting : Setting) (rules : Structure → List Rule) (levels : Nat) :
    Prop where
  accepted : ∀ optional node query, Node.Below setting.graph.root node →
    setting.accept levels node query = Traced.ofExcept
      ((setting.compile Operator.builtin levels optional node query).result.map fun _ => ())
  answered : ∀ optional node query, Node.Below setting.graph.root node →
    ∀ middleware, (setting.compile Operator.builtin levels optional node query).result =
      .ok middleware → ∀ context, context.Marked setting.graph rules →
    (middleware.evaluate context).timed setting.execution.parallel =
      setting.evaluate rules levels optional node query context.value?

theorem Descent.settle_eq (optional : Bool) (node : Node) (context : Context) :
    Descent.settle optional node context =
      node.settle (context.fillsEmpty node) optional context.value? := by
  unfold Descent.settle Node.settle
  cases context.value? with
  | some value => rfl
  | none => rfl

section

variable {setting : Setting} {rules : Structure → List Rule} {levels : Nat} {node : Node}
  {context : Context}

theorem Descent.timed_onSettled {parallel fills optional : Bool}
    {go : Context → Json → Run (Option Json)} {go' : Json → Timed (Option Json)}
    (hmark : context.fillsEmpty node = fills)
    (hgo : ∀ value, (go context value).timed parallel = go' value) :
    (onSettled optional node go context).timed parallel =
      node.settled fills optional go' context.value? := by
  rw [onSettled, Run.timed_bind, Run.timed_ofExcept, settle_eq, hmark, Node.settled]
  refine bind_congr fun settled => ?_
  cases settled with
  | none => rfl
  | some value => exact hgo value

namespace Setting.Refined

/-! ### Acceptance -/

theorem accepted_map (h : setting.Refined rules levels) {optional : Bool} {query : List Json}
    (hnode : Node.Below setting.graph.root node) (f : Middleware → Middleware) :
    setting.accept levels node query = Traced.ofExcept
      (((setting.compile Operator.builtin levels optional node query).result.map f).map
        fun _ => ()) := by
  rw [Except.map_map]
  exact h.accepted optional node query hnode

theorem accepted_compileFields (h : setting.Refined rules levels) {optional : Bool}
    (hnode : Node.Below setting.graph.root node) (head : Json)
    (properties : List (Property Structure)) (requested : List (String × Json)) :
    (requested.forM fun field =>
      node.withRequested head properties field fun _ child query =>
        setting.accept levels child query) =
      Traced.ofExcept ((Operator.compileFields
        ⟨setting, optional, setting.compile Operator.builtin levels⟩ node head properties
          requested).result.map fun _ => ()) := by
  induction requested with
  | nil => rfl
  | cons field rest ih =>
    rw [Operator.result_compileFields_cons, Except.map_bind, List.forM, Node.withRequested]
    cases hfield : node.requested head properties field with
    | error e => rfl
    | ok found =>
      obtain ⟨flag, child, query⟩ := found
      have haccepted := h.accepted flag child query (hnode.step (Node.child?_of_requested hfield))
      simp only [Except.ok_bind, Except.map_bind, Except.map_map]
      rw [Except.bind_const, Traced.ofExcept_bind, ← haccepted]
      exact congrArg (setting.accept levels child query >>= ·) (funext fun _ => ih)

/-! ### Answers -/

theorem timed_project (h : setting.Refined rules levels) {optional : Bool}
    (hnode : Node.Below setting.graph.root node) {head : Json}
    {properties : List (Property Structure)} {requested : List (String × Json)}
    {fields : List Operator.Selection}
    (hfields : (Operator.compileFields
      ⟨setting, optional, setting.compile Operator.builtin levels⟩ node head properties
        requested).result = .ok fields)
    (hmarked : context.Marked setting.graph rules) (given : List (String × Json)) :
    (Operator.project setting.execution.parallel context given fields).timed
        setting.execution.parallel =
      Operator.gather (requested.map Prod.fst) <$> Timed.together (requested.map fun field =>
        node.withRequested head properties field fun flag child query =>
          setting.evaluate rules levels flag child query (given.lookup field.1)) := by
  have hselects := Operator.forall₂_of_compileFields hfields
  rw [Operator.project, bind_pure_comp, Run.timed_map, Run.timed_all, List.map_map,
    Operator.Selects.map_name hselects]
  refine congrArg (fun runs => Operator.gather (requested.map Prod.fst) <$> Timed.together runs) ?_
  clear hfields
  induction hselects with
  | nil => rfl
  | @cons field selection _ _ hfirst _ ih =>
    obtain ⟨flag, child, query, hrequested, hinner⟩ := hfirst.compiled
    have hchild := h.answered flag child query (hnode.step (Node.child?_of_requested hrequested))
      _ hinner (context.setValue (given.lookup field.1)) (hmarked.setValue _)
    rw [Context.value?_setValue] at hchild
    rw [List.map_cons, List.map_cons, ih, Node.withRequested, hrequested, Function.comp_apply,
      Operator.runMember, hfirst.name, hchild]
    rfl

theorem timed_runItem (h : setting.Refined rules levels) {item : Node}
    (hitem : Node.Below setting.graph.root item) {rest : List Json} {inner : Middleware}
    (hinner : (setting.compile Operator.builtin levels false item rest).result = .ok inner)
    (hmarked : context.Marked setting.graph rules) (value : Json) (index : Nat) :
    (Excerpt.runItem inner context (value, index)).timed setting.execution.parallel =
      setting.evaluate rules levels false item rest (some value) := by
  have hvalue := h.answered false item rest hitem inner hinner
    ((context.push .index index).setValue (some value))
    ((hmarked.push (by decide : Key.index ≠ .sliced) (by decide) index none).setValue _)
  rwa [Context.value?_setValue] at hvalue

theorem timed_excerpt (h : setting.Refined rules levels) {item : Node}
    (hitem : Node.Below setting.graph.root item) {rest : List Json} {inner : Middleware}
    (hinner : (setting.compile Operator.builtin levels false item rest).result = .ok inner)
    (hmarked : context.Marked setting.graph rules) (excerpt : Excerpt) (list : List Json) :
    (excerpt.run setting.execution.parallel node inner context (.array list)).timed
        setting.execution.parallel =
      match excerpt.single? with
        | some index =>
          match list[index]? with
          | some value => setting.evaluate rules levels false item rest (some value)
          | none => return some .null
        | none => do
          let values ← Timed.together ((excerpt.items false list).map fun (value, _) =>
            setting.evaluate rules levels false item rest (some value))
          return some (.array (values.map fun value => value.getD .null)) := by
  have hinside : (context.push .parent (.array list)).Marked setting.graph rules :=
    hmarked.push (by decide : Key.parent ≠ .sliced) (by decide) _ none
  simp only [Excerpt.run]
  cases excerpt.single? with
  | some index =>
    cases hget : list[index]? with
    | some value =>
      simp only [hget]
      exact h.timed_runItem hitem hinner hinside value index
    | none =>
      simp only [hget]
      rfl
  | none =>
    rw [hmarked.unsliced, bind_pure_comp, Run.timed_map, Run.timed_all, List.map_map,
      bind_pure_comp]
    refine congrArg (fun runs => _ <$> Timed.together runs) (List.map_congr_left fun value _ => ?_)
    exact h.timed_runItem hitem hinner hinside value.1 value.2

theorem timed_intoMatched (h : setting.Refined rules levels)
    (hnode : Node.Below setting.graph.root node) (hmarked : context.Marked setting.graph rules)
    (optional : Bool) (query : List Json) (value : Json) :
    (Demand.intoMatched ⟨setting, optional, setting.compile Operator.builtin levels⟩ node query
        context value).timed setting.execution.parallel = (do
      let member ← Traced.ofExcept
        (Matching.selectMember setting.reach node (some value) none).result
      setting.accept levels member query
      setting.evaluate rules levels optional member query (some value)) := by
  simp only [Demand.intoMatched]
  rw [Run.timed_bind, Run.timed_walk, Traced.result_bind, Traced.ofExcept_bind, bind_assoc]
  refine Traced.bind_congr_of_ok fun member hselect => ?_
  have hmember := (Matching.memberOf_of_selectMember hselect).below hnode
  rw [h.accepted optional member query hmember]
  cases hinner : (setting.compile Operator.builtin levels optional member query).result with
  | error e => rfl
  | ok inner =>
    have hvalue := h.answered optional member query hmember inner hinner
      (context.setValue (some value)) (hmarked.setValue _)
    rwa [Context.value?_setValue] at hvalue

theorem answered_assemble (h : setting.Refined rules levels) (hruled : setting.RuledBy rules)
    (hnode : Node.Below setting.graph.root node) {optional : Bool} {demand : Demand}
    (hsuits : demand.Suits node) {middleware : Middleware}
    (hm : demand.assemble ⟨setting, optional, setting.compile Operator.builtin levels⟩ node =
      .ok middleware) (hmarked : context.Marked setting.graph rules) :
    let core := setting.descend (setting.accept levels) (setting.evaluate rules levels)
      ((rules node.shape).any Rule.isFill) optional node demand
    (middleware.evaluate context).timed setting.execution.parallel =
      match demand with
        | .anew _ => core context.value?
        | _ => Rule.chain (rules node.shape) core context.value? := by
  intro core
  cases demand with
  | whole =>
    cases hm
    refine Descent.timed_enclose (hruled.governs _) hnode none (fun context _ hmark => ?_) hmarked
    exact Descent.timed_onSettled hmark fun value => rfl
  | through input child rest =>
    obtain ⟨inner, hinner, rfl⟩ := Except.map_eq_ok_iff.mp hm
    obtain ⟨hobject, harray, step, hchild⟩ := hsuits
    refine Descent.timed_enclose (hruled.governs _) hnode input (fun context hmarked hmark => ?_)
      hmarked
    -- a wrapper is not filled, so there is no mark to pass on
    have hpass : Descent.passMarks node child context = context := by
      have hfill : context.fillsEmpty node = false := by
        cases hany : (rules node.shape).any Rule.isFill with
        | false => rw [hmark, hany]
        | true => exact absurd (hruled.containers node hnode hany) (by simp [hobject, harray])
      simp [Descent.passMarks, hfill, hmarked.unsliced]
    simp only [Descent.through, core, Setting.descend]
    split
    · rfl
    · rw [hpass]
      exact h.answered optional child rest (hnode.step hchild) inner hinner context hmarked
  | property name flag child rest =>
    obtain ⟨inner, hinner, rfl⟩ := Except.map_eq_ok_iff.mp hm
    obtain ⟨_, hchild⟩ := hsuits
    refine Descent.timed_enclose (hruled.governs _) hnode none (fun context hmarked hmark => ?_)
      hmarked
    refine Descent.timed_onSettled hmark fun value => ?_
    have hvalue := h.answered flag child rest (hnode.step hchild) inner hinner
      ((context.push .parent value).setValue (value.member? name))
      ((hmarked.push (by decide : Key.parent ≠ .sliced) (by decide) value none).setValue _)
    rwa [Context.value?_setValue] at hvalue
  | members head properties requested =>
    obtain ⟨fields, hfields, rfl⟩ := Except.map_eq_ok_iff.mp hm
    refine Descent.timed_enclose (hruled.governs _) hnode none (fun context hmarked hmark => ?_)
      hmarked
    refine Descent.timed_onSettled hmark fun value => ?_
    cases value with
    | object given =>
      have hproject := h.timed_project hnode hfields
        (hmarked.push (by decide : Key.parent ≠ .sliced) (by decide) (.object given) none) given
      simp only [Demand.intoMembers, bind_pure_comp]
      rw [Run.timed_map, hproject, Functor.map_map]
    | null | bool | number | string | array => rfl
  | items excerpt item rest =>
    obtain ⟨inner, hinner, rfl⟩ := Except.map_eq_ok_iff.mp hm
    obtain ⟨_, hitem⟩ := hsuits
    refine Descent.timed_enclose (hruled.governs _) hnode excerpt.input?
      (fun context hmarked hmark => ?_) hmarked
    refine Descent.timed_onSettled hmark fun value => ?_
    cases value with
    | array list => exact h.timed_excerpt (hnode.step hitem) hinner hmarked excerpt list
    | null | bool | number | string | object => rfl
  | matched query =>
    cases hm
    refine Descent.timed_enclose (hruled.governs _) hnode none (fun context hmarked hmark => ?_)
      hmarked
    exact Descent.timed_onSettled hmark fun value =>
      h.timed_intoMatched hnode hmarked optional query value
  | anew query =>
    obtain ⟨inner, hinner, rfl⟩ := Except.map_eq_ok_iff.mp hm
    have hvalue := h.answered false setting.graph.root query .start inner hinner
      (context.setValue none) (hmarked.setValue _)
    rw [Context.value?_setValue] at hvalue
    rw [Middleware.evaluate_answerAnew]
    exact hvalue

theorem accepted_assemble (h : setting.Refined rules levels)
    (hnode : Node.Below setting.graph.root node) {optional : Bool} {query : List Json}
    {demand : Demand} (hdemand : setting.demand node query = .ok demand) :
    setting.accept (levels + 1) node query = Traced.ofExcept ((demand.assemble
      ⟨setting, optional, setting.compile Operator.builtin levels⟩ node).map fun _ => ()) := by
  have hsuits := Setting.suits_demand hdemand
  rw [accept, hdemand, Traced.ofExcept_ok_bind]
  cases demand with
  | whole | matched => rfl
  | through input child rest =>
    obtain ⟨_, _, step, hchild⟩ := hsuits
    exact h.accepted_map (hnode.step hchild) _
  | property name flag child rest => exact h.accepted_map (hnode.step hsuits.2) _
  | items excerpt item rest => exact h.accepted_map (hnode.step hsuits.2) _
  | members head properties requested =>
    simp only [Demand.assemble, Except.map_map]
    exact h.accepted_compileFields hnode head properties requested
  | anew query => exact h.accepted_map .start _

end Setting.Refined

/-- Every level of compilation refines direct evaluation. -/
theorem Setting.refined (hruled : setting.RuledBy rules) (levels : Nat) :
    setting.Refined rules levels := by
  induction levels with
  | zero =>
    constructor
    · intro optional node query _
      rfl
    · intro optional node query _ middleware hm
      cases hm
  | succ levels ih =>
    constructor
    · intro optional node query hnode
      rw [compile_succ]
      cases hdemand : setting.demand node query with
      | error e =>
        rw [accept, hdemand]
        rfl
      | ok demand => exact ih.accepted_assemble hnode hdemand
    · intro optional node query hnode middleware hm context hmarked
      rw [compile_succ] at hm
      obtain ⟨demand, hdemand, hm⟩ := Except.bind_eq_ok_iff.mp hm
      have hanswer := ih.answered_assemble hruled hnode (suits_demand hdemand) hm hmarked
      rw [evaluate, hdemand, Traced.ofExcept_ok_bind]
      cases demand <;> exact hanswer

end

end PathQuery
