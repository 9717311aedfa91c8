import PathQuery.Proofs.Evaluation.Basic

/-!
# Less and more levels

An outcome is within another one if it is the same, or if the levels ran out before anything else was
told. Sequences, descents and chains of rules that pass on such a failure keep this order, so more
levels never change an answer (`evaluate_mono`).
-/

set_option autoImplicit false

namespace PathQuery

/-- The levels ran out. -/
def Error.IsLimit (error : Error) : Prop :=
  ∃ limit, error = recursionLimitExceeded limit

namespace Timed

variable {α β : Type}

/-- The levels of the first one ran out, or the second one is the same. -/
def Within (x y : Timed α) : Prop :=
  Traced.Until Error.IsLimit x y

theorem Within.fail (limit : Nat) (y : Timed α) :
    Within (Traced.fail (.recursionLimitExceeded limit)) y :=
  .inl ⟨_, rfl, ⟨limit, rfl⟩, List.nil_prefix⟩

theorem Within.refl (x : Timed α) : Within x x := .inr rfl

theorem Within.trans {x y z : Timed α} (h : Within x y) (h' : Within y z) : Within x z := by
  obtain ⟨error, hresult, hlimit, htrail⟩ | rfl := h
  · refine .inl ⟨error, hresult, hlimit, ?_⟩
    obtain ⟨_, _, _, htrail'⟩ | rfl := h'
    · exact htrail.trans htrail'
    · exact htrail
  · exact h'

theorem Within.forM {f g : α → Timed PUnit} {items : List α}
    (h : ∀ item ∈ items, Within (f item) (g item)) : Within (items.forM f) (items.forM g) := by
  induction items with
  | nil => exact .refl _
  | cons item rest ih =>
    obtain ⟨hitem, hrest⟩ := List.forall_mem_cons.mp h
    exact Traced.Until.bind hitem fun _ _ => ih hrest

/-- Siblings whose answers are within others, one by one. -/
theorem Within.together {f g : α → Timed β} {items : List α}
    (h : ∀ item ∈ items, Within (f item) (g item)) :
    Within (Timed.together (items.map f)) (Timed.together (items.map g)) := by
  refine Traced.Until.together ?_
  rw [List.forall₂_map_left_iff, List.forall₂_map_right_iff]
  exact List.forall₂_same.mpr h

theorem Within.eq_of_ne {x y : Timed α} (h : Within x y)
    (hx : ∀ limit, x.result ≠ .error (.recursionLimitExceeded limit)) : y = x := by
  obtain ⟨error, hresult, ⟨limit, rfl⟩, _⟩ | h := h
  · exact absurd hresult (hx limit)
  · exact h

end Timed

open Timed (Within)

/-! ## Rules -/

/-- Passes on at once that the levels ran out. -/
def Rule.PassesLimit : Rule → Prop
  | react reaction => ∀ value next revise, (reaction value).result = .ok (.proceed next revise) →
      ∀ limit, revise (.error (.recursionLimitExceeded limit)) =
        Traced.fail (.recursionLimitExceeded limit)
  | fillEmpty => True

namespace Rule

variable {f g : Option Json → Timed (Option Json)}

theorem PassesLimit.around_within {rule : Rule} (hrule : rule.PassesLimit)
    (h : ∀ value, Within (f value) (g value)) (value : Option Json) :
    Within (rule.around f value) (rule.around g value) := by
  cases rule with
  | fillEmpty => exact h value
  | react reaction =>
    refine Traced.Until.bind (Within.refl _) fun reacted hreacted => ?_
    cases reacted with
    | stop value => exact .refl _
    | proceed next revise =>
      obtain ⟨error, hresult, ⟨limit, rfl⟩, htrail⟩ | heq := h next
      · have hpasses := hrule value next revise hreacted limit
        refine .inl ⟨_, ?_, ⟨limit, rfl⟩, ?_⟩
        · rw [Reaction.complete, Timed.revised, hresult, hpasses]
          rfl
        · rw [Reaction.complete, Timed.revised, hresult, hpasses]
          exact (List.append_nil _).symm ▸ htrail.trans (List.prefix_append _ _)
      · rw [Reaction.complete, Reaction.complete, heq]
        exact .refl _

theorem chain_within {rules : List Rule} (hrules : ∀ rule ∈ rules, rule.PassesLimit)
    (h : ∀ value, Within (f value) (g value)) (value : Option Json) :
    Within (chain rules f value) (chain rules g value) := by
  induction rules generalizing value with
  | nil => exact h value
  | cons rule rest ih =>
    obtain ⟨hrule, hrest⟩ := List.forall_mem_cons.mp hrules
    exact hrule.around_within (ih hrest) value

end Rule

theorem Node.settled_within (node : Node) (fills optional : Bool)
    {f g : Json → Timed (Option Json)} (h : ∀ value, Within (f value) (g value))
    (value : Option Json) :
    Within (node.settled fills optional f value) (node.settled fills optional g value) := by
  refine Traced.Until.bind (Within.refl _) fun settled _ => ?_
  cases settled with
  | none => exact .refl _
  | some value => exact h value

/-! ## Queries -/

namespace Setting

variable (setting : Setting)

theorem descend_within {accept accept' : Node → List Json → Timed Unit}
    {evaluate evaluate' : Bool → Node → List Json → Option Json → Timed (Option Json)}
    (ha : ∀ node query, Within (accept node query) (accept' node query))
    (he : ∀ optional node query value,
      Within (evaluate optional node query value) (evaluate' optional node query value))
    (fills optional : Bool) (node : Node) (demand : Demand) (value : Option Json) :
    Within (setting.descend accept evaluate fills optional node demand value)
      (setting.descend accept' evaluate' fills optional node demand value) := by
  cases demand with
  | whole => exact .refl _
  | through input child rest =>
    simp only [descend]
    split
    · exact .refl _
    · exact he _ _ _ _
  | property name flag child rest => exact node.settled_within _ _ (fun _ => he _ _ _ _) value
  | members head properties requested =>
    refine node.settled_within _ _ (fun settled => ?_) value
    split
    · refine Traced.Until.bind (Within.together fun field _ => ?_) fun _ _ => .refl _
      exact Traced.Until.bind (Within.refl _) fun _ _ => he _ _ _ _
    · exact .refl _
  | items excerpt item rest =>
    refine node.settled_within _ _ (fun settled => ?_) value
    split
    · split
      · split
        · exact he _ _ _ _
        · exact .refl _
      · exact Traced.Until.bind (Within.together fun _ _ => he _ _ _ _) fun _ _ => .refl _
    · exact .refl _
  | matched query =>
    refine node.settled_within _ _ (fun settled => ?_) value
    refine Traced.Until.bind (Within.refl _) fun member _ => ?_
    exact Traced.Until.bind (ha _ _) fun _ _ => he _ _ _ _
  | anew query => exact he _ _ _ _

theorem accept_succ_within (levels : Nat) (node : Node) (query : List Json) :
    Within (setting.accept levels node query) (setting.accept (levels + 1) node query) := by
  induction levels generalizing node query with
  | zero => exact .fail _ _
  | succ levels ih =>
    rw [accept, accept]
    refine Traced.Until.bind (Within.refl _) fun demand _ => ?_
    cases demand with
    | whole | matched => exact .refl _
    | through | property | items | anew => exact ih _ _
    | members head properties requested =>
      exact Within.forM fun field _ => Traced.Until.bind (Within.refl _) fun _ _ => ih _ _

variable {rules : Structure → List Rule} (hrules : ∀ shape, ∀ rule ∈ rules shape, rule.PassesLimit)

include hrules

theorem evaluate_succ_within (levels : Nat) (optional : Bool) (node : Node) (query : List Json)
    (value : Option Json) :
    Within (setting.evaluate rules levels optional node query value)
      (setting.evaluate rules (levels + 1) optional node query value) := by
  induction levels generalizing optional node query value with
  | zero => exact .fail _ _
  | succ levels ih =>
    rw [evaluate, evaluate]
    refine Traced.Until.bind (Within.refl _) fun demand _ => ?_
    have hcore := setting.descend_within (setting.accept_succ_within levels) ih
      ((rules node.shape).any Rule.isFill) optional node demand
    cases demand with
    | anew => exact hcore value
    | _ => exact Rule.chain_within (hrules node.shape) hcore value

/-- Where rules pass on that the levels ran out, more levels give the same answer wherever there was
one. -/
theorem evaluate_mono {levels more : Nat} (h : levels ≤ more) (optional : Bool) (node : Node)
    (query : List Json) (value : Option Json) :
    Within (setting.evaluate rules levels optional node query value)
      (setting.evaluate rules more optional node query value) := by
  induction h with
  | refl => exact .refl _
  | step _ ih => exact ih.trans (setting.evaluate_succ_within hrules _ optional node query value)

end Setting

end PathQuery
