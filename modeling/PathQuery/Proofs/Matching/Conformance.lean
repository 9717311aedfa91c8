import PathQuery.Matching
import PathQuery.Proofs.Graph.Scope

/-!
# Conformance

What it means for a value to conform to a node, one rule for each kind of structure. In scope,
matching decides conformance (`Matching.meets_fits_iff`), and the check of a call decides whether it may
be made (`Matching.decides_checkCall`), unless they give up on a chain of wrappers or members.
-/

set_option autoImplicit false

namespace PathQuery

/-- A chain of wrappers was given up. -/
def Error.Endless (error : Error) : Prop :=
  ∃ key, error = .endlessChain key

/-- The client is to blame for asking what is not accepted, unless the computation gave up. -/
def Error.Refuses (gaveUp : Error → Prop) (accepted : Prop) (error : Error) : Prop :=
  gaveUp error ∨ error.category = .client ∧ ¬ accepted

/-- A computation that succeeds exactly if something holds, unless it gives up. -/
def Decides {α : Type} (gaveUp : Error → Prop) (x : Except Error α) (holds : Prop) : Prop :=
  x.Meets (fun _ => holds) (Error.Refuses gaveUp holds)

section

variable {gaveUp : Error → Prop}

theorem Error.Refuses.client {accepted : Prop} {error : Error} (category : error.category = .client)
    (not : ¬ accepted) : error.Refuses gaveUp accepted :=
  .inr ⟨category, not⟩

theorem Error.Refuses.of_imp {accepted other : Prop} {error : Error}
    (h : error.Refuses gaveUp accepted) (himp : other → accepted) : error.Refuses gaveUp other :=
  Or.imp_right (And.imp_right fun hnot hother => hnot (himp hother)) h

namespace Decides

variable {α β : Type} {x : Except Error α} {holds other : Prop}

theorem error {e : Error} (category : e.category = .client) (not : ¬ holds) :
    Decides gaveUp (.error e : Except Error α) holds :=
  Error.Refuses.client category not

theorem congr (h : Decides gaveUp x holds) (hiff : holds ↔ other) : Decides gaveUp x other := by
  rwa [← propext hiff]

theorem map (h : Decides gaveUp x holds) (f : α → β) : Decides gaveUp (x.map f) holds := by
  cases x with
  | ok a => exact h
  | error e => exact h

/-- What is accepted in the end takes what the first part decides. -/
theorem bind {good : β → Prop} {f : α → Except Error β} (h : Decides gaveUp x holds)
    (himp : other → holds)
    (hf : ∀ a, x = .ok a → holds → (f a).Meets good (Error.Refuses gaveUp other)) :
    (x.bind f).Meets good (Error.Refuses gaveUp other) := by
  cases x with
  | ok a => exact hf a rfl h
  | error e => exact Error.Refuses.of_imp h himp

theorem of_meets {x : Except Error Bool} {f : Bool → Except Error β}
    (h : x.Meets (fun passes => passes = true ↔ holds) gaveUp)
    (htrue : holds → Decides gaveUp (f true) other)
    (hfalse : ¬ holds → Decides gaveUp (f false) other) : Decides gaveUp (x.bind f) other := by
  cases x with
  | ok passes =>
    cases passes with
    | true => exact htrue (h.mp rfl)
    | false => exact hfalse fun hholds => Bool.false_ne_true (h.mpr hholds)
  | error e => exact .inl h

end Decides

end

theorem Structure.kind_eq_function_iff (s : Structure) :
    s.kind = .function ↔ ∃ label args returns, s = .function label args returns := by
  cases s <;> simp [kind]

/-- The step through a structure that only wraps another one. -/
def Structure.wrapping? : Structure → Option Step
  | ref .. => some .target
  | typeAlias .. => some .body
  | nullable .. => some .inner
  | _ => none

namespace Node

/-- The node that a wrapping one stands for. -/
def Wraps (node next : Node) : Prop :=
  ∃ step, node.shape.wrapping? = some step ∧ node.child? step = .ok next

/-- A value conforms to a node. -/
inductive Conforms : Node → Json → Prop where
  | wrapped {node next : Node} {value : Json} (step : Wraps node next)
      (rest : Conforms next value) : Conforms node value
  | null {node : Node} {value : Json} (kind : node.kind = .nullable)
      (null : value.isNull = true) : Conforms node value
  | primitive {node : Node} {value : Json} {label : Label} {type : Primitive}
      (shape : node.shape = .primitive label type) (admits : type.admits value = true) :
      Conforms node value
  | literal {node : Node} {value : Json} {label : Label} {constant : Json}
      (shape : node.shape = .literal label constant) (equal : (constant == value) = true) :
      Conforms node value
  | items {node item : Node} {values : List Json} (kind : node.kind = .array)
      (step : node.child? .items = .ok item) (each : ∀ value ∈ values, Conforms item value) :
      Conforms node (.array values)
  | member {node next : Node} {value : Json} (member : MemberOf node next)
      (rest : Conforms next value) : Conforms node value
  | members {node : Node} {given : List (String × Json)} (child : String × Json → Node)
      (kind : node.kind = .object ∨ node.kind = .arguments)
      (declared : ∀ field ∈ given, node.child? (.field field.1) = .ok (child field))
      (each : ∀ field ∈ given, Conforms (child field) field.2) : Conforms node (.object given)
  | function {node : Node} {value : Json} (kind : node.kind = .function) : Conforms node value

/-- The items of an argument list that are declared and the ones that are required are given, and
every value conforms. -/
inductive Callable (node : Node) : Json → Prop where
  | given {arguments : Node} {label : Label} {declared : List (Property Structure)}
      {given : List (String × Json)} (step : node.child? .arguments = .ok arguments)
      (shape : arguments.shape = .arguments label declared)
      (required : ∀ item ∈ declared, item.optional = false → (given.lookup item.name).isSome)
      (each : ∀ field ∈ given, ∃ item, arguments.child? (.field field.1) = .ok item ∧
        Conforms item field.2) : Callable node (.object given)

end Node

namespace Traced

variable {ε α : Type} {test : α → Traced ε Bool} {fine : Error → Prop}

theorem meets_allM_iff (holds : α → Prop) {items : List α}
    (h : ∀ item ∈ items, (test item).result.Meets (fun passes => passes = true ↔ holds item) fine) :
    (allM test items).result.Meets (fun passes => passes = true ↔ ∀ item ∈ items, holds item)
      fine := by
  induction items with
  | nil => exact iff_of_true rfl nofun
  | cons first rest ih =>
    obtain ⟨hfirst, hrest⟩ := List.forall_mem_cons.mp h
    simp only [allM, result_bind]
    refine hfirst.bind fun passes _ hpasses => ?_
    cases passes with
    | true =>
      simp only [if_true]
      refine (ih hrest).mono fun others _ hothers => ?_
      rw [hothers, List.forall_mem_cons, ← hpasses, eq_self, true_and]
    | false =>
      refine iff_of_false nofun fun hall => ?_
      exact Bool.false_ne_true (hpasses.mpr (hall first List.mem_cons_self))

theorem meets_anyM_iff (holds : α → Prop) {items : List α}
    (h : ∀ item ∈ items, (test item).result.Meets (fun passes => passes = true ↔ holds item) fine) :
    (anyM test items).result.Meets (fun passes => passes = true ↔ ∃ item ∈ items, holds item)
      fine := by
  induction items with
  | nil => exact iff_of_false nofun nofun
  | cons first rest ih =>
    obtain ⟨hfirst, hrest⟩ := List.forall_mem_cons.mp h
    simp only [anyM, result_bind]
    refine hfirst.bind fun passes _ hpasses => ?_
    cases passes with
    | true => exact iff_of_true rfl ⟨first, List.mem_cons_self, hpasses.mp rfl⟩
    | false =>
      refine (ih hrest).mono fun others _ hothers => ?_
      have hnot : ¬ holds first := fun hholds => Bool.false_ne_true (hpasses.mpr hholds)
      simp only [hothers, List.mem_cons, exists_eq_or_imp, hnot, false_or]

end Traced

namespace Node

variable {node next member : Node} {value : Json}

theorem Scoped.exists_wrapped (h : node.Scoped) {step : Step}
    (hstep : node.shape.wrapping? = some step) : ∃ next, node.child? step = .ok next := by
  cases hshape : node.shape with
  | ref label target typeArguments =>
    rw [hshape] at hstep
    cases hstep
    have hhere := h.here
    rw [hshape] at hhere
    obtain ⟨declaration, happlied⟩ := hhere.applied
    exact ⟨_, child?_target hshape happlied⟩
  | typeAlias _ _ _ part | nullable _ part =>
    rw [hshape] at hstep
    cases hstep
    exact ⟨_, child?_of_component? (by rw [hshape]; rfl)⟩
  | _ =>
    rw [hshape] at hstep
    cases hstep

/-- In scope a step fails only for the client. -/
theorem Scoped.decides_child? {gaveUp : Error → Prop} (h : node.Scoped) (step : Step) :
    Decides gaveUp (node.child? step) (∃ child, node.child? step = .ok child) := by
  cases hstep : node.child? step with
  | ok child => exact ⟨child, rfl⟩
  | error e =>
    refine .error (h.category_of_child? hstep) ?_
    rintro ⟨_, hchild⟩
    cases hchild

/-- What a value that conforms to a node has to do with the structure there. -/
theorem Conforms.inversion (h : Conforms node value) :
    match node.shape with
    | .root _ => False
    | .ref .. | .typeAlias .. => ∃ next, Wraps node next ∧ Conforms next value
    | .nullable .. => value.isNull = true ∨ ∃ next, Wraps node next ∧ Conforms next value
    | .primitive _ type => type.admits value = true
    | .literal _ constant => (constant == value) = true
    | .array .. => ∃ item values, value = .array values ∧ node.child? .items = .ok item ∧
        ∀ value ∈ values, Conforms item value
    | .union .. => ∃ member, MemberOf node member ∧ Conforms member value
    | .object .. | .arguments .. => ∃ given, value = .object given ∧ ∀ field ∈ given,
        ∃ child, node.child? (.field field.1) = .ok child ∧ Conforms child field.2
    | .function .. => True := by
  have hkind : node.kind = node.shape.kind := rfl
  generalize hs : node.shape = shape at hkind ⊢
  cases h with
  | wrapped wraps rest =>
    have hwraps := wraps
    obtain ⟨step, hstep, _⟩ := wraps
    rw [hs] at hstep
    cases shape with
    | ref | typeAlias => exact ⟨_, hwraps, rest⟩
    | nullable => exact .inr ⟨_, hwraps, rest⟩
    | _ => cases hstep
  | null kind null => cases shape <;> first | exact .inl null | cases hkind.symm.trans kind
  | primitive shape admits =>
    cases hs.symm.trans shape
    exact admits
  | literal shape equal =>
    cases hs.symm.trans shape
    exact equal
  | items kind step each =>
    cases shape <;> first | exact ⟨_, _, rfl, step, each⟩ | cases hkind.symm.trans kind
  | member member rest =>
    cases shape <;> first
      | exact ⟨_, member, rest⟩
      | cases hkind.symm.trans (kind_of_memberOf member)
  | members child kind declared each =>
    rcases kind with kind | kind
    all_goals
      cases shape <;> first
        | exact ⟨_, rfl, fun field hfield => ⟨_, declared field hfield, each field hfield⟩⟩
        | cases hkind.symm.trans kind
  | function kind => cases shape <;> first | trivial | cases hkind.symm.trans kind

/-- What conforms to an object or to an argument list is an object with declared members. -/
theorem Conforms.members_of_kind (h : Conforms node value)
    (hkind : node.kind = .object ∨ node.kind = .arguments) :
    ∃ given, value = .object given ∧ ∀ field ∈ given,
      ∃ child, node.child? (.field field.1) = .ok child ∧ Conforms child field.2 := by
  have hinversion := h.inversion
  have hshape : node.kind = node.shape.kind := rfl
  cases hs : node.shape with
  | object | arguments =>
    rw [hs] at hinversion
    exact hinversion
  | _ =>
    rw [hshape, hs] at hkind
    simp [Structure.kind] at hkind

theorem conforms_object {given : List (String × Json)}
    (hkind : node.kind = .object ∨ node.kind = .arguments)
    (h : ∀ field ∈ given, ∃ child, node.child? (.field field.1) = .ok child ∧
      Conforms child field.2) : Conforms node (.object given) := by
  have : Nonempty Node := ⟨node⟩
  choose! child hchild using h
  exact .members child hkind (fun field hfield => (hchild field hfield).1)
    fun field hfield => (hchild field hfield).2

end Node

namespace Matching

open Node (Conforms)

variable {node : Node}

/-- An object or the arguments of a call, each member at the child of its name. -/
theorem meets_object {reach : Nat} (hkind : node.kind = .object ∨ node.kind = .arguments)
    (value : Json)
    (hfits : ∀ {name child}, node.child? (.field name) = .ok child → ∀ value,
      (fits reach child value).result.Meets (fun passes => passes = true ↔ Conforms child value)
        Error.Endless) :
    (match value with
      | .object members =>
        Traced.allM (fun (name, value) =>
          match node.child? (.field name) with
          | .ok _ => do fits reach (← node.step (.field name)) value
          | .error _ => return false) members
      | _ => return false : Walk Bool).result.Meets
        (fun passes => passes = true ↔ Conforms node value) Error.Endless := by
  split
  · next given =>
    have hgiven : Conforms node (.object given) ↔ ∀ field ∈ given,
        ∃ child, node.child? (.field field.1) = .ok child ∧ Conforms child field.2 := by
      refine ⟨fun hconforms => ?_, Node.conforms_object hkind⟩
      obtain ⟨_, heq, heach⟩ := hconforms.members_of_kind hkind
      cases heq
      exact heach
    rw [hgiven]
    refine Traced.meets_allM_iff _ fun (name, value) _ => ?_
    dsimp only
    split
    · next child hchild =>
      rw [Traced.result_bind, Node.result_step, hchild, Except.ok_bind]
      refine (hfits hchild value).mono fun passes _ hpasses => hpasses.trans ⟨?_, ?_⟩
      · intro hconforms
        exact ⟨child, rfl, hconforms⟩
      · rintro ⟨_, hfound, hconforms⟩
        cases hfound
        exact hconforms
    · next hchild =>
      refine iff_of_false nofun ?_
      rintro ⟨child, hfound, _⟩
      cases hchild.symm.trans hfound
  · next hne =>
    refine iff_of_false nofun fun hconforms => ?_
    obtain ⟨given, hvalue, _⟩ := hconforms.members_of_kind hkind
    exact hne given hvalue

/-- Matching decides conformance. -/
theorem meets_fits_iff (h : node.Scoped) (reach : Nat) (value : Json) :
    (fits reach node value).result.Meets (fun passes => passes = true ↔ Conforms node value)
      Error.Endless := by
  induction reach generalizing node value with
  | zero => exact ⟨_, rfl⟩
  | succ reach ih =>
    have hinversion (hconforms : Conforms node value) := hconforms.inversion
    have wrapped (step : Step) (hstep : node.shape.wrapping? = some step) :
        (do fits reach (← node.step step) value : Walk Bool).result.Meets
          (fun passes => passes = true ↔ ∃ next, node.Wraps next ∧ Conforms next value)
          Error.Endless := by
      obtain ⟨next, hnext⟩ := h.exists_wrapped hstep
      rw [Traced.result_bind, Node.result_step, hnext, Except.ok_bind]
      refine (ih (h.child hnext) value).mono fun passes _ hpasses => hpasses.trans ⟨?_, ?_⟩
      · intro hconforms
        exact ⟨next, ⟨step, hstep, hnext⟩, hconforms⟩
      · rintro ⟨other, ⟨step', hstep', hother⟩, hconforms⟩
        cases hstep.symm.trans hstep'
        cases hnext.symm.trans hother
        exact hconforms
    unfold fits
    split
    · next hs =>
      rw [hs] at hinversion
      exact iff_of_false nofun hinversion
    · next hs =>
      rw [hs] at hinversion
      refine (wrapped .target (by rw [hs]; rfl)).mono fun passes _ hpasses => hpasses.trans ?_
      exact ⟨fun ⟨_, hwraps, hconforms⟩ => .wrapped hwraps hconforms, hinversion⟩
    · next hs =>
      rw [hs] at hinversion
      refine (wrapped .body (by rw [hs]; rfl)).mono fun passes _ hpasses => hpasses.trans ?_
      exact ⟨fun ⟨_, hwraps, hconforms⟩ => .wrapped hwraps hconforms, hinversion⟩
    · next hs =>
      rw [hs] at hinversion
      exact ⟨Conforms.primitive hs, hinversion⟩
    · next hs =>
      rw [hs] at hinversion
      exact ⟨Conforms.literal hs, hinversion⟩
    · next hs =>
      rw [hs] at hinversion
      have hkind : node.kind = .nullable := congrArg Structure.kind hs
      cases hnull : value.isNull with
      | true => exact iff_of_true rfl (.null hkind hnull)
      | false =>
        refine (wrapped .inner (by rw [hs]; rfl)).mono fun passes _ hpasses => hpasses.trans ?_
        refine ⟨fun ⟨_, hwraps, hconforms⟩ => .wrapped hwraps hconforms, fun hconforms => ?_⟩
        exact (hinversion hconforms).resolve_left (by rw [hnull]; exact Bool.false_ne_true)
    · next hs =>
      rw [hs] at hinversion
      have hkind : node.kind = .array := congrArg Structure.kind hs
      split
      · next values =>
        have hitem := Node.child?_of_component? (show node.shape.component? .items = some _ by
          rw [hs]; rfl)
        rw [Traced.result_bind, Node.result_step, hitem, Except.ok_bind]
        refine (Traced.meets_allM_iff _ fun item _ => ih (h.child hitem) item).mono
          fun passes _ hpasses => hpasses.trans ⟨.items hkind hitem, fun hconforms => ?_⟩
        obtain ⟨item, values, hvalue, hstep, heach⟩ := hinversion hconforms
        cases hvalue
        cases hitem.symm.trans hstep
        exact heach
      · next hne =>
        refine iff_of_false nofun fun hconforms => ?_
        obtain ⟨_, values, hvalue, _⟩ := hinversion hconforms
        exact hne values hvalue
    · next hs =>
      rw [hs] at hinversion
      rw [Traced.result_bind, Node.result_allMembers, Except.ok_bind]
      refine (Traced.meets_anyM_iff (fun member => Conforms member value) fun member hmember => ?_).mono
        fun passes _ hpasses => hpasses.trans ⟨?_, fun hconforms => ?_⟩
      · obtain ⟨index, hindex⟩ := Node.mem_members.mp hmember
        exact ih (h.child hindex) value
      · rintro ⟨member, hmember, hconforms⟩
        exact .member (Node.mem_members.mp hmember) hconforms
      · obtain ⟨member, hmember, hconforms⟩ := hinversion hconforms
        exact ⟨member, Node.mem_members.mpr hmember, hconforms⟩
    · next hs =>
      exact meets_object (.inl (congrArg Structure.kind hs)) value fun hchild => ih (h.child hchild)
    · next hs =>
      exact meets_object (.inr (congrArg Structure.kind hs)) value fun hchild => ih (h.child hchild)
    · next hs => exact iff_of_true rfl (.function (congrArg Structure.kind hs))

theorem decides_forM {ε α : Type} {gaveUp : Error → Prop} {f : α → Traced ε Unit}
    (holds : α → Prop) {items : List α}
    (h : ∀ item ∈ items, Decides gaveUp (f item).result (holds item)) :
    Decides gaveUp (items.forM f).result (∀ item ∈ items, holds item) := by
  induction items with
  | nil => exact nofun
  | cons first rest ih =>
    obtain ⟨hfirst, hrest⟩ := List.forall_mem_cons.mp h
    rw [List.forM, Traced.result_bind]
    refine hfirst.bind (fun hall => hall first List.mem_cons_self) fun _ _ hholds => ?_
    exact (ih hrest).congr (by rw [List.forall_mem_cons, and_iff_right hholds])

theorem missingArgument?_eq_none_iff {declared : List (Property Structure)}
    {given : List (String × Json)} :
    missingArgument? declared given = none ↔
      ∀ item ∈ declared, item.optional = false → (given.lookup item.name).isSome := by
  rw [missingArgument?, Option.map_eq_none_iff, List.find?_eq_none]
  refine forall₂_congr fun item _ => ?_
  cases item.optional with
  | true => simp
  | false => simp [Option.isSome_iff_ne_none]

/-- The check of a call decides whether it may be made. -/
theorem decides_checkCall (h : node.Scoped) (hkind : node.kind = .function) (reach : Nat)
    (given : Json) : Decides Error.Endless (checkCall reach node given).result (node.Callable given) := by
  obtain ⟨arguments, hstep⟩ : ∃ arguments, node.child? .arguments = .ok arguments := by
    obtain ⟨label, args, returns, hs⟩ := (Structure.kind_eq_function_iff _).mp hkind
    exact ⟨_, Node.child?_of_component? (by rw [hs]; rfl)⟩
  have harguments := h.child hstep
  unfold checkCall
  rw [Traced.result_bind, Node.result_step, hstep, Except.ok_bind]
  split
  · next declared hshape =>
    split
    · next members =>
      split
      · next name hname =>
        refine .error rfl ?_
        rintro ⟨hstep', hshape', hrequired, _⟩
        cases hstep.symm.trans hstep'
        cases hshape.symm.trans hshape'
        rw [missingArgument?_eq_none_iff.mpr hrequired] at hname
        cases hname
      · next hnone =>
        have hrequired := missingArgument?_eq_none_iff.mp
          (Option.eq_none_iff_forall_ne_some.mpr hnone)
        refine .congr (decides_forM (fun field : String × Json => ∃ item,
          arguments.child? (.field field.1) = .ok item ∧ Conforms item field.2) ?argument) ?callable
        case argument =>
          rintro ⟨name, value⟩ _
          dsimp only
          split
          · next herror =>
            refine .error rfl ?_
            rintro ⟨item, hitem, _⟩
            cases herror.symm.trans hitem
          · next item hitem =>
            rw [Traced.result_bind, Node.result_step, hitem, Except.ok_bind, Traced.result_bind]
            refine .of_meets (meets_fits_iff (harguments.child hitem) reach value)
              (fun hconforms => ⟨item, rfl, hconforms⟩) fun hnot => .error rfl ?_
            rintro ⟨other, hother, hconforms⟩
            cases hother
            exact hnot hconforms
        case callable =>
          refine ⟨.given hstep hshape hrequired, ?_⟩
          rintro ⟨hstep', hshape', _, heach⟩
          cases hstep.symm.trans hstep'
          exact heach
    · next hne =>
      refine .error rfl ?_
      rintro ⟨⟩
      exact hne _ rfl
  · next hne =>
    refine .error rfl ?_
    rintro ⟨hstep', hshape, _⟩
    cases hstep.symm.trans hstep'
    exact hne _ _ hshape

end Matching

end PathQuery
