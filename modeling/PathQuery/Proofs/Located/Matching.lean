import PathQuery.Matching
import PathQuery.Proofs.Graph.Visit

/-!
# Matching on an arena

Matching on an arena enters the positions that matching comes to, and decides the same
(`Visit.mirrors_fits`, `Visit.mirrors_selectMember`, `Visit.mirrors_checkCall`).
-/

set_option autoImplicit false

namespace PathQuery

namespace Visit

/-- A visit whose failure can be looked at. -/
def attempt {α : Type} (visit : Visit α) : Visit (Except Error α) := fun arena =>
  (.ok (visit arena).1, (visit arena).2)

def allM {α : Type} (test : α → Visit Bool) : List α → Visit Bool
  | [] => return true
  | item :: rest => do
    if ← test item then allM test rest else return false

def anyM {α : Type} (test : α → Visit Bool) : List α → Visit Bool
  | [] => return false
  | item :: rest => do
    if ← test item then return true else anyM test rest

def filterM {α : Type} (test : α → Visit Bool) : List α → Visit (List α)
  | [] => return []
  | item :: rest => do
    let passes ← test item
    let others ← filterM test rest
    return if passes then item :: others else others

def fits : Nat → Nat → Json → Visit Bool
  | 0, id, _ => do throw (.endlessChain (← shape id).key)
  | reach + 1, id, value => do
    match ← shape id with
    | .root _ => return false
    | .ref .. => fits reach (← step id .target) value
    | .typeAlias .. => fits reach (← step id .body) value
    | .primitive _ type => return type.admits value
    | .literal _ constant => return constant == value
    | .nullable .. =>
      if value.isNull then return true else fits reach (← step id .inner) value
    | .array .. =>
      match value with
      | .array items => do
        let item ← step id .items
        allM (fits reach item) items
      | _ => return false
    | .union .. => do
      let members ← allMembers id
      anyM (fun member => fits reach member value) members
    | .object .. | .arguments .. =>
      match value with
      | .object members =>
        allM (fun (name, value) => do
          match ← attempt (step id (.field name)) with
          | .ok child => fits reach child value
          | .error _ => return false) members
      | _ => return false
    | .function .. => return true

/-- The keys of positions, as messages list them. -/
def keys : List Nat → Visit (List String)
  | [] => return []
  | id :: rest => do return (← shape id).key :: (← keys rest)

def choose (union : Nat) (value : Json) : List Nat → Visit Nat
  | [] => do throw (.noUnionMatch (← shape union).key value.text)
  | [member] => return member
  | candidates => do
    let candidates ← keys candidates
    throw (.ambiguousUnionMatch (← shape union).key value.text
      (", ".intercalate (candidates.map fun key => s!"'{key}'")))

def selectMember (reach union : Nat) (value : Option Json) : Option String → Visit Nat
  | some hint => do
    match ← attempt (memberNamed union hint) with
    | .ok member => return member
    | .error _ => throw (.invalidUnionHint (← shape union).key hint)
  | none =>
    match value with
    | none => do throw (.noUnionMatch (← shape union).key (Matching.shown none))
    | some value => do
      let members ← allMembers union
      let candidates ← filterM (fun member => fits reach member value) members
      choose union value candidates

def checkCall (reach function : Nat) (given : Json) : Visit Unit := do
  let arguments ← step function .arguments
  let invalid (reason : String) : Visit Unit := do
    throw (.invalidArguments (← shape function).key given.text reason)
  match ← shape arguments with
  | .arguments _ declared =>
    match given with
    | .object members =>
      match Matching.missingArgument? declared members with
      | some name => invalid s!"missing required argument '{name}'"
      | none =>
        members.forM fun (name, value) => do
          match ← attempt (step arguments (.field name)) with
          | .error _ => invalid s!"unknown argument '{name}'"
          | .ok item =>
            if ← fits reach item value then return ()
            else do invalid s!"argument '{name}' does not match '{(← shape item).key}'"
    | _ => invalid s!"arguments must be an object, received {given.typeName}"
  | other => invalid s!"expected an argument list, found '{other.kind.name}'"

end Visit

namespace Visit

variable {α β γ δ : Type} {arena : Arena} {nodes : List Node} {id : Nat} {node : Node}
  {like : List Node → α → β → Prop}

theorem Mirrors.attempt {visit : Visit α} {walk : Walk β} (h : Mirrors like arena nodes visit walk) :
    Mirrors (fun nodes => Except.Agree (like nodes)) arena nodes (attempt visit) walk.attempt := by
  obtain ⟨nodes', hleaves, hagree⟩ := h
  exact ⟨nodes', hleaves, .ok hagree⟩

theorem attempt_bind (visit : Visit α) (f : Except Error α → Visit β) (arena : Arena) :
    (Visit.attempt visit >>= f) arena = f (visit arena).1 (visit arena).2 := rfl

section Attempts

variable {taken : Step} {next : Node} {f : Except Error Nat → Visit α}

/-- A step that is not there leaves no trace. -/
theorem Mirrors.of_missing (h : arena.Faithful nodes) (hid : Stands nodes id node) {error : Error}
    (hchild : node.child? taken = .error error) {walk : Walk β}
    (hf : Mirrors like arena nodes (f (.error error)) walk) :
    Mirrors like arena nodes (Visit.attempt (Visit.step id taken) >>= f) walk := by
  obtain ⟨nodes', hf⟩ := hf
  refine ⟨nodes', ?_⟩
  rw [attempt_bind, step, h.child_of_error hid hchild]
  exact hf

theorem Mirrors.of_child (h : arena.Faithful nodes) (hid : Stands nodes id node)
    (hchild : node.child? taken = .ok next) {g : Node → Walk β}
    (hf : ∀ (arena' : Arena) nodes' child, arena'.Faithful nodes' → nodes <+: nodes' →
      Stands nodes' child next → Mirrors like arena' nodes' (f (.ok child)) (g next)) :
    Mirrors like arena nodes (Visit.attempt (Visit.step id taken) >>= f)
      (node.step taken >>= g) := by
  have hstep : node.step taken = ⟨[next], .ok next⟩ := by rw [Node.step, hchild]
  rw [hstep]
  obtain ⟨nodes', hleaves, hagree⟩ := mirrors_step h hid taken
  rw [hstep] at hleaves hagree
  rcases hvisit : step id taken arena with ⟨outcome, arena'⟩
  rw [hvisit] at hleaves hagree
  cases hagree with
  | @ok child _ hnext =>
    obtain ⟨nodes'', hleaves', hagree'⟩ :=
      hf arena' nodes' child hleaves.faithful hleaves.grown hnext
    refine ⟨nodes'', ?_⟩
    rw [attempt_bind, hvisit]
    exact ⟨hleaves.trans hleaves', hagree'⟩

end Attempts

theorem mirrors_allM {test : α → Visit Bool} {test' : α → Walk Bool} (h : arena.Faithful nodes)
    {items : List α} (htest : ∀ (arena' : Arena) nodes', arena'.Faithful nodes' → nodes <+: nodes' →
      ∀ item ∈ items, Mirrors (fun _ => (· = ·)) arena' nodes' (test item) (test' item)) :
    Mirrors (fun _ => (· = ·)) arena nodes (allM test items) (Traced.allM test' items) := by
  induction items generalizing arena nodes with
  | nil => exact .pure h rfl
  | cons first rest ih =>
    refine (htest arena nodes h List.prefix_rfl first List.mem_cons_self).bind ?_
    rintro arena' nodes' passes _ h' hgrown rfl
    cases passes with
    | true =>
      exact ih h' fun arena'' nodes'' h'' hgrown' item hitem =>
        htest arena'' nodes'' h'' (hgrown.trans hgrown') item (List.mem_cons_of_mem _ hitem)
    | false => exact .pure h' rfl

section Members

variable {test : Nat → Visit Bool} {test' : Node → Walk Bool} {ids : List Nat}
  {members : List Node}

theorem forall₂_stands_mono {nodes' : List Node} (hgrown : nodes <+: nodes')
    (h : List.Forall₂ (Stands nodes) ids members) : List.Forall₂ (Stands nodes') ids members :=
  h.imp fun _ _ => Stands.mono hgrown

theorem mirrors_anyM (h : arena.Faithful nodes) (hmembers : List.Forall₂ (Stands nodes) ids members)
    (htest : ∀ (arena' : Arena) nodes', arena'.Faithful nodes' → nodes <+: nodes' →
      ∀ id node, Stands nodes' id node →
        Mirrors (fun _ => (· = ·)) arena' nodes' (test id) (test' node)) :
    Mirrors (fun _ => (· = ·)) arena nodes (anyM test ids) (Traced.anyM test' members) := by
  induction ids generalizing arena nodes members with
  | nil =>
    cases hmembers
    exact .pure h rfl
  | cons id rest ih =>
    cases hmembers with
    | cons hfirst hrest =>
      refine (htest arena nodes h List.prefix_rfl id _ hfirst).bind ?_
      rintro arena' nodes' passes _ h' hgrown rfl
      cases passes with
      | true => exact .pure h' rfl
      | false =>
        exact ih h' (forall₂_stands_mono hgrown hrest) fun arena'' nodes'' h'' hgrown' =>
          htest arena'' nodes'' h'' (hgrown.trans hgrown')

theorem mirrors_filterM (h : arena.Faithful nodes)
    (hmembers : List.Forall₂ (Stands nodes) ids members)
    (htest : ∀ (arena' : Arena) nodes', arena'.Faithful nodes' → nodes <+: nodes' →
      ∀ id node, Stands nodes' id node →
        Mirrors (fun _ => (· = ·)) arena' nodes' (test id) (test' node)) :
    Mirrors (fun nodes => List.Forall₂ (Stands nodes)) arena nodes (filterM test ids)
      (Traced.filterM test' members) := by
  induction ids generalizing arena nodes members with
  | nil =>
    cases hmembers
    exact .pure h .nil
  | cons id rest ih =>
    cases hmembers with
    | cons hfirst hrest =>
      refine (htest arena nodes h List.prefix_rfl id _ hfirst).bind ?_
      rintro arena' nodes' passes _ h' hgrown rfl
      refine (ih h' (forall₂_stands_mono hgrown hrest) fun arena'' nodes'' h'' hgrown' =>
        htest arena'' nodes'' h'' (hgrown.trans hgrown')).bind ?_
      intro arena'' nodes'' others others' h'' hgrown' hothers
      refine .pure h'' ?_
      cases passes with
      | true => exact .cons (Stands.mono (hgrown.trans hgrown') hfirst) hothers
      | false => exact hothers

end Members

theorem mirrors_fits (h : arena.Faithful nodes) (reach : Nat) (hid : Stands nodes id node)
    (value : Json) :
    Mirrors (fun _ => (· = ·)) arena nodes (fits reach id value) (Matching.fits reach node value) := by
  induction reach generalizing arena nodes id node value with
  | zero => exact .read h hid (.throw h _)
  | succ reach ih =>
    have through (step : Step) :
        Mirrors (fun _ => (· = ·)) arena nodes (Visit.step id step >>= fun next => fits reach next value)
          (node.step step >>= fun next => Matching.fits reach next value) :=
      (mirrors_step h hid step).bind fun _ _ _ _ h' _ hnext => ih h' hnext value
    unfold fits Matching.fits
    refine .read h hid ?_
    cases node.shape with
    | root | primitive | literal | function => exact .pure h rfl
    | ref | typeAlias => exact through _
    | nullable =>
      cases value.isNull with
      | true => exact .pure h rfl
      | false => exact through _
    | array =>
      cases value with
      | array items =>
        refine (mirrors_step h hid .items).bind fun _ _ item node' h' _ hitem => ?_
        exact mirrors_allM h' fun _ _ h'' hgrown value _ => ih h'' (Stands.mono hgrown hitem) value
      | _ => exact .pure h rfl
    | union =>
      refine (mirrors_allMembers h hid).bind fun _ _ ids members h' _ hmembers => ?_
      exact mirrors_anyM h' hmembers fun _ _ h'' _ id node hid => ih h'' hid value
    | object | arguments =>
      cases value with
      | object members =>
        refine mirrors_allM h fun arena' nodes' h' hgrown field _ => ?_
        obtain ⟨name, value⟩ := field
        have hid' := Stands.mono hgrown hid
        dsimp only
        cases hchild : node.child? (.field name) with
        | error => exact .of_missing h' hid' hchild (.pure h' rfl)
        | ok => exact .of_child h' hid' hchild fun _ _ _ h'' _ hnext => ih h'' hnext value
      | _ => exact .pure h rfl

/-! ## Members -/

theorem mirrors_keys (h : arena.Faithful nodes) {ids : List Nat} {members : List Node}
    (hmembers : List.Forall₂ (Stands nodes) ids members) :
    Mirrors (fun _ => (· = ·)) arena nodes (keys ids) (pure (members.map Node.key)) := by
  induction hmembers with
  | nil => exact .pure h rfl
  | @cons id node ids nodes' hid _ ih =>
    refine .read h hid ?_
    refine Mirrors.bind (g := fun rest => pure (node.key :: rest)) ih ?_
    rintro _ _ keys _ h' _ rfl
    exact .pure h' rfl

theorem mirrors_choose (h : arena.Faithful nodes) {union : Nat} {union' : Node}
    (hunion : Stands nodes union union') (value : Json) {ids : List Nat} {members : List Node}
    (hmembers : List.Forall₂ (Stands nodes) ids members) :
    Mirrors Stands arena nodes (choose union value ids)
      (Traced.ofExcept (Matching.choose union' value members)) := by
  have hkeys := mirrors_keys h hmembers
  cases hmembers with
  | nil => exact .read h hunion (.throw h _)
  | cons hfirst hrest =>
    cases hrest with
    | nil => exact .pure h hfirst
    | @cons _ second _ others _ _ =>
      have hchoose (first : Node) :
          Traced.ofExcept (Matching.choose union' value (first :: second :: others)) =
            ((pure ((first :: second :: others).map Node.key) : Walk (List String)) >>= fun keys =>
              Traced.fail (.ambiguousUnionMatch union'.key value.text
                (", ".intercalate (keys.map fun key => s!"'{key}'")))) := by
        rw [pure_bind, Matching.choose, List.map_map]
        · rfl
        · nofun
        · nofun
      rw [hchoose]
      refine hkeys.bind ?_
      rintro _ _ keys _ h' hgrown rfl
      exact .read h' (Stands.mono hgrown hunion) (.throw h' _)

theorem mirrors_selectMember (h : arena.Faithful nodes) (reach : Nat) {union : Nat} {union' : Node}
    (hunion : Stands nodes union union') (value : Option Json) (hint : Option String) :
    Mirrors Stands arena nodes (selectMember reach union value hint)
      (Matching.selectMember reach union' value hint) := by
  cases hint with
  | some hint =>
    simp only [Matching.selectMember, Traced.catchError_eq]
    refine (mirrors_memberNamed h hunion hint).attempt.bind ?_
    intro _ _ _ _ h' hgrown hagree
    cases hagree with
    | ok hmember => exact .pure h' hmember
    | error => exact .read h' (Stands.mono hgrown hunion) (.throw h' _)
  | none =>
    cases value with
    | none => exact .read h hunion (.throw h _)
    | some value =>
      refine (mirrors_allMembers h hunion).bind fun _ _ _ _ h' hgrown hmembers => ?_
      refine (mirrors_filterM h' hmembers fun _ _ h'' _ _ _ hid =>
        mirrors_fits h'' reach hid value).bind fun _ _ _ _ h'' hgrown' hcandidates => ?_
      exact mirrors_choose h'' (Stands.mono (hgrown.trans hgrown') hunion) value hcandidates

/-! ## Calls -/

theorem mirrors_forM {f : α → Visit Unit} {g : α → Walk Unit} (h : arena.Faithful nodes)
    {items : List α} (hf : ∀ (arena' : Arena) nodes', arena'.Faithful nodes' → nodes <+: nodes' →
      ∀ item ∈ items, Mirrors (fun _ => (· = ·)) arena' nodes' (f item) (g item)) :
    Mirrors (fun _ => (· = ·)) arena nodes (items.forM f) (items.forM g) := by
  induction items generalizing arena nodes with
  | nil => exact .pure h rfl
  | cons first rest ih =>
    refine (hf arena nodes h List.prefix_rfl first List.mem_cons_self).bind ?_
    rintro arena' nodes' _ _ h' hgrown _
    exact ih h' fun arena'' nodes'' h'' hgrown' item hitem =>
      hf arena'' nodes'' h'' (hgrown.trans hgrown') item (List.mem_cons_of_mem _ hitem)

theorem mirrors_checkCall (h : arena.Faithful nodes) (reach : Nat) (hid : Stands nodes id node)
    (given : Json) :
    Mirrors (fun _ => (· = ·)) arena nodes (checkCall reach id given)
      (Matching.checkCall reach node given) := by
  unfold checkCall Matching.checkCall
  refine (mirrors_step h hid .arguments).bind ?_
  intro arena' nodes' arguments arguments' h' hgrown harguments
  have hid' := Stands.mono hgrown hid
  have invalid {arena'' : Arena} {nodes''} (h'' : arena''.Faithful nodes'')
      (hid : Stands nodes'' id node) (reason : String) :
      Mirrors (fun _ => (· = ·)) arena'' nodes''
        (do throw (.invalidArguments (← shape id).key given.text reason) : Visit Unit)
        (Traced.fail (.invalidArguments node.key given.text reason)) :=
    .read h'' hid (.throw h'' _)
  refine .read h' harguments ?_
  cases arguments'.shape with
  | arguments label declared =>
    cases given with
    | object members =>
      dsimp only
      cases Matching.missingArgument? declared members with
      | some name => exact invalid h' hid' _
      | none =>
        refine mirrors_forM h' fun arena₁ nodes₁ h₁ hgrown₁ field _ => ?_
        obtain ⟨name, value⟩ := field
        have hid₁ := Stands.mono hgrown₁ hid'
        have harguments₁ := Stands.mono hgrown₁ harguments
        dsimp only
        cases hchild : arguments'.child? (.field name) with
        | error => exact .of_missing h₁ harguments₁ hchild (invalid h₁ hid₁ _)
        | ok item' =>
          refine .of_child h₁ harguments₁ hchild fun arena₂ nodes₂ item h₂ hgrown₂ hitem => ?_
          refine (mirrors_fits h₂ reach hitem value).bind ?_
          rintro arena₃ nodes₃ passes _ h₃ hgrown₃ rfl
          cases passes with
          | true => exact .pure h₃ rfl
          | false =>
            refine .read h₃ (Stands.mono hgrown₃ hitem) ?_
            exact invalid h₃ (Stands.mono (hgrown₂.trans hgrown₃) hid₁) _
    | _ => exact invalid h' hid' _
  | _ => exact invalid h' hid' _

end Visit

end PathQuery
