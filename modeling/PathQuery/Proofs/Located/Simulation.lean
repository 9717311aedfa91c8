import PathQuery.Proofs.Located.Compilation

/-!
# Compilations in step

Where the positions of an arena stand for nodes, a query compiled against a position enters what the
query compiled against the node comes to, fails where it fails, and gives a middleware that is like the
other one. Every structure is one step (`Position.Like.byStructure`), every built-in operator is one
(`Operator.like_path`, `Operator.like_select`), and the levels of a compilation are taken one by one
(`Setting.Like.compile`).
-/

set_option autoImplicit false

namespace PathQuery.Located

open Visit (Stands Mirrors)

/-! ## Positions that are alike -/

/-- The same setting on an arena in which position zero is the root. -/
structure Setting.Like (nodes : List Node) (setting : Setting) (setting' : PathQuery.Setting) :
    Prop where
  entry : setting.entry = setting'.entry
  resolvers : setting.resolvers.Like nodes setting'.resolvers
  execution : setting.execution = setting'.execution
  reach : setting.reach = setting'.reach
  root : Stands nodes 0 setting'.graph.root

/-- Positions that compile alike in all arenas that may come. -/
structure Position.Like (nodes : List Node) (position : Position) (position' : PathQuery.Position) :
    Prop where
  setting : position.setting.Like nodes position'.setting
  optional : position.optional = position'.optional
  compile : ∀ (arena : Arena) nodes', arena.Faithful nodes' → nodes <+: nodes' →
    ∀ optional id node query, Stands nodes' id node → Mirrors Middleware.Like arena nodes'
      (position.compile optional id query) (position'.compile optional node query)

def Operator.Like (operator : Operator) (operator' : PathQuery.Operator) : Prop :=
  ∀ (arena : Arena) nodes, arena.Faithful nodes → ∀ position position' handle node query,
    position.Like nodes position' → handle.Stands nodes node →
    Mirrors (fun nodes => Option.Rel (Middleware.Like nodes)) arena nodes
      (operator position handle query) (operator' position' node query)

variable {arena : Arena} {nodes nodes' : List Node} {position : Position}
  {position' : PathQuery.Position} {handle : Handle} {node : Node}

theorem Handle.Stands.mono (hhandle : handle.Stands nodes node) (hgrown : nodes <+: nodes') :
    handle.Stands nodes' node where
  id := hhandle.id.mono hgrown
  shape := hhandle.shape

theorem Handle.Stands.key_eq (hhandle : handle.Stands nodes node) : handle.key = node.key :=
  congrArg Structure.key hhandle.shape

/-! What is reported of a handle is what is reported of its node. -/

theorem Handle.Stands.unexpected_eq (hhandle : handle.Stands nodes node) (head : Json) :
    Position.unexpected handle head = PathQuery.Position.unexpected node head := by
  obtain ⟨id, _⟩ := handle
  obtain ⟨_, rfl⟩ := hhandle
  rfl

theorem Handle.Stands.requireLast_eq (hhandle : handle.Stands nodes node) (head : Json)
    (rest : List Json) :
    Operator.requireLast handle head rest = PathQuery.Operator.requireLast node head rest := by
  cases rest with
  | nil => rfl
  | cons next rest =>
    unfold Operator.requireLast PathQuery.Operator.requireLast
    rw [hhandle.key_eq]

theorem Resolvers.Like.mono {resolvers : Resolvers} {resolvers' : PathQuery.Resolvers}
    (h : resolvers.Like nodes resolvers') (hgrown : nodes <+: nodes') :
    resolvers.Like nodes' resolvers' where
  bound := h.bound.imp fun _ _ hentry =>
    ⟨hentry.1, hentry.2.imp fun _ _ hmiddleware => hmiddleware.mono hgrown⟩

theorem Setting.Like.mono {setting : Setting} {setting' : PathQuery.Setting}
    (h : setting.Like nodes setting') (hgrown : nodes <+: nodes') : setting.Like nodes' setting' where
  entry := h.entry
  resolvers := h.resolvers.mono hgrown
  execution := h.execution
  reach := h.reach
  root := h.root.mono hgrown

namespace Position.Like

variable (hposition : position.Like nodes position') (hhandle : handle.Stands nodes node)

include hposition

theorem mono (hgrown : nodes <+: nodes') : position.Like nodes' position' where
  setting := hposition.setting.mono hgrown
  optional := hposition.optional
  compile := fun arena nodes'' hfaithful hgrown' =>
    hposition.compile arena nodes'' hfaithful (hgrown.trans hgrown')

include hhandle

theorem enclose (input : Option Json) {descent : Descent} {descent' : PathQuery.Descent}
    (h : descent.Like nodes descent') :
    (position.enclose handle input descent).Like nodes (position'.enclose node input descent') :=
  h.enclose hposition.setting.resolvers hhandle input

theorem enclose_onSettled (input : Option Json) {go : Context → Json → Run (Option Json)}
    {go' : PathQuery.Context → Json → PathQuery.Run (Option Json)}
    (h : ∀ value, Descent.Like nodes (go · value) (go' · value)) :
    (position.enclose handle input (position.onSettled handle go)).Like nodes
      (position'.enclose node input (position'.onSettled node go')) := by
  refine hposition.enclose hhandle input ?_
  unfold Position.onSettled PathQuery.Position.onSettled
  rw [hposition.optional]
  exact .onSettled hhandle _ h

theorem through (hfaithful : arena.Faithful nodes) (input : Option Json) {child : Nat}
    {child' : Node} (hchild : Stands nodes child child') (query : List Json) :
    Mirrors Middleware.Like arena nodes (position.through handle input child query)
      (position'.through node input child' query) := by
  unfold Position.through PathQuery.Position.through
  rw [hposition.optional]
  refine (hposition.compile arena nodes hfaithful List.prefix_rfl _ _ _ _ hchild).bind ?_
  intro arena₁ nodes₁ inner inner' h₁ hgrown hinner
  refine .pure h₁ ?_
  exact (hposition.mono hgrown).enclose (hhandle.mono hgrown) input
    (.through (hhandle.mono hgrown) (hchild.mono hgrown) hinner)

/-- A step and then what it leads to. -/
theorem step_through (hfaithful : arena.Faithful nodes) (input : Option Json) (taken : Step)
    (query : List Json) :
    Mirrors Middleware.Like arena nodes
      (Visit.step handle.id taken >>= fun child => position.through handle input child query)
      (node.step taken >>= fun child => position'.through node input child query) :=
  (Visit.mirrors_step hfaithful hhandle.id taken).bind fun _ _ _ _ h₁ hgrown hchild =>
    (hposition.mono hgrown).through (hhandle.mono hgrown) h₁ input hchild query

theorem settledValue :
    (position.settledValue handle).Like nodes (position'.settledValue node) :=
  hposition.enclose_onSettled hhandle none fun _ _ _ hfaithful _ _ _ _ => .pure hfaithful rfl

/-! ### Structures -/

variable (hfaithful : arena.Faithful nodes)

include hfaithful

theorem atRoot (query : List Json) :
    Mirrors Middleware.Like arena nodes (position.atRoot handle query)
      (position'.atRoot node query) := by
  unfold Position.atRoot PathQuery.Position.atRoot
  rw [hposition.setting.entry]
  cases query with
  | nil => exact .throw hfaithful _
  | cons head rest =>
    dsimp only
    split
    · exact hposition.step_through hhandle hfaithful none _ rest
    · exact .throw hfaithful _

theorem atObject (properties : List (Property Structure)) (query : List Json) :
    Mirrors Middleware.Like arena nodes (position.atObject handle properties query)
      (position'.atObject node properties query) := by
  match query with
  | [] => exact .pure hfaithful (hposition.settledValue hhandle)
  | .string name :: rest =>
    refine (Visit.mirrors_step hfaithful hhandle.id (.field name)).bind ?_
    intro arena₁ nodes₁ child child' h₁ hgrown₁ hchild
    refine ((hposition.mono hgrown₁).compile arena₁ nodes₁ h₁ List.prefix_rfl _ _ _ _ hchild).bind ?_
    intro arena₂ nodes₂ inner inner' h₂ hgrown₂ hinner
    have hgrown := hgrown₁.trans hgrown₂
    refine .pure h₂ ((hposition.mono hgrown).enclose_onSettled (hhandle.mono hgrown) none ?_)
    intro value arena₃ nodes₃ h₃ hgrown₃ context context' hlike
    have hparent := hlike.push (show Value.Like nodes₃ .parent value value from rfl) .none
    exact (hinner.mono hgrown₃).evaluate h₃ (hparent.setValue _)
  | .null :: _ | .bool _ :: _ | .number _ :: _ | .array _ :: _ | .object _ :: _ =>
    unfold Position.atObject PathQuery.Position.atObject
    dsimp only
    rw [hhandle.unexpected_eq]
    exact .throw hfaithful _

omit hfaithful in
theorem excerpt_eq (head : Json) : position.excerpt handle head = position'.excerpt node head := by
  obtain ⟨⟨_, _, execution, _⟩, _, _⟩ := position
  obtain rfl : execution = position'.setting.execution := hposition.setting.execution
  obtain ⟨id, _⟩ := handle
  obtain ⟨_, rfl⟩ := hhandle
  rfl

/-- The items of a list, once it is known which are asked for. -/
theorem atItems (excerpt : Excerpt) (rest : List Json) :
    Mirrors Middleware.Like arena nodes
      (do
        let items ← Visit.step handle.id .items
        let inner ← position.compile false items rest
        return position.enclose handle excerpt.input?
          (position.onSettled handle
            (Located.Excerpt.run excerpt position.setting.execution.parallel handle.id inner)))
      (do
        let items ← node.step .items
        let inner ← position'.compile false items rest
        return position'.enclose node excerpt.input?
          (position'.onSettled node
            (excerpt.run position'.setting.execution.parallel node inner))) := by
  refine (Visit.mirrors_step hfaithful hhandle.id .items).bind ?_
  intro arena₁ nodes₁ items items' h₁ hgrown₁ hitems
  have hposition₁ := hposition.mono hgrown₁
  refine (hposition₁.compile arena₁ nodes₁ h₁ List.prefix_rfl _ _ _ _ hitems).bind ?_
  intro arena₂ nodes₂ inner inner' h₂ hgrown₂ hinner
  have hhandle₂ := hhandle.mono (hgrown₁.trans hgrown₂)
  refine .pure h₂ ((hposition₁.mono hgrown₂).enclose_onSettled hhandle₂ _ ?_)
  rw [hposition.setting.execution]
  exact Excerpt.run_like hhandle₂.id hinner excerpt _

theorem atList (query : List Json) :
    Mirrors Middleware.Like arena nodes (position.atList handle query)
      (position'.atList node query) := by
  unfold Position.atList PathQuery.Position.atList
  cases query with
  | nil => exact hposition.atItems hhandle hfaithful .all []
  | cons head rest =>
    dsimp only
    rw [hposition.excerpt_eq hhandle]
    refine (Mirrors.ofExcept_self hfaithful _).bind ?_
    rintro arena₁ nodes₁ excerpt _ h₁ hgrown rfl
    exact (hposition.mono hgrown).atItems (hhandle.mono hgrown) h₁ excerpt rest

theorem atFunction (query : List Json) :
    Mirrors Middleware.Like arena nodes (position.atFunction handle query)
      (position'.atFunction node query) := by
  unfold Position.atFunction PathQuery.Position.atFunction
  rw [hhandle.key_eq, hposition.setting.reach]
  cases query with
  | nil => exact .throw hfaithful _
  | cons head rest =>
    dsimp only
    split
    · refine (Visit.mirrors_checkCall hfaithful _ hhandle.id _).bind ?_
      intro arena₁ nodes₁ _ _ h₁ hgrown _
      exact (hposition.mono hgrown).step_through (hhandle.mono hgrown) h₁ _ .returns rest
    · exact .throw hfaithful _

omit hfaithful in
theorem atMatched (query : List Json) :
    (position.atMatched handle query).Like nodes (position'.atMatched node query) := by
  refine hposition.enclose_onSettled hhandle none ?_
  intro value arena₁ nodes₁ h₁ hgrown₁ context context' hlike
  have hposition₁ := hposition.mono hgrown₁
  have hinner : Mirrors Middleware.Like arena₁ nodes₁
      (do
        let member ← Visit.selectMember position.setting.reach handle.id (some value) none
        position.compile position.optional member query)
      (do
        let member ← Matching.selectMember position'.setting.reach node (some value) none
        position'.compile position'.optional member query) := by
    rw [hposition.setting.reach, hposition.optional]
    refine (Visit.mirrors_selectMember h₁ _ (hhandle.id.mono hgrown₁) (some value) none).bind ?_
    intro arena₂ nodes₂ member member' h₂ hgrown₂ hmember
    exact hposition₁.compile arena₂ nodes₂ h₂ hgrown₂ _ _ _ _ hmember
  refine (Run.Follows.of_mirrors hinner).bind ?_
  intro arena₂ nodes₂ inner inner' h₂ hgrown₂ hinner
  exact hinner.evaluate h₂ ((hlike.mono hgrown₂).setValue (some value))

theorem atUnion (query : List Json) :
    Mirrors Middleware.Like arena nodes (position.atUnion handle query)
      (position'.atUnion node query) := by
  unfold Position.atUnion PathQuery.Position.atUnion
  rw [hhandle.key_eq, hposition.setting.reach]
  cases query with
  | nil => exact .pure hfaithful (hposition.atMatched hhandle [])
  | cons head rest =>
    dsimp only
    split
    · cases (head.member? "type").bind Json.string? with
      | none => exact .throw hfaithful _
      | some hint =>
        refine (Visit.mirrors_selectMember hfaithful _ hhandle.id none (some hint)).bind ?_
        intro arena₁ nodes₁ member member' h₁ hgrown hmember
        exact (hposition.mono hgrown).through (hhandle.mono hgrown) h₁ none hmember rest
    · exact .pure hfaithful (hposition.atMatched hhandle (head :: rest))

theorem atLeaf (query : List Json) :
    Mirrors Middleware.Like arena nodes (position.atLeaf handle query)
      (position'.atLeaf node query) := by
  unfold Position.atLeaf PathQuery.Position.atLeaf
  rw [hhandle.key_eq, hhandle.shape]
  cases query with
  | nil => exact .pure hfaithful (hposition.settledValue hhandle)
  | cons => exact .throw hfaithful _

theorem byStructure (query : List Json) :
    Mirrors Middleware.Like arena nodes (position.byStructure handle query)
      (position'.byStructure node query) := by
  have through := hposition.step_through hhandle hfaithful none
  unfold Position.byStructure PathQuery.Position.byStructure
  rw [hhandle.key_eq, hhandle.shape]
  cases node.shape with
  | root => exact hposition.atRoot hhandle hfaithful query
  | ref => exact through .target query
  | typeAlias => exact through .body query
  | nullable => exact through .inner query
  | object _ _ _ properties => exact hposition.atObject hhandle hfaithful properties query
  | array => exact hposition.atList hhandle hfaithful query
  | function => exact hposition.atFunction hhandle hfaithful query
  | union => exact hposition.atUnion hhandle hfaithful query
  | primitive | literal => exact hposition.atLeaf hhandle hfaithful query
  | arguments => exact .throw hfaithful _

end Position.Like

/-! ## Operators -/

namespace Operator

theorem like_ofKind (kind : String)
    {apply : Position → Handle → Json → List Json → Visit (Option Middleware)}
    {apply' : PathQuery.Position → Node → Json → List Json → Walk (Option PathQuery.Middleware)}
    (h : ∀ (arena : Arena) nodes, arena.Faithful nodes → ∀ position position' handle node head rest,
      position.Like nodes position' → handle.Stands nodes node →
      Mirrors (fun nodes => Option.Rel (Middleware.Like nodes)) arena nodes
        (apply position handle head rest) (apply' position' node head rest)) :
    Like (ofKind kind apply) (PathQuery.Operator.ofKind kind apply') := by
  intro arena nodes hfaithful position position' handle node query hposition hhandle
  unfold ofKind PathQuery.Operator.ofKind
  cases query with
  | nil => exact .pure hfaithful .none
  | cons head rest =>
    dsimp only
    split
    · exact h arena nodes hfaithful position position' handle node head rest hposition hhandle
    · exact .pure hfaithful .none

theorem like_path : Like path PathQuery.Operator.path := by
  refine like_ofKind "path" ?_
  intro arena nodes hfaithful position position' handle node head rest hposition hhandle
  rw [hhandle.requireLast_eq, hhandle.key_eq]
  refine (Mirrors.ofExcept_self hfaithful _).bind fun arena₁ nodes₁ _ _ h₁ hgrown₁ _ => ?_
  refine (Mirrors.ofExcept_self h₁ _).bind ?_
  rintro arena₂ nodes₂ given _ h₂ hgrown₂ rfl
  cases given with
  | none => exact .throw h₂ _
  | some given =>
    dsimp only
    rw [pure_bind, pure_bind]
    refine (Mirrors.ofExcept_self h₂ _).bind ?_
    rintro arena₃ nodes₃ nested _ h₃ hgrown₃ rfl
    have hposition₃ := hposition.mono ((hgrown₁.trans hgrown₂).trans hgrown₃)
    refine (hposition₃.compile arena₃ nodes₃ h₃ List.prefix_rfl _ _ _ _
      hposition₃.setting.root).bind ?_
    intro arena₄ nodes₄ inner inner' h₄ hgrown₄ hinner
    refine .pure h₄ (.some ?_)
    intro arena₅ nodes₅ h₅ hgrown₅ context context' hlike next next' hnext
    refine ((hinner.mono hgrown₅).evaluate h₅ (hlike.setValue none)).bind ?_
    rintro arena₆ nodes₆ value _ h₆ hgrown₆ rfl
    exact hnext arena₆ nodes₆ h₆ hgrown₆ _ _ ((hlike.mono hgrown₆).setValue value)

/-- The same member, resolved by middlewares that are alike. -/
structure Selection.Like (nodes : List Node) (selection : Selection)
    (selection' : PathQuery.Operator.Selection) : Prop where
  name : selection.1 = selection'.1
  inner : selection.2.Like nodes selection'.2

theorem Selection.Like.mono {selection : Selection} {selection' : PathQuery.Operator.Selection}
    (h : selection.Like nodes selection') (hgrown : nodes <+: nodes') :
    selection.Like nodes' selection' :=
  ⟨h.name, h.inner.mono hgrown⟩

theorem mirrors_compileFields (hfaithful : arena.Faithful nodes)
    (hposition : position.Like nodes position') (hhandle : handle.Stands nodes node) (head : Json)
    (properties : List (Property Structure)) (requested : List (String × Json)) :
    Mirrors (fun nodes => List.Forall₂ (Selection.Like nodes)) arena nodes
      (compileFields position handle head properties requested)
      (PathQuery.Operator.compileFields position' node head properties requested) := by
  induction requested generalizing arena nodes with
  | nil => exact .pure hfaithful .nil
  | cons field rest ih =>
    obtain ⟨name, query⟩ := field
    cases query with
    | array query =>
      refine (Visit.mirrors_step hfaithful hhandle.id (.field name)).bind ?_
      intro arena₁ nodes₁ child child' h₁ hgrown₁ hchild
      have hposition₁ := hposition.mono hgrown₁
      refine (hposition₁.compile arena₁ nodes₁ h₁ List.prefix_rfl _ _ _ _ hchild).bind ?_
      intro arena₂ nodes₂ inner inner' h₂ hgrown₂ hinner
      have hhandle₂ := hhandle.mono (hgrown₁.trans hgrown₂)
      refine (ih h₂ (hposition₁.mono hgrown₂) hhandle₂).bind ?_
      intro arena₃ nodes₃ others others' h₃ hgrown₃ hothers
      exact .pure h₃ (.cons ⟨rfl, hinner.mono hgrown₃⟩ hothers)
    | _ =>
      unfold compileFields PathQuery.Operator.compileFields
      rw [hhandle.key_eq]
      exact .throw hfaithful _

theorem project_like (parallel : Bool) {context : Context} {context' : PathQuery.Context}
    (hlike : context.Like nodes context') (members : List (String × Json))
    {selections : List Selection} {selections' : List PathQuery.Operator.Selection}
    (hselections : List.Forall₂ (Selection.Like nodes) selections selections') :
    (project parallel context members selections).Like nodes
      (PathQuery.Operator.project parallel context' members selections') := by
  have hnames : selections.map Prod.fst = selections'.map Prod.fst := by
    rw [← List.forall₂_eq_eq_eq, List.forall₂_map_left_iff, List.forall₂_map_right_iff]
    exact hselections.imp fun _ _ h => h.name
  have hruns : List.Forall₂ (Run.Like nodes) (selections.map (runMember context members))
      (selections'.map (PathQuery.Operator.runMember context' members)) := by
    rw [List.forall₂_map_left_iff, List.forall₂_map_right_iff]
    refine hselections.imp fun selection selection' h arena nodes' hfaithful hgrown => ?_
    unfold runMember PathQuery.Operator.runMember
    rw [h.name]
    exact (h.inner.mono hgrown).evaluate hfaithful ((hlike.mono hgrown).setValue _)
  unfold project PathQuery.Operator.project
  intro arena nodes' hfaithful hgrown
  rw [hnames]
  exact (Run.Follows.all parallel hruns arena nodes' hfaithful hgrown).map _

theorem like_select : Like select PathQuery.Operator.select := by
  refine like_ofKind "select" ?_
  intro arena nodes hfaithful position position' handle node head rest hposition hhandle
  rw [hhandle.requireLast_eq, hhandle.key_eq, hhandle.shape]
  cases node.shape with
  | object _ _ _ properties =>
    refine (Mirrors.ofExcept_self hfaithful _).bind fun arena₁ nodes₁ _ _ h₁ hgrown₁ _ => ?_
    have hposition₁ := hposition.mono hgrown₁
    have hhandle₁ := hhandle.mono hgrown₁
    cases head.member? "fields" with
    | none => exact .throw h₁ _
    | some fields =>
      cases fields with
      | object requested =>
        refine (mirrors_compileFields h₁ hposition₁ hhandle₁ head properties requested).bind ?_
        intro arena₂ nodes₂ fields fields' h₂ hgrown₂ hfields
        have hposition₂ := hposition₁.mono hgrown₂
        refine .pure h₂ (.some (hposition₂.enclose_onSettled (hhandle₁.mono hgrown₂) none ?_))
        intro value arena₃ nodes₃ h₃ hgrown₃ context context' hlike
        cases value with
        | object members =>
          have hparent := hlike.push
            (show Value.Like nodes₃ .parent (.object members) (.object members) from rfl) .none
          have hproject := project_like position'.setting.execution.parallel hparent members
            (hfields.imp fun _ _ hfield => hfield.mono hgrown₃)
          dsimp only
          rw [hposition.setting.execution]
          exact (hproject arena₃ nodes₃ h₃ List.prefix_rfl).map _
        | _ => exact .pure h₃ rfl
      | _ => exact .throw h₁ _
  | _ => exact .pure hfaithful .none

theorem like_builtin : List.Forall₂ Like builtin PathQuery.Operator.builtin :=
  .cons like_path (.cons like_select .nil)

theorem mirrors_tryAll (hfaithful : arena.Faithful nodes) (hposition : position.Like nodes position')
    (hhandle : handle.Stands nodes node) (query : List Json) {operators : List Operator}
    {operators' : List PathQuery.Operator} (hoperators : List.Forall₂ Like operators operators') :
    Mirrors (fun nodes => Option.Rel (Middleware.Like nodes)) arena nodes
      (tryAll position handle query operators)
      (PathQuery.Operator.tryAll position' node query operators') := by
  induction hoperators generalizing arena nodes with
  | nil => exact .pure hfaithful .none
  | cons hfirst _ ih =>
    refine (hfirst arena nodes hfaithful _ _ _ _ query hposition hhandle).bind ?_
    intro arena₁ nodes₁ compiled compiled' h₁ hgrown hcompiled
    cases hcompiled with
    | none => exact ih h₁ (hposition.mono hgrown) (hhandle.mono hgrown)
    | some hcompiled => exact .pure h₁ (.some hcompiled)

end Operator

/-! ## Levels -/

/-- Compiling against a position is compiling against its node, at every level. -/
theorem Setting.Like.compile {setting : Setting} {setting' : PathQuery.Setting}
    {operators : List Operator} {operators' : List PathQuery.Operator}
    (hoperators : List.Forall₂ Operator.Like operators operators')
    (hsetting : setting.Like nodes setting') (hfaithful : arena.Faithful nodes)
    (remaining : Nat) (optional : Bool) {id : Nat} (hid : Stands nodes id node) (query : List Json) :
    Mirrors Middleware.Like arena nodes (setting.compile operators remaining optional id query)
      (setting'.compile operators' remaining optional node query) := by
  induction remaining generalizing arena nodes optional id node query with
  | zero =>
    unfold Setting.compile PathQuery.Setting.compile
    rw [hsetting.execution]
    exact .throw hfaithful _
  | succ remaining ih =>
    unfold Setting.compile PathQuery.Setting.compile
    refine .read hfaithful hid ?_
    have hhandle : Handle.Stands nodes ⟨id, node.shape⟩ node := ⟨hid, rfl⟩
    have hposition : Position.Like nodes ⟨setting, optional, setting.compile operators remaining⟩
        ⟨setting', optional, setting'.compile operators' remaining⟩ := by
      refine ⟨hsetting, rfl, ?_⟩
      -- the member of a union is compiled during the run, in an arena that has grown since
      intro arena₁ nodes₁ h₁ hgrown optional id node query hid
      exact ih (hsetting.mono hgrown) h₁ optional hid query
    dsimp only
    split
    · exact hposition.byStructure hhandle hfaithful query
    · refine (Operator.mirrors_tryAll hfaithful hposition hhandle query hoperators).bind ?_
      intro arena₁ nodes₁ compiled compiled' h₁ hgrown hcompiled
      cases hcompiled with
      | none => exact (hposition.mono hgrown).byStructure (hhandle.mono hgrown) h₁ query
      | some hcompiled => exact .pure h₁ hcompiled

end PathQuery.Located
