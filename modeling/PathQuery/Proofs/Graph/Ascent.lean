import PathQuery.Proofs.Graph.Representation
import PathQuery.Proofs.Graph.Scope

/-!
# Ways up

Two walks lead from a position of an arena to the one that it was reached from, and so on: the one
to the root, and the one that collects the structures crossed since a declaration was entered. Both are
given here as they go, step by step, so that they end just if there is a derivation
(`Arena.Climbs`, `Arena.Gathers`). In every arena that navigation leaves they end: the first at position
zero, the second at the declaration that was entered last (`Graph.ascends`).
-/

set_option autoImplicit false

namespace PathQuery

/-! ## Declarations that are entered -/

/-- Whether a step enters a root level declaration. -/
def Step.enters : Step → Bool
  | .entry _ | .target => true
  | _ => false

/-- The declaration that is entered by a step from a structure. -/
inductive Schema.Enters (schema : Schema) : Structure → Step → Structure → Prop where
  | entry {name : String} {declaration : Structure} (found : schema.entry? name = some declaration) :
      Enters schema schema.root (.entry name) declaration
  | target {label : Label} {name : String} {typeArguments : List Structure}
      {declaration : Structure} (found : schema.entry? name = some declaration) :
      Enters schema (.ref label name typeArguments) .target declaration

theorem Schema.Enters.exists_entry {schema : Schema} {shape declaration : Structure} {step : Step}
    (h : schema.Enters shape step declaration) : ∃ name, schema.entry? name = some declaration := by
  cases h with
  | entry found | target found => exact ⟨_, found⟩

theorem Structure.Component.enters {shape part : Structure} {step : Step}
    (h : Component shape step part) : step.enters = false := by
  cases h <;> rfl

theorem Site.declaration_of_transition {declarations : Declarations} {site next : Site}
    {step : Step} (h : Transition declarations site step next) :
    next.declaration = step.enters := by
  cases h with
  | entry | target => rfl
  | component found => exact (Structure.component_of_component? found).enters.symm

namespace Declarations

variable {declarations : Declarations}

/-- The structure was checked, in some scope. -/
def Checked (declarations : Declarations) (shape : Structure) (_ : Bindings) : Prop :=
  ∃ scope, declarations.check scope shape = .ok ()

theorem not_checked_root {entries : List (String × Structure)} {bindings : Bindings} :
    ¬ declarations.Checked (.root entries) bindings := by
  rintro ⟨_, hcheck⟩
  cases hcheck

theorem SelfChecked.checked (h : declarations.SelfChecked) {name : String}
    {declaration : Structure} (hfound : declarations.lookup name = some declaration)
    (bindings : Bindings) : declarations.Checked declaration bindings :=
  ⟨_, h _ (Keyed.mem_of_lookup hfound)⟩

theorem kept_checked (h : declarations.SelfChecked) : Kept declarations declarations.Checked where
  entry hroot _ := absurd hroot not_checked_root
  component hshape hpart _ := by
    obtain ⟨scope, hcheck⟩ := hshape
    exact ⟨scope, check_of_component? hcheck hpart⟩
  argument hshape hargument _ := by
    obtain ⟨scope, hcheck⟩ := hshape
    exact ⟨scope, (check_ref_eq_ok_iff.mp hcheck).2 _ hargument⟩
  target _ hfound := h.checked (applied_eq_ok_iff.mp hfound).1 _

end Declarations

namespace Node.Below

variable {graph : Graph} {node parent : Node} {step : Step} {site : Site}

/-- There is no root but the one of the graph: every other node stands at a checked structure. -/
theorem root_or_checked (h : Below graph.root node) :
    node = graph.root ∨ node.site.closure.Hereditary graph.schema.entries.Checked := by
  have hself := Declarations.selfChecked_of_validate graph.schema.accepted
  induction h with
  | start => exact .inl rfl
  | @step parent _ step hparent hstep ih =>
    right
    obtain ⟨site, hsite, rfl⟩ := child?_eq_ok_iff.mp hstep
    rw [hparent.graph_eq] at hsite
    rcases ih with rfl | hchecked
    · cases Site.transition_of_child hsite with
      | entry shape found =>
        cases shape
        exact .mk (hself.checked found []) nofun
      | component found => cases found
      | target shape => cases shape
    · exact (Declarations.kept_checked hself).child hchecked hsite

theorem transition (h : Below graph.root (.child parent step site)) :
    Site.Transition graph.schema.entries parent.site step site := by
  obtain ⟨hparent, hstep⟩ := h.child_of_eq
  obtain ⟨found, hfound, heq⟩ := child?_eq_ok_iff.mp hstep
  cases heq
  rw [hparent.graph_eq] at hfound
  exact Site.transition_of_child hfound

theorem declaration_eq (h : Below graph.root (.child parent step site)) :
    site.declaration = step.enters :=
  Site.declaration_of_transition h.transition

theorem enters (h : Below graph.root (.child parent step site)) (hstep : step.enters = true) :
    graph.schema.Enters parent.shape step site.shape := by
  cases h.transition with
  | entry shape found =>
    rcases h.child_of_eq.1.root_or_checked with rfl | hchecked
    · cases shape
      exact .entry found
    · have hroot := hchecked.here_of
      rw [Site.closure, Binding.shape, shape] at hroot
      exact absurd hroot Declarations.not_checked_root
  | component found =>
    cases (Structure.component_of_component? found).enters.symm.trans hstep
  | target shape found =>
    rw [Node.shape, shape]
    exact .target (Declarations.applied_eq_ok_iff.mp found).1

theorem ne_root_of_component (h : Below graph.root (.child parent step site))
    (hstep : step.enters = false) : parent ≠ graph.root := by
  rintro rfl
  cases h.transition with
  | entry => cases hstep
  | component found => cases found
  | target => cases hstep

theorem lineage_child (h : Below graph.root (.child parent step site)) :
    (Node.child parent step site).lineage =
      if step.enters then [site.shape] else parent.lineage ++ [site.shape] := by
  rw [lineage, h.declaration_eq]

/-- The structures crossed begin with a root level declaration. -/
theorem head?_lineage (h : Below graph.root node) (hne : node ≠ graph.root) :
    ∃ name declaration, graph.schema.entry? name = some declaration ∧
      node.lineage.head? = some declaration := by
  induction node with
  | root other => exact absurd h.eq_root_of_root hne
  | child parent step site ih =>
    rw [h.lineage_child]
    cases hstep : step.enters with
    | true =>
      obtain ⟨name, hname⟩ := (h.enters hstep).exists_entry
      exact ⟨name, site.shape, hname, rfl⟩
    | false =>
      obtain ⟨name, declaration, hname, hhead⟩ :=
        ih h.child_of_eq.1 (h.ne_root_of_component hstep)
      refine ⟨name, declaration, hname, ?_⟩
      rw [if_neg Bool.false_ne_true, List.head?_append, hhead]
      rfl

theorem getLast?_lineage (h : Below graph.root (.child parent step site)) :
    (Node.child parent step site).lineage.getLast? = some site.shape := by
  rw [h.lineage_child]
  split
  · rfl
  · exact List.getLast?_concat

end Node.Below

/-! ## Ways up in an arena -/

namespace Arena

variable {arena : Arena} {nodes : List Node} {id : Nat} {node : Node}

/-- From a position to its parent, until there is none. -/
inductive Climbs (arena : Arena) : Nat → Nat → Prop where
  | stop {id : Nat} (none : arena.parent? id = none) : Climbs arena id id
  | up {id parent last : Nat} (some : arena.parent? id = some parent)
      (rest : Climbs arena parent last) : Climbs arena id last

/-- From a position to its parent, until the root or a declaration, with the structures on the way. -/
inductive Gathers (arena : Arena) : Nat → List Structure → Prop where
  | root : Gathers arena 0 []
  | stop {id : Nat} (ne : id ≠ 0)
      (last : (arena.site id).declaration = true ∨ arena.parent? id = none) :
      Gathers arena id [(arena.site id).shape]
  | up {id parent : Nat} {crossed : List Structure} (ne : id ≠ 0)
      (below : (arena.site id).declaration = false) (some : arena.parent? id = some parent)
      (rest : Gathers arena parent crossed) : Gathers arena id (crossed ++ [(arena.site id).shape])

/-- There is one way up. -/
theorem Climbs.eq_of {last last' : Nat} (h : arena.Climbs id last) (h' : arena.Climbs id last') :
    last = last' := by
  induction h with
  | stop hnone =>
    cases h' with
    | stop => rfl
    | up hsome => cases hnone.symm.trans hsome
  | up hsome _ ih =>
    cases h' with
    | stop hnone => cases hnone.symm.trans hsome
    | up hsome' hrest =>
      cases hsome.symm.trans hsome'
      exact ih hrest

theorem Gathers.eq_of {crossed crossed' : List Structure} (h : arena.Gathers id crossed)
    (h' : arena.Gathers id crossed') : crossed = crossed' := by
  induction h generalizing crossed' with
  | root =>
    cases h' with
    | root => rfl
    | stop hne | up hne => exact absurd rfl hne
  | stop hne hlast =>
    cases h' with
    | root => exact absurd rfl hne
    | stop => rfl
    | up _ hbelow hsome =>
      rcases hlast with hlast | hlast
      · cases hlast.symm.trans hbelow
      · cases hlast.symm.trans hsome
  | up hne hbelow hsome _ ih =>
    cases h' with
    | root => exact absurd rfl hne
    | stop _ hlast =>
      rcases hlast with hlast | hlast
      · cases hlast.symm.trans hbelow
      · cases hlast.symm.trans hsome
    | up _ _ hsome' hrest =>
      cases hsome.symm.trans hsome'
      rw [ih hrest]

namespace Faithful

variable (h : arena.Faithful nodes)

include h

theorem parent?_of_root {graph : Graph} (hid : nodes[id]? = some (.root graph)) :
    arena.parent? id = none := by
  rw [parent?_eq, h.origin_root hid]
  rfl

theorem eq_zero_of_root {graph : Graph} (hid : nodes[id]? = some (.root graph)) : id = 0 := by
  rw [(h.below_of hid).eq_root_of_root] at hid
  exact h.id_inj hid h.first

theorem ne_zero_of_child {parent : Node} {step : Step} {site : Site}
    (hid : nodes[id]? = some (.child parent step site)) : id ≠ 0 := by
  rintro rfl
  cases hid.symm.trans h.first

/-- The parent of a position stands for the parent of its node, and comes before it. -/
theorem parent?_of_child {parent : Node} {step : Step} {site : Site}
    (hid : nodes[id]? = some (.child parent step site)) :
    ∃ before < id, arena.origin? id = some (before, step) ∧ arena.parent? id = some before ∧
      nodes[before]? = some parent := by
  obtain ⟨before, hlt, horigin, hbefore⟩ := h.origin_child hid
  refine ⟨before, hlt, horigin, ?_, hbefore⟩
  rw [parent?_eq, horigin]
  rfl

theorem climbs (hid : nodes[id]? = some node) : arena.Climbs id 0 := by
  induction node generalizing id with
  | root graph =>
    cases h.eq_zero_of_root hid
    exact .stop (h.parent?_of_root hid)
  | child parent step site ih =>
    obtain ⟨before, _, _, hparent, hbefore⟩ := h.parent?_of_child hid
    exact .up hparent (ih hbefore)

theorem top_eq (hid : nodes[id]? = some node) : arena.top id = 0 := by
  induction node generalizing id with
  | root graph =>
    rw [top, h.parent?_of_root hid]
    exact h.eq_zero_of_root hid
  | child parent step site ih =>
    obtain ⟨before, hlt, _, hparent, hbefore⟩ := h.parent?_of_child hid
    rw [top, hparent]
    exact (dif_pos hlt).trans (ih hbefore)

theorem lineage_eq (hid : nodes[id]? = some node) : arena.lineage id = node.lineage := by
  induction node generalizing id with
  | root graph =>
    rw [lineage, h.parent?_of_root hid]
    rfl
  | child parent step site ih =>
    obtain ⟨before, hlt, _, hparent, hbefore⟩ := h.parent?_of_child hid
    rw [lineage, hparent, h.site hid]
    simp only [dif_pos hlt, ih hbefore]
    rfl

theorem gathers (hid : nodes[id]? = some node) : arena.Gathers id node.lineage := by
  induction node generalizing id with
  | root graph =>
    cases h.eq_zero_of_root hid
    exact .root
  | child parent step site ih =>
    obtain ⟨before, _, _, hparent, hbefore⟩ := h.parent?_of_child hid
    have hne := h.ne_zero_of_child hid
    have hsite : arena.site id = site := h.site hid
    rw [Node.lineage, ← hsite]
    split
    · next hdeclaration => exact .stop hne (.inl hdeclaration)
    · next hdeclaration =>
      have hbelow := Bool.eq_false_iff.mpr hdeclaration
      exact .up hne hbelow hparent (ih hbefore)

/-- A position other than zero stands for a child of what its parent stands for. -/
theorem exists_child (hid : id < arena.size) (hne : id ≠ 0) :
    ∃ parent step site, nodes[id]? = some (.child parent step site) := by
  obtain ⟨node, hnode⟩ := h.exists_node hid
  cases node with
  | root graph => exact absurd (h.eq_zero_of_root hnode) hne
  | child parent step site => exact ⟨parent, step, site, hnode⟩

theorem child_of_origin? {before : Nat} {step : Step} (hid : id < arena.size)
    (horigin : arena.origin? id = some (before, step)) :
    ∃ parent site, nodes[id]? = some (.child parent step site) ∧ nodes[before]? = some parent := by
  obtain ⟨node, hnode⟩ := h.exists_node hid
  cases node with
  | root graph => cases (h.origin_root hnode).symm.trans horigin
  | child parent taken site =>
    obtain ⟨earlier, _, hearlier, hparent⟩ := h.origin_child hnode
    cases hearlier.symm.trans horigin
    exact ⟨parent, site, hnode, hparent⟩

end Faithful

end Arena

/-! ## Sessions -/

/-- The ways up in an arena. -/
structure Graph.Ascends (graph : Graph) (arena : Arena) : Prop where
  graph_eq : arena.graph = graph
  climbs_iff : ∀ id < arena.size, ∀ last, arena.Climbs id last ↔ last = 0
  top_eq : ∀ id < arena.size, arena.top id = 0
  gathers_iff : ∀ id < arena.size, ∀ crossed, arena.Gathers id crossed ↔ crossed = arena.lineage id
  root : arena.lineage 0 = []
  origin : ∀ id < arena.size, id ≠ 0 → ∃ parent < id, ∃ step, arena.origin? id = some (parent, step)
  entered : ∀ id < arena.size, ∀ parent step, arena.origin? id = some (parent, step) →
    step.enters = true →
      graph.schema.Enters (arena.site parent).shape step (arena.site id).shape ∧
        arena.lineage id = [(arena.site id).shape]
  crossed : ∀ id < arena.size, ∀ parent step, arena.origin? id = some (parent, step) →
    step.enters = false → arena.lineage id = arena.lineage parent ++ [(arena.site id).shape]
  first : ∀ id < arena.size, id ≠ 0 → ∃ name declaration,
    graph.schema.entry? name = some declaration ∧ (arena.lineage id).head? = some declaration
  last : ∀ id < arena.size, id ≠ 0 → (arena.lineage id).getLast? = some (arena.site id).shape

namespace Graph

theorem ascends_of_faithful {arena : Arena} {nodes : List Node} (h : arena.Faithful nodes) :
    arena.graph.Ascends arena where
  graph_eq := rfl
  climbs_iff id hid last := by
    obtain ⟨node, hnode⟩ := h.exists_node hid
    constructor
    · intro hlast
      exact hlast.eq_of (h.climbs hnode)
    · rintro rfl
      exact h.climbs hnode
  top_eq id hid := by
    obtain ⟨node, hnode⟩ := h.exists_node hid
    exact h.top_eq hnode
  gathers_iff id hid crossed := by
    obtain ⟨node, hnode⟩ := h.exists_node hid
    rw [h.lineage_eq hnode]
    constructor
    · intro hcrossed
      exact hcrossed.eq_of (h.gathers hnode)
    · rintro rfl
      exact h.gathers hnode
  root := h.lineage_eq h.first
  origin id hid hne := by
    obtain ⟨parent, step, site, hnode⟩ := h.exists_child hid hne
    obtain ⟨before, hlt, horigin, _⟩ := h.origin_child hnode
    exact ⟨before, hlt, step, horigin⟩
  entered id hid before step horigin hstep := by
    obtain ⟨parent, site, hnode, hparent⟩ := h.child_of_origin? hid horigin
    have hbelow := h.below_of hnode
    rw [h.lineage_eq hnode, hbelow.lineage_child, if_pos hstep, h.site hnode, h.site hparent]
    exact ⟨hbelow.enters hstep, rfl⟩
  crossed id hid before step horigin hstep := by
    obtain ⟨parent, site, hnode, hparent⟩ := h.child_of_origin? hid horigin
    rw [h.lineage_eq hnode, h.lineage_eq hparent, h.site hnode, (h.below_of hnode).lineage_child,
      hstep]
    rfl
  first id hid hne := by
    obtain ⟨parent, step, site, hnode⟩ := h.exists_child hid hne
    rw [h.lineage_eq hnode]
    exact (h.below_of hnode).head?_lineage nofun
  last id hid hne := by
    obtain ⟨parent, step, site, hnode⟩ := h.exists_child hid hne
    rw [h.lineage_eq hnode, h.site hnode]
    exact (h.below_of hnode).getLast?_lineage

/-- After every session the ways up end at the root and at the declaration entered last, and whatever
is navigated afterwards, they stay as they are. -/
theorem ascends (graph : Graph) (reach : Nat) (calls : List Call) :
    graph.Ascends (graph.session reach calls).1 ∧
      ∀ more id, id < (graph.session reach calls).1.size →
        id < (graph.session reach (calls ++ more)).1.size ∧
          (graph.session reach (calls ++ more)).1.lineage id =
            (graph.session reach calls).1.lineage id := by
  obtain ⟨nodes, h⟩ := graph.paired_session reach calls
  have hgraph := h.leaves.graph_eq
  constructor
  · have hascends := ascends_of_faithful h.leaves.faithful
    rwa [hgraph] at hascends
  · intro more id hid
    obtain ⟨node, hnode⟩ := h.leaves.faithful.exists_node hid
    obtain ⟨nodes', hgrown, h'⟩ : ∃ nodes', nodes <+: nodes' ∧
        Paired graph nodes' (more.foldl (Arena.serve reach) (graph.session reach calls)) _ :=
      h.foldl more
    have hsession : graph.session reach (calls ++ more) =
        more.foldl (Arena.serve reach) (graph.session reach calls) := List.foldl_append
    have hnode' := Visit.Stands.mono hgrown hnode
    rw [hsession]
    refine ⟨h'.leaves.faithful.lt_size hnode', ?_⟩
    rw [h.leaves.faithful.lineage_eq hnode, h'.leaves.faithful.lineage_eq hnode']

end Graph

end PathQuery
