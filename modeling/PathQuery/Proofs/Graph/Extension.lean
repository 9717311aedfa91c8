import PathQuery.Proofs.Graph.Bisimulation
import PathQuery.Proofs.Graph.Scope

/-!
# Graphs of extended schemas

A schema is extended by declarations under other names. Nodes that the same steps lead to in both graphs
have the same structure under the same bindings, up to identities (`Node.Counterparts.site_eq`), and
below a declaration without parameters no step tells them apart (`Node.bisimulation_counterparts`):
there a parameter is always bound, so that it is never looked up among the declarations, even if one
of them took its name.
-/

set_option autoImplicit false

namespace PathQuery

open Except (Agree)

/-- Every declaration stands in the other schema, anywhere in the order and unchanged but for the
identities, which are new if the declaration was read anew. -/
def Schema.ExtendedBy (f : Nat → Nat) (schema schema' : Schema) : Prop :=
  ∀ entry ∈ schema.entries, (entry.1, entry.2.renumber f) ∈ schema'.entries

namespace Schema.ExtendedBy

variable {f : Nat → Nat} {schema schema' : Schema} (h : schema.ExtendedBy f schema')

include h

theorem entry?_eq {name : String} {declaration : Structure}
    (hfound : schema.entry? name = some declaration) :
    schema'.entry? name = some (declaration.renumber f) :=
  Keyed.lookup_of_mem schema'.nodup_names (h _ (Keyed.mem_of_lookup hfound))

theorem applied_eq {label : Label} {target : String} {count : Nat} {declaration : Structure}
    (happlied : schema.entries.applied label target count = .ok declaration) :
    schema'.entries.applied (label.renumber f) target count = .ok (declaration.renumber f) := by
  obtain ⟨hfound, hcount⟩ := Declarations.applied_eq_ok_iff.mp happlied
  exact Declarations.applied_eq_ok_iff.mpr
    ⟨h.entry?_eq hfound, by rw [Structure.parameters_renumber, hcount]⟩

/-- A step goes the same way as long as the reference that it follows applies a declaration. -/
theorem child_eq {site : Site} (step : Step)
    (happlied : ∀ label target typeArguments, site.shape = .ref label target typeArguments →
      ∃ declaration, schema.entries.applied label target typeArguments.length = .ok declaration) :
    (site.renumber f).child schema'.entries step =
      (site.child schema.entries step).map (Site.renumber f) := by
  refine Site.child_renumber f step fun label target typeArguments hs => ?_
  obtain ⟨declaration, hdeclaration⟩ := happlied label target typeArguments hs
  exact ⟨declaration, hdeclaration, h.applied_eq hdeclaration⟩

theorem child_eq_of_ok {site next : Site} {step : Step}
    (hstep : site.child schema.entries step = .ok next) :
    (site.renumber f).child schema'.entries step = .ok (next.renumber f) := by
  rw [h.child_eq step fun label target typeArguments hs => ?_, hstep]
  · rfl
  · cases Site.transition_of_child hstep with
    | target shape found =>
      cases shape.symm.trans hs
      exact ⟨_, found⟩
    | component found =>
      rw [hs] at found
      cases found
    | entry shape _ => cases shape.symm.trans hs

end Schema.ExtendedBy

namespace Node

variable {graph graph' : Graph} {node node' next : Node}

/-- The same steps lead to them in the two graphs. -/
structure Counterparts (graph graph' : Graph) (node node' : Node) : Prop where
  below : Below graph.root node
  below' : Below graph'.root node'
  trace : node'.trace = node.trace

namespace Counterparts

theorem root : Counterparts graph graph' graph.root graph'.root :=
  ⟨.start, .start, rfl⟩

theorem beq_eq {a a' b b' : Node} (ha : Counterparts graph graph' a a')
    (hb : Counterparts graph graph' b b') : (a == b) = (a' == b') := by
  rw [Bool.eq_iff_iff, Node.beq_iff, Node.beq_iff, ha.trace, hb.trace, ha.below.graph_eq,
    hb.below.graph_eq, ha.below'.graph_eq, hb.below'.graph_eq]
  simp

theorem child {step : Step} {site site' : Site} (h : Counterparts graph graph' node node')
    (hstep : node.child? step = .ok (.child node step site))
    (hstep' : node'.child? step = .ok (.child node' step site')) :
    Counterparts graph graph' (.child node step site) (.child node' step site') :=
  ⟨.step h.below hstep, .step h.below' hstep', by rw [Node.trace, Node.trace, h.trace]⟩

end Counterparts

theorem child?_entry {name : String} {declaration : Structure}
    (h : graph.schema.entry? name = some declaration) :
    graph.root.child? (.entry name) =
      .ok (.child graph.root (.entry name) (.declared declaration [])) :=
  child?_eq_ok_iff.mpr ⟨_, Site.child_entry rfl h, rfl⟩

variable {f : Nat → Nat} (hextended : graph.schema.ExtendedBy f graph'.schema)

include hextended

/-- Whatever is found in the graph is found in the extended one, at the same site but for the
identities. -/
theorem exists_counterpart (h : Below graph.root node) :
    ∃ node', Counterparts graph graph' node node' ∧
      (node = graph.root ∧ node' = graph'.root ∨ node'.site = node.site.renumber f) := by
  induction h with
  | start => exact ⟨graph'.root, .root, .inl ⟨rfl, rfl⟩⟩
  | @step parent _ step hparent hstep ih =>
    obtain ⟨parent', hcounterparts, hsites⟩ := ih
    obtain ⟨site, hsite, rfl⟩ := child?_eq_ok_iff.mp hstep
    have hstep' : parent'.child? step = .ok (.child parent' step (site.renumber f)) := by
      rcases hsites with ⟨rfl, rfl⟩ | hsites
      · -- of the roots only the declarations are asked
        cases Site.transition_of_child hsite with
        | @entry _ name _ shape found =>
          cases shape
          exact child?_entry (hextended.entry?_eq found)
        | component found => cases found
        | target shape _ => cases shape
      · refine child?_eq_ok_iff.mpr ⟨_, ?_, rfl⟩
        rw [hparent.graph_eq] at hsite
        rw [hcounterparts.below'.graph_eq, hsites]
        exact hextended.child_eq_of_ok hsite
    exact ⟨_, hcounterparts.child hstep hstep', .inr rfl⟩

theorem Counterparts.site_eq (h : Counterparts graph graph' node node') :
    node = graph.root ∧ node' = graph'.root ∨ node'.site = node.site.renumber f := by
  obtain ⟨other, hother, hsite⟩ := exists_counterpart hextended h.below
  rwa [hother.below'.eq_of_trace h.below' (hother.trace.trans h.trace.symm)] at hsite

omit hextended in
theorem not_scoped_root : ¬ graph.root.Scoped := by
  intro h
  obtain ⟨_, _, hcheck⟩ := h.here.checked
  cases hcheck

/-- In scope, no step tells counterparts apart. -/
theorem bisimulation_counterparts :
    Bisimulation f fun node node' => Counterparts graph graph' node node' ∧ node.Scoped where
  shape := by
    rintro node node' ⟨hcounterparts, hscoped⟩
    rcases hcounterparts.site_eq hextended with ⟨rfl, _⟩ | hsite
    · exact absurd hscoped not_scoped_root
    · exact congrArg Site.shape hsite
  child := by
    rintro node node' ⟨hcounterparts, hscoped⟩ step
    rcases hcounterparts.site_eq hextended with ⟨rfl, _⟩ | hsite
    · exact absurd hscoped not_scoped_root
    have hchild : node'.site.child node'.graph.schema.entries step =
        (node.site.child node.graph.schema.entries step).map (Site.renumber f) := by
      rw [hcounterparts.below'.graph_eq, hcounterparts.below.graph_eq, hsite]
      refine hextended.child_eq step fun label target typeArguments hs => ?_
      have hhere := hscoped.here
      rw [hcounterparts.below.graph_eq, shape, hs] at hhere
      exact hhere.applied
    cases hfound : node.site.child node.graph.schema.entries step with
    | error error =>
      rw [hfound] at hchild
      rw [child?_eq_error_iff.mpr hfound, child?_eq_error_iff.mpr hchild]
      exact .error error
    | ok site =>
      rw [hfound] at hchild
      have hstep := child?_eq_ok_iff.mpr ⟨site, hfound, rfl⟩
      have hstep' := child?_eq_ok_iff.mpr ⟨_, hchild, rfl⟩
      rw [hstep, hstep']
      exact .ok ⟨hcounterparts.child hstep hstep', hscoped.child hstep⟩

end Node

end PathQuery
