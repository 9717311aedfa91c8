import PathQuery.Proofs.Evaluation.Run
import PathQuery.Proofs.Matching.Decision
import PathQuery.Proofs.Query.Refusals

/-!
# What a run finds

Without resolvers the values that a run finds are those inside the value that it started with. At each
place the demand of the query tells which places come next and what is found there (`Setting.Finds`).
If the value that a plain query starts with conforms to its node, all values that are found conform
to theirs (`Setting.Finds.sound`), and none of them is refused when it is settled. A run can then fail in
two ways only: a value is missing, or a union is not left for a member that answers
(`Setting.meets_assemble`).
-/

set_option autoImplicit false

namespace PathQuery

/-- A place that a run comes to, whether its value may be missing, and the value that is found. -/
structure Finding where
  optional : Bool
  node : Node
  query : List Json
  value? : Option Json

namespace Setting

/-- What is found next. -/
inductive Finds (setting : Setting) : Finding → Finding → Prop where
  | through {optional : Bool} {node child : Node} {query rest : List Json} {value? input : Option Json}
      (demand : setting.demand node query = .ok (.through input child rest))
      (onward : ¬ (node.kind = .nullable ∧ value? = some .null)) :
      Finds setting ⟨optional, node, query, value?⟩ ⟨optional, child, rest, value?⟩
  | property {optional flag : Bool} {node child : Node} {query rest : List Json} {value : Json}
      {name : String} (demand : setting.demand node query = .ok (.property name flag child rest)) :
      Finds setting ⟨optional, node, query, some value⟩ ⟨flag, child, rest, value.member? name⟩
  | member {optional flag : Bool} {node child : Node} {query inner : List Json} {head : Json}
      {properties : List (Property Structure)} {requested given : List (String × Json)}
      {field : String × Json} (demand : setting.demand node query = .ok (.members head properties requested))
      (request : field ∈ requested)
      (requested : node.requested head properties field = .ok (flag, child, inner)) :
      Finds setting ⟨optional, node, query, some (.object given)⟩
        ⟨flag, child, inner, given.lookup field.1⟩
  | item {optional : Bool} {node item : Node} {query rest : List Json} {excerpt : Excerpt}
      {list : List Json} {value : Json}
      (demand : setting.demand node query = .ok (.items excerpt item rest)) (listed : value ∈ list) :
      Finds setting ⟨optional, node, query, some (.array list)⟩ ⟨false, item, rest, some value⟩
  | matched {optional : Bool} {node member : Node} {query rest : List Json} {value : Json}
      (demand : setting.demand node query = .ok (.matched rest))
      (selected : (Matching.selectMember setting.reach node (some value) none).result = .ok member) :
      Finds setting ⟨optional, node, query, some value⟩ ⟨optional, member, rest, some value⟩
  | anew {optional : Bool} {node : Node} {query rest : List Json} {value? : Option Json}
      (demand : setting.demand node query = .ok (.anew rest)) :
      Finds setting ⟨optional, node, query, value?⟩ ⟨false, setting.graph.root, rest, none⟩

end Setting

/-! ## Selection among conforming members -/

namespace Matching

variable {reach : Nat} {union member : Node} {value : Json}

theorem exists_of_filterM {ε α : Type} {test : α → Traced ε Bool} {items kept : List α}
    (h : (Traced.filterM test items).result = .ok kept) :
    ∀ item ∈ items, ∃ passes, (test item).result = .ok passes := by
  induction items generalizing kept with
  | nil => exact nofun
  | cons first rest ih =>
    simp only [Traced.filterM, Traced.result_bind] at h
    obtain ⟨passes, hpasses, h⟩ := Except.bind_eq_ok_iff.mp h
    obtain ⟨others, hothers, _⟩ := Except.bind_eq_ok_iff.mp h
    exact List.forall_mem_cons.mpr ⟨⟨passes, hpasses⟩, ih hothers⟩

/-- In scope the members that the value conforms to decide, unless matching gives up. -/
theorem selectMember_of_scoped (h : union.Scoped) (reach : Nat) (value : Json) :
    (selectMember reach union (some value) none).result =
        choose union value (union.conforming value) ∨
      ∃ error, (selectMember reach union (some value) none).result = .error error ∧
        error.Endless := by
  have hmeets {member : Node} (hmember : union.MemberOf member) :
      (fits reach member value).result.Meets (fun passes => passes = true ↔ member.Conforms value)
        Error.Endless := by
    obtain ⟨_, hchild⟩ := hmember
    exact meets_fits_iff (h.child hchild) reach value
  cases hfilter : (Traced.filterM (fun member => fits reach member value) union.members).result with
  | ok kept =>
    refine .inl (result_selectMember fun member hmember => ?_)
    obtain ⟨passes, hpasses⟩ := exists_of_filterM hfilter member (Node.mem_members.mpr hmember)
    exact ⟨passes, hpasses, (hmeets hmember).good_of hpasses⟩
  | error error =>
    have hendless : error.Endless := by
      refine (Traced.meets_filterM fun member hmember => ?_).fine_of hfilter
      exact (hmeets (Node.mem_members.mp hmember)).mono fun _ _ _ => trivial
    refine .inr ⟨error, ?_, hendless⟩
    simp only [selectMember, Traced.result_bind, Traced.result_ofExcept, Node.result_allMembers,
      Except.ok_bind, hfilter, Except.error_bind]

theorem conforms_of_selectMember (h : union.Scoped)
    (hselected : (selectMember reach union (some value) none).result = .ok member) :
    member.Scoped ∧ member.Conforms value := by
  rcases selectMember_of_scoped h reach value with hchoose | ⟨_, herror, _⟩
  · rw [hchoose] at hselected
    obtain ⟨⟨_, hchild⟩, hconforms⟩ := Node.mem_conforming.mp (mem_of_choose hselected)
    exact ⟨h.child hchild, hconforms⟩
  · cases herror.symm.trans hselected

end Matching

/-! ## Findings that conform -/

/-- The value that is found, if any, conforms to the node. -/
def Finding.Sound (finding : Finding) : Prop :=
  ∀ value, finding.value? = some value → finding.node.Scoped ∧ finding.node.Conforms value

namespace Node.Conforms

variable {node child : Node} {value : Json}

theorem of_wraps (h : node.Conforms value) (hwraps : node.Wraps child)
    (honward : ¬ (node.kind = .nullable ∧ some value = some .null)) : child.Conforms value := by
  obtain ⟨step, hstep, hchild⟩ := hwraps
  have hkind : node.kind = node.shape.kind := rfl
  have hinversion := h.inversion
  have hwrapped (h : ∃ next, node.Wraps next ∧ next.Conforms value) : child.Conforms value := by
    obtain ⟨next, ⟨step', hstep', hnext⟩, hconforms⟩ := h
    cases hstep.symm.trans hstep'
    cases hchild.symm.trans hnext
    exact hconforms
  cases hs : node.shape with
  | ref | typeAlias =>
    rw [hs] at hinversion
    exact hwrapped hinversion
  | nullable =>
    -- a null ends at the nullable, so that what goes on conforms to the node inside
    rw [hs] at hinversion hkind
    refine hwrapped (hinversion.resolve_left fun hnull => honward ⟨hkind, ?_⟩)
    cases value with
    | null => rfl
    | _ => cases hnull
  | _ =>
    rw [hs] at hstep
    cases hstep

theorem lookup {given : List (String × Json)} {name : String}
    (h : node.Conforms (.object given)) (hkind : node.kind = .object)
    (hchild : node.child? (.field name) = .ok child) (hfound : given.lookup name = some value) :
    child.Conforms value := by
  obtain ⟨_, heq, heach⟩ := h.members_of_kind (.inl hkind)
  cases heq
  obtain ⟨next, hnext, hconforms⟩ := heach _ (Keyed.mem_of_lookup hfound)
  cases hchild.symm.trans hnext
  exact hconforms

theorem item {list : List Json} (h : node.Conforms (.array list)) (hkind : node.kind = .array)
    (hchild : node.child? .items = .ok child) (hlisted : value ∈ list) : child.Conforms value := by
  have hinversion := h.inversion
  have hshape : node.kind = node.shape.kind := rfl
  cases hs : node.shape with
  | array =>
    rw [hs] at hinversion
    obtain ⟨item, values, heq, hitem, heach⟩ := hinversion
    cases heq
    cases hchild.symm.trans hitem
    exact heach value hlisted
  | _ =>
    rw [hshape, hs] at hkind
    cases hkind

theorem checkShape (h : node.Conforms value) : Descent.checkShape node value = .ok () := by
  have hexpected : Descent.expected? node.shape value = none := by
    have hinversion := h.inversion
    generalize node.shape = shape at hinversion ⊢
    cases shape with
    | object =>
      obtain ⟨_, rfl, _⟩ := hinversion
      rfl
    | array =>
      obtain ⟨_, _, rfl, _⟩ := hinversion
      rfl
    | primitive | literal => exact if_pos hinversion
    | _ => rfl
  rw [Descent.checkShape, hexpected]

end Node.Conforms

namespace Setting

variable {setting : Setting} {finding next : Finding}

open Instruction (Plain)

theorem Finds.plain (h : setting.Finds finding next) (hplain : Plain finding.query) :
    Plain next.query := by
  have hplainAt {node : Node} {query : List Json} {demand : Demand}
      (hdemand : setting.demand node query = .ok demand) (hplain : Plain query) :
      demand.PlainAt node := (meets_demand_fromQuery hplain).good_of hdemand
  cases h with
  | through demand => exact (hplainAt demand hplain).2
  | property demand | item demand | matched demand | anew demand => exact hplainAt demand hplain
  | @member _ _ node child _ inner head properties _ _ field demand request requested =>
    obtain ⟨name, value⟩ := field
    cases value with
    | array query =>
      obtain ⟨_, _, heq⟩ := Except.map_eq_ok_iff.mp requested
      cases heq
      exact hplainAt demand hplain _ request _ rfl
    | _ => cases requested

/-- From a value that conforms a plain query leads to values that conform. -/
theorem Finds.sound (h : setting.Finds finding next) (hplain : Plain finding.query)
    (hsound : finding.Sound) : next.Sound := by
  intro value hvalue
  cases h with
  | @through _ node child query rest _ _ demand onward =>
    cases hvalue
    obtain ⟨hscoped, hconforms⟩ := hsound value rfl
    rcases ((meets_demand_fromQuery hplain).good_of demand).1 with hwraps | hroot
    · obtain ⟨_, _, hchild⟩ := id hwraps
      exact ⟨hscoped.child hchild, hconforms.of_wraps hwraps onward⟩
    · have hinversion := hconforms.inversion
      have hkind : node.shape.kind = .root := hroot
      generalize node.shape = shape at hinversion hkind
      cases shape with
      | root => exact hinversion.elim
      | _ => cases hkind
  | property demand =>
    obtain ⟨hkind, hchild⟩ := suits_demand demand
    obtain ⟨hscoped, hconforms⟩ := hsound _ rfl
    refine ⟨hscoped.child hchild, ?_⟩
    obtain ⟨given, rfl, _⟩ := hconforms.members_of_kind (.inl hkind)
    exact hconforms.lookup hkind hchild hvalue
  | member demand _ requested =>
    obtain ⟨hscoped, hconforms⟩ := hsound _ rfl
    have hchild := Node.child?_of_requested requested
    exact ⟨hscoped.child hchild, hconforms.lookup (suits_demand demand) hchild hvalue⟩
  | item demand listed =>
    cases hvalue
    obtain ⟨hkind, hchild⟩ := suits_demand demand
    obtain ⟨hscoped, hconforms⟩ := hsound _ rfl
    exact ⟨hscoped.child hchild, hconforms.item hkind hchild listed⟩
  | matched _ selected =>
    cases hvalue
    exact Matching.conforms_of_selectMember (hsound _ rfl).1 selected
  | anew => cases hvalue

end Setting

/-! ## Descents without resolvers and marks -/

/-- Nothing is marked, and this is the value in hand. -/
structure Context.Holds (context : Context) (value? : Option Json) : Prop where
  unmarked : context.Unmarked
  value : context.value? = value?

namespace Context.Holds

variable {context : Context} {value? : Option Json}

theorem push (h : context.Holds value?) (key : Key)
    (hkey : key ≠ .value ∧ key ≠ .sliced ∧ key ≠ .fillEmpty) (value : key.Value)
    (scope : Option Node := none) : (context.push key value scope).Holds value? where
  unmarked := List.forall_mem_cons.mpr ⟨hkey.2, h.unmarked⟩
  value := (context.value?_push_of_ne hkey.1 value scope).trans h.value

theorem setValue (h : context.Holds value?) (value : Option Json) :
    (context.setValue value).Holds value where
  unmarked := List.forall_mem_cons.mpr ⟨⟨nofun, nofun⟩, h.unmarked⟩
  value := context.value?_setValue value

theorem arrive (h : context.Holds value?) (node : Node) (input : Option Json) :
    (Descent.attach node input (context.enter node)).Holds value? := by
  have hentered : (context.enter node).Holds value? := h.push .node (by decide) node
  cases input with
  | none => exact hentered
  | some input => exact hentered.push .input (by decide) input (some node)

theorem fillsEmpty (h : context.Holds value?) (node : Node) : context.fillsEmpty node = false := by
  rw [Context.fillsEmpty, get?_eq_none fun layer hlayer => (h.unmarked layer hlayer).2]
  rfl

theorem passMarks (h : context.Holds value?) (outer inner : Node) :
    Descent.passMarks outer inner context = context := by
  have hsliced : context.isSliced outer = false := by
    rw [isSliced, get?_eq_none fun layer hlayer => (h.unmarked layer hlayer).1]
    rfl
  simp only [Descent.passMarks, h.fillsEmpty outer, Bool.false_eq_true, if_false, hsliced]

end Context.Holds

namespace Descent

variable {context : Context} {value? : Option Json} {fine : Error → Prop}

theorem settle_of_some {value : Json} (h : context.value? = some value) (optional : Bool)
    (node : Node) :
    settle optional node context = (checkShape node value).map fun _ => some value := by
  simp only [settle, h]

theorem settle_of_none (h : context.Holds none) (optional : Bool) (node : Node) :
    settle optional node context =
      if optional then .ok none else .error (.couldNotResolve node.key) := by
  simp only [settle, h.value, h.fillsEmpty node, Bool.false_eq_true, if_false]

/-- A value that conforms is settled; a missing one has to be optional. -/
theorem meets_onSettled {finding : Finding} (hsound : finding.Sound)
    (habsent : finding.value? = none → finding.optional = false →
      fine (.couldNotResolve finding.node.key))
    (hcontext : context.Holds finding.value?) {go : Context → Json → Run (Option Json)}
    (hgo : ∀ value, finding.value? = some value →
      (go context value).result.Meets (fun _ => True) fine) :
    (onSettled finding.optional finding.node go context).result.Meets (fun _ => True) fine := by
  rw [result_onSettled]
  cases hvalue : finding.value? with
  | none =>
    rw [hvalue] at hcontext
    rw [settle_of_none hcontext]
    cases hoptional : finding.optional with
    | true => exact trivial
    | false => exact habsent hvalue hoptional
  | some value =>
    rw [settle_of_some (hcontext.value.trans hvalue), (hsound value hvalue).2.checkShape]
    exact hgo value hvalue

theorem result_enclose_bare {resolvers : Resolvers} (hbare : resolvers.bound = []) (node : Node)
    (input : Option Json) (descent : Descent) (context : Context) :
    ((enclose resolvers node input descent).evaluate context).result =
      (descent (attach node input (context.enter node))).result := by
  have hnone : resolvers.atShape node.shape = [] := by rw [Resolvers.atShape, hbare]; rfl
  rw [Middleware.result_evaluate_enclose, hnone]
  exact value?_core _ descent

end Descent

theorem Excerpt.getElem?_of_mem_items {excerpt : Excerpt} {sliced : Bool} {list : List Json}
    {item : Json × Nat} (h : item ∈ excerpt.items sliced list) : list[item.2]? = some item.1 := by
  refine List.mem_zipIdx_iff_getElem?.mp ?_
  unfold items at h
  split at h
  · split at h
    · exact h
    · exact List.mem_of_mem_drop (List.mem_of_mem_take h)
  · exact h

theorem Excerpt.mem_of_mem_items {excerpt : Excerpt} {sliced : Bool} {list : List Json}
    {item : Json × Nat} (h : item ∈ excerpt.items sliced list) : item.1 ∈ list :=
  List.mem_of_getElem? (getElem?_of_mem_items h)

/-! ## One step of a run -/

namespace Setting

open Instruction (Plain)

variable {setting : Setting} {finding : Finding} {levels : Nat} {fine : Error → Prop}

/-- What is compiled for a finding, with this many levels left, ends in errors that are fine wherever
its value is in hand. -/
def FineAt (setting : Setting) (levels : Nat) (fine : Error → Prop) (finding : Finding) : Prop :=
  ∀ {inner}, (setting.compile Operator.builtin levels finding.optional finding.node
    finding.query).result = .ok inner → ∀ {context : Context}, context.Holds finding.value? →
      (inner.evaluate context).result.Meets (fun _ => True) fine

theorem meets_project {head : Json} {properties : List (Property Structure)} {optional : Bool}
    {node : Node} {given requested : List (String × Json)} {fields : List Operator.Selection}
    (h : (Operator.compileFields ⟨setting, optional, setting.compile Operator.builtin levels⟩ node head
      properties requested).result = .ok fields)
    (hnext : ∀ field ∈ requested, ∀ flag child query,
      node.requested head properties field = .ok (flag, child, query) →
        setting.FineAt levels fine ⟨flag, child, query, given.lookup field.1⟩)
    {context : Context} {value? : Option Json} (hcontext : context.Holds value?)
    (parallel : Bool) :
    (Operator.project parallel context given fields).result.Meets (fun _ => True) fine := by
  rw [Operator.project, bind_pure_comp, Traced.result_map]
  refine (Run.meets_all fun run hrun => ?_).map fun _ _ _ => trivial
  obtain ⟨selection, hselection, rfl⟩ := List.mem_map.mp hrun
  obtain ⟨field, hfield, hname, flag, child, query, hrequested, hinner⟩ :=
    Operator.exists_of_mem_compileFields h hselection
  refine hnext field hfield flag child query hrequested hinner ?_
  rw [hname]
  exact hcontext.setValue _

theorem meets_excerpt {excerpt : Excerpt} {node item : Node} {rest list : List Json}
    {inner : Middleware}
    (hinner : (setting.compile Operator.builtin levels false item rest).result = .ok inner)
    (hnext : ∀ value ∈ list, setting.FineAt levels fine ⟨false, item, rest, some value⟩)
    {context : Context} {value? : Option Json} (hcontext : context.Holds value?) (parallel : Bool) :
    (excerpt.run parallel node inner context (.array list)).result.Meets (fun _ => True) fine := by
  have hinside : (context.push .parent (.array list)).Holds value? :=
    hcontext.push .parent (by decide) _
  have hitem {item : Json × Nat} (hmem : item.1 ∈ list) :
      (Excerpt.runItem inner (context.push .parent (.array list)) item).result.Meets (fun _ => True)
        fine :=
    hnext item.1 hmem hinner ((hinside.push .index (by decide) item.2).setValue _)
  unfold Excerpt.run
  dsimp only
  split
  · split
    · next found => exact hitem (List.mem_of_getElem? found)
    · exact trivial
  · rw [bind_pure_comp, Traced.result_map]
    refine (Run.meets_all fun run hrun => ?_).map fun _ _ _ => trivial
    obtain ⟨entry, hentry, rfl⟩ := List.mem_map.mp hrun
    exact hitem (Excerpt.mem_of_mem_items hentry)

/-- A run that starts with a value which conforms, or with none, fails only for a missing value, for a
union that is not left for a member that answers, or where what is found next fails. -/
theorem meets_assemble (hbare : setting.resolvers.bound = []) (hplain : Plain finding.query)
    (hsound : finding.Sound)
    (habsent : finding.value? = none → finding.optional = false →
      fine (.couldNotResolve finding.node.key))
    (hmatched : ∀ {rest value error}, setting.demand finding.node finding.query = .ok (.matched rest) →
      finding.value? = some value →
        setting.compileMatched levels finding.optional finding.node rest value = .error error →
          fine error)
    (hnext : ∀ {next}, setting.Finds finding next → next.Sound → Plain next.query →
      setting.FineAt levels fine next) :
    setting.FineAt (levels + 1) fine finding := by
  intro middleware h context hcontext
  rw [compile_succ] at h
  obtain ⟨demand, hdemand, h⟩ := Except.bind_eq_ok_iff.mp h
  have next {next : Finding} (hfinds : setting.Finds finding next) :
      setting.FineAt levels fine next :=
    hnext hfinds (hfinds.sound hplain hsound) (hfinds.plain hplain)
  obtain ⟨optional, node, query, value?⟩ := finding
  -- nothing stands between a node and its descent, which finds the value that came to the node
  have arrived (input : Option Json) := hcontext.arrive node input
  have settled (input : Option Json) {go : Context → Json → Run (Option Json)}
      (hgo : ∀ value, value? = some value → ∀ context : Context, context.Holds value? →
        (go context value).result.Meets (fun _ => True) fine) :
      ((Descent.enclose setting.resolvers node input
        (Descent.onSettled optional node go)).evaluate context).result.Meets (fun _ => True) fine := by
    rw [Descent.result_enclose_bare hbare]
    exact Descent.meets_onSettled hsound habsent (arrived input)
      fun value hvalue => hgo value hvalue _ (arrived input)
  cases demand with
  | whole =>
    cases h
    exact settled none fun _ _ _ _ => trivial
  | through input child rest =>
    obtain ⟨inner, hinner, rfl⟩ := Except.map_eq_ok_iff.mp h
    refine (Descent.result_enclose_bare hbare node input _ context).symm ▸ ?_
    unfold Descent.through
    split
    · exact trivial
    · next hnot =>
      rw [(arrived input).value] at hnot
      rw [(arrived input).passMarks]
      exact next (.through hdemand hnot) hinner (arrived input)
  | property name flag child rest =>
    obtain ⟨inner, hinner, rfl⟩ := Except.map_eq_ok_iff.mp h
    refine settled none fun value hvalue context hcontext => ?_
    cases hvalue
    exact next (.property hdemand) hinner ((hcontext.push .parent (by decide) value).setValue _)
  | members head properties requested =>
    obtain ⟨fields, hfields, rfl⟩ := Except.map_eq_ok_iff.mp h
    refine settled none fun value hvalue context hcontext => ?_
    cases hvalue
    unfold Demand.intoMembers
    split
    · next given =>
      rw [bind_pure_comp, Traced.result_map]
      refine (meets_project hfields (fun field hfield flag child query hrequested => ?_)
        (hcontext.push .parent (by decide) _) _).map fun _ _ _ => trivial
      exact next (.member hdemand hfield hrequested)
    · exact trivial
  | items excerpt item rest =>
    obtain ⟨inner, hinner, rfl⟩ := Except.map_eq_ok_iff.mp h
    refine settled excerpt.input? fun value hvalue context hcontext => ?_
    cases hvalue
    cases value with
    | array list =>
      exact meets_excerpt hinner (fun _ hlisted => next (.item hdemand hlisted)) hcontext _
    | _ => exact trivial
  | matched rest =>
    cases h
    refine settled none fun value hvalue context hcontext => ?_
    cases hvalue
    -- here the query is compiled for the first time, so that it may be refused in the run
    have hresult : (Demand.intoMatched ⟨setting, optional, setting.compile Operator.builtin levels⟩ node
        rest context value).result =
          (setting.compileMatched levels optional node rest value).bind fun inner =>
            (inner.evaluate (context.setValue (some value))).result := by
      simp only [Demand.intoMatched, Walk.run, Traced.result_bind, Traced.result_mapTrail,
        compileMatched]
    rw [hresult]
    cases hcompiled : setting.compileMatched levels optional node rest value with
    | error error => exact hmatched hdemand rfl hcompiled
    | ok inner =>
      obtain ⟨member, hmember, hinner⟩ := Except.bind_eq_ok_iff.mp hcompiled
      exact next (.matched hdemand hmember) hinner (hcontext.setValue _)
  | anew query =>
    obtain ⟨inner, hinner, rfl⟩ := Except.map_eq_ok_iff.mp h
    rw [Middleware.result_evaluate_answerAnew]
    exact next (.anew hdemand) hinner (hcontext.setValue _)

end Setting

end PathQuery
