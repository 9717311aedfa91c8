import PathQuery.Proofs.Matching.Omission
import PathQuery.Proofs.Query.Acceptance
import PathQuery.Proofs.Query.Findings

/-!
# Matching and settling agree

Whether a value fits a node is looked at as a whole when a union is matched, and node by node when
values are settled in a run. Both agree: where a value fits the node that a plain query is compiled at,
a run that starts with it is refused no value. It fails for a required value that is missing, for a union
of which the value fits several members, or for the part of the query that a member refuses; and where
no chain goes on for ever, for nothing else (`Engine.agrees_with_matching`). What a member refuses is to
blame on the client, unless the entry of the engine has parameters (`Chest.internal_of_refused`).
-/

set_option autoImplicit false

open Filter

namespace PathQuery

/-- A value was found that the structure does not admit. -/
def Error.Mismatch : Error → Prop
  | .invalidResolvedValue .. | .noUnionMatch .. => True
  | _ => False

theorem Error.FromQuery.not_endless {error : Error} (h : error.FromQuery) : ¬ error.Endless := by
  rintro ⟨_, rfl⟩
  exact h

namespace Setting

/-- Why a run fails that starts with a value which fits. -/
inductive Fault (setting : Setting) (start : Finding) : Error → Prop where
  | absent {finding : Finding} (found : Relation.ReflTransGen setting.Finds start finding)
      (required : finding.optional = false) (absent : finding.value? = none) :
      Fault setting start (.couldNotResolve finding.node.key)
  | ambiguous {finding : Finding} {rest : List Json} {value : Json}
      (found : Relation.ReflTransGen setting.Finds start finding)
      (demand : setting.demand finding.node finding.query = .ok (.matched rest))
      (present : finding.value? = some value)
      (several : 1 < (finding.node.conforming value).length) :
      Fault setting start (.ambiguousUnionMatch finding.node.key value.text
        (Matching.named (finding.node.conforming value)))
  /-- A part of the query is compiled at the member of a union, and refused. Where the entry of the engine
  has parameters the part may restart at it and come to a parameter that stands for nothing, for which
  the client is not to blame. -/
  | refused {finding : Finding} {rest : List Json} {value : Json} {member : Node} {levels : Nat}
      {error : Error} (found : Relation.ReflTransGen setting.Finds start finding)
      (demand : setting.demand finding.node finding.query = .ok (.matched rest))
      (present : finding.value? = some value)
      (selected : (Matching.selectMember setting.reach finding.node (some value) none).result =
        .ok member)
      (refused : (setting.compile Operator.builtin levels finding.optional member rest).result =
        .error error)
      (fromQuery : error.FromQuery) (client : setting.PlainEntry → error.category = .client) :
      Fault setting start error

variable {setting : Setting} {start finding : Finding} {error : Error}

theorem Fault.not_mismatch (h : setting.Fault start error) : ¬ error.Mismatch := by
  cases h with
  | absent | ambiguous => exact id
  | refused _ _ _ _ _ fromQuery _ =>
    cases error <;> first | exact id | exact fromQuery.elim

end Setting

/-- Of several candidates one of which conforms none is chosen for the lack of any. -/
theorem Matching.choose_eq_error {union member : Node} {value : Json} {candidates : List Node}
    {error : Error} (hmember : member ∈ candidates)
    (h : choose union value candidates = .error error) :
    1 < candidates.length ∧ error = .ambiguousUnionMatch union.key value.text (named candidates) := by
  match candidates with
  | [] => cases hmember
  | [only] => cases h
  | _ :: _ :: rest =>
    cases h
    exact ⟨Nat.lt_add_of_pos_left (Nat.succ_pos _), rfl⟩

namespace Setting

open Instruction (Plain)

variable {setting : Setting} {start finding next : Finding} {levels : Nat}

theorem fault_of_compile {error : Error} {optional : Bool} {member : Node} {rest : List Json}
    (hscoped : member.Scoped) (hplain : Plain rest)
    (h : (setting.compile Operator.builtin levels optional member rest).result = .error error) :
    error.FromQuery ∧ (setting.PlainEntry → error.category = .client) := by
  have hquery := (meets_compile_fromQuery levels optional member hplain).fine_of h
  refine ⟨hquery, fun hentry => ?_⟩
  have hrefuses := (decides_compile hentry levels optional member rest (.inr hscoped)).fine_of h
  exact (hrefuses.resolve_left hquery.not_endless).1

theorem fault_of_compileMatched (hfound : Relation.ReflTransGen setting.Finds start finding)
    (hsound : finding.Sound) (hplain : Plain finding.query) {rest : List Json} {value : Json}
    {error : Error} (hdemand : setting.demand finding.node finding.query = .ok (.matched rest))
    (hvalue : finding.value? = some value)
    (h : setting.compileMatched levels finding.optional finding.node rest value = .error error) :
    setting.Fault start error ∨ error.Endless := by
  obtain ⟨hscoped, hconforms⟩ := hsound value hvalue
  unfold compileMatched at h
  cases hselected : (Matching.selectMember setting.reach finding.node (some value) none).result with
  | ok member =>
    rw [hselected] at h
    have hmember := (Matching.conforms_of_selectMember hscoped hselected).1
    have hrest : Plain rest := (meets_demand_fromQuery hplain).good_of hdemand
    obtain ⟨hquery, hclient⟩ := fault_of_compile hmember hrest h
    exact .inl (.refused hfound hdemand hvalue hselected h hquery hclient)
  | error unmatched =>
    rw [hselected] at h
    cases h
    rcases Matching.selectMember_of_scoped hscoped setting.reach value with hchoose | ⟨_, herror, hendless⟩
    · have hkind : finding.node.shape.kind = .union := suits_demand hdemand
      obtain ⟨member, hmember, hconforms⟩ : ∃ member, finding.node.MemberOf member ∧
          member.Conforms value := by
        have hinversion := hconforms.inversion
        generalize finding.node.shape = shape at hinversion hkind
        cases shape with
        | union => exact hinversion
        | _ => cases hkind
      obtain ⟨hseveral, rfl⟩ := Matching.choose_eq_error
        (Node.mem_conforming.mpr ⟨hmember, hconforms⟩) (hchoose.symm.trans hselected)
      exact .inl (.ambiguous hfound hdemand hvalue hseveral)
    · cases herror.symm.trans hselected
      exact .inr hendless

theorem fineAt_fault (hbare : setting.resolvers.bound = []) (levels : Nat)
    (hfound : Relation.ReflTransGen setting.Finds start finding) (hsound : finding.Sound)
    (hplain : Plain finding.query) :
    setting.FineAt levels (fun error => setting.Fault start error ∨ error.Endless) finding := by
  induction levels generalizing finding with
  | zero => exact nofun
  | succ levels ih =>
    refine meets_assemble hbare hplain hsound (fun habsent hrequired => ?_) ?_ ?_
    · exact .inl (.absent hfound hrequired habsent)
    · exact fault_of_compileMatched hfound hsound hplain
    · exact fun hfinds hsound hplain => ih (.tail hfound hfinds) hsound hplain

/-! ## Matching does not give up -/

/-- The findings that a demand may lead to, however far matching reaches. -/
def candidates (root : Node) (finding : Finding) : Demand → List Finding
  | .whole => []
  | .through _ child rest => [⟨finding.optional, child, rest, finding.value?⟩]
  | .property name flag child rest => finding.value?.toList.map fun value =>
    ⟨flag, child, rest, value.member? name⟩
  | .members head properties requested => finding.value?.toList.flatMap fun value =>
    requested.filterMap fun field =>
      (finding.node.requested head properties field).toOption.map fun part =>
        ⟨part.1, part.2.1, part.2.2, value.member? field.1⟩
  | .items _ item rest => finding.value?.toList.flatMap fun value =>
    value.children.map fun listed => ⟨false, item, rest, some listed⟩
  | .matched rest => finding.node.members.map fun member =>
    ⟨finding.optional, member, rest, finding.value?⟩
  | .anew rest => [⟨false, root, rest, none⟩]

theorem Finds.mem_candidates (h : setting.Finds finding next) {demand : Demand}
    (hdemand : setting.demand finding.node finding.query = .ok demand) :
    next ∈ candidates setting.graph.root finding demand := by
  cases h with
  | through found | anew found =>
    cases hdemand.symm.trans found
    exact List.mem_cons_self
  | property found =>
    cases hdemand.symm.trans found
    exact List.mem_cons_self
  | @member _ _ _ _ _ _ _ _ _ given field found request requested =>
    cases hdemand.symm.trans found
    refine List.mem_flatMap.mpr ⟨.object given, List.mem_cons_self, ?_⟩
    refine List.mem_filterMap.mpr ⟨field, request, ?_⟩
    rw [requested]
    rfl
  | @item _ _ _ _ _ _ list value found listed =>
    cases hdemand.symm.trans found
    refine List.mem_flatMap.mpr ⟨.array list, List.mem_cons_self, ?_⟩
    exact List.mem_map.mpr ⟨value, listed, rfl⟩
  | @matched _ _ member _ _ _ found selected =>
    cases hdemand.symm.trans found
    have hmember := Node.mem_members.mpr (Matching.memberOf_of_selectMember selected)
    exact List.mem_map.mpr ⟨member, hmember, rfl⟩

theorem Finds.exists_demand (h : setting.Finds finding next) :
    ∃ demand, setting.demand finding.node finding.query = .ok demand := by
  cases h with
  | through found | property found | member found | item found | matched found | anew found =>
    exact ⟨_, found⟩

/-- What may be found next, however far matching reaches, is one of finitely many findings. -/
theorem exists_candidates (setting : Setting) (finding : Finding) :
    ∃ candidates : List Finding, ∀ reach next, (setting.reaching reach).Finds finding next →
      next ∈ candidates := by
  by_cases hasked : ∃ reach demand,
      (setting.reaching reach).demand finding.node finding.query = .ok demand
  · obtain ⟨reach, asked, hasked⟩ := hasked
    refine ⟨candidates setting.graph.root finding asked, fun reach' next hfinds => ?_⟩
    -- reach decides whether there is a demand at all, but not which one
    obtain ⟨demand, hdemand⟩ := hfinds.exists_demand
    rw [demand_unique hasked hdemand]
    exact hfinds.mem_candidates hdemand
  · refine ⟨[], fun reach next hfinds => absurd ?_ hasked⟩
    exact ⟨reach, hfinds.exists_demand⟩

end Setting

/-- A value that is present is found below the start. -/
def Finding.Below (start : Node) (finding : Finding) : Prop :=
  ∀ value, finding.value? = some value → Node.Below start finding.node

namespace Setting

open Instruction (Plain)

variable {setting : Setting} {finding next : Finding} {entry : Node} {levels : Nat}

theorem Finds.below (h : setting.Finds finding next) (hbelow : finding.Below entry) :
    next.Below entry := by
  intro value hvalue
  cases h with
  | through demand =>
    cases hvalue
    obtain ⟨_, _, _, hchild⟩ := suits_demand demand
    exact .step (hbelow value rfl) hchild
  | property demand => exact .step (hbelow _ rfl) (suits_demand demand).2
  | member _ _ requested => exact .step (hbelow _ rfl) (Node.child?_of_requested requested)
  | item demand => exact .step (hbelow _ rfl) (suits_demand demand).2
  | matched _ selected => exact (Matching.memberOf_of_selectMember selected).below (hbelow _ rfl)
  | anew => cases hvalue

/-- A run gives up where matching does, or where it is continued. -/
theorem fineAt_concludes (hbare : setting.resolvers.bound = []) (hsound : finding.Sound)
    (hplain : Plain finding.query)
    (hselect : ∀ value, finding.value? = some value →
      (Matching.selectMember setting.reach finding.node (some value) none).result =
        Matching.choose finding.node value (finding.node.conforming value))
    (hnext : ∀ next, setting.Finds finding next →
      setting.FineAt levels (fun error => ¬ error.Endless) next) :
    setting.FineAt (levels + 1) (fun error => ¬ error.Endless) finding := by
  refine meets_assemble hbare hplain hsound (fun _ _ => nofun) ?_ fun hfinds _ _ => hnext _ hfinds
  intro rest value error hdemand hvalue herror
  unfold compileMatched at herror
  rw [hselect value hvalue] at herror
  cases hchoose : Matching.choose finding.node value (finding.node.conforming value) with
  | ok member =>
    rw [hchoose] at herror
    have hrest : Plain rest := (meets_demand_fromQuery hplain).good_of hdemand
    exact ((meets_compile_fromQuery levels _ member hrest).fine_of herror).not_endless
  | error unmatched =>
    rw [hchoose] at herror
    cases herror
    rintro ⟨key, rfl⟩
    unfold Matching.choose at hchoose
    split at hchoose <;> cases hchoose

/-- With enough reach matching gives up nowhere in the run. -/
theorem eventually_fineAt (hbare : setting.resolvers.bound = []) (hscoped : entry.Scoped)
    (hanchored : ∀ node, Node.Below entry node → node.Anchored) (levels : Nat)
    (hsound : finding.Sound) (hplain : Plain finding.query) (hbelow : finding.Below entry) :
    ∀ᶠ reach in atTop, (setting.reaching reach).FineAt levels (fun error => ¬ error.Endless)
      finding := by
  induction levels generalizing finding with
  | zero => exact .of_forall fun _ => nofun
  | succ levels ih =>
    obtain ⟨candidates, hcandidates⟩ := exists_candidates setting finding
    -- every candidate has its own bound, and there are finitely many
    have hnext : ∀ᶠ reach in atTop, ∀ next ∈ candidates, (setting.reaching reach).Finds finding next →
        (setting.reaching reach).FineAt levels (fun error => ¬ error.Endless) next := by
      refine eventually_forall_mem fun next _ => ?_
      by_cases hfound : ∃ reach, (setting.reaching reach).Finds finding next
      · obtain ⟨_, hfinds⟩ := hfound
        exact (ih (hfinds.sound hplain hsound) (hfinds.plain hplain) (hfinds.below hbelow)).mono
          fun reach hfine _ => hfine
      · exact .of_forall fun reach hfinds => absurd ⟨reach, hfinds⟩ hfound
    have hselect : ∀ᶠ reach in atTop, ∀ value, finding.value? = some value →
        (Matching.selectMember reach finding.node (some value) none).result =
          Matching.choose finding.node value (finding.node.conforming value) := by
      cases hvalue : finding.value? with
      | none => exact .of_forall fun _ => nofun
      | some value =>
        refine (Matching.eventually_result_selectMember hscoped hanchored (hbelow value hvalue)
          value).mono ?_
        rintro reach hselect _ ⟨⟩
        exact hselect
    refine (hnext.and hselect).mono fun reach ⟨hnext, hselect⟩ => ?_
    have hbare : (setting.reaching reach).resolvers.bound = [] := hbare
    exact fineAt_concludes hbare hsound hplain hselect
      fun next hfinds => hnext next (hcandidates reach next hfinds) hfinds

end Setting

/-- Where a value fits the node that a plain query is compiled at, an engine without resolvers refuses no
value in a run that starts with it: the run fails for a fault, unless matching gives up. If no chain goes
on for ever below the entry that the node was reached from, it does not give up, once its reach is great
enough. -/
theorem Engine.agrees_with_matching {graph : Graph} {entry name : String}
    {configuration : Configuration} {engine : Engine} {start node : Node}
    (h : assemble graph entry [] [] configuration = .ok engine)
    (hstart : graph.root.child? (.entry name) = .ok start) (hplain : start.shape.parameters = [])
    (hnode : Node.Below start node) {value : Json} {reach : Nat}
    (hfits : (Matching.fits reach node value).result = .ok true) {query : List Json}
    (hquery : Instruction.Plain query) (levels : Nat) (optional : Bool) {context : Context}
    (hcontext : context.Holds (some value)) :
    (∀ inner error, (engine.setting.compile engine.operators levels optional node query).result =
        .ok inner → (inner.evaluate context).result = .error error →
      ¬ error.Mismatch ∧
        (engine.setting.Fault ⟨optional, node, query, some value⟩ error ∨ error.Endless)) ∧
      ((∀ chain : Nat → Node, Node.Below start (chain 0) →
          ∃ n, ¬ (chain n).HandsOn (chain (n + 1))) →
        ∃ enough, ∀ reach, enough ≤ reach → ∀ inner error,
          ((engine.setting.reaching reach).compile engine.operators levels optional node
            query).result = .ok inner → (inner.evaluate context).result = .error error →
          ¬ error.Mismatch ∧
            (engine.setting.reaching reach).Fault ⟨optional, node, query, some value⟩ error) := by
  have hscoped := Node.scoped_of_entry hstart hplain
  have hbare : engine.setting.resolvers.bound = [] := by
    rw [resolvers_of_assemble h]
    rfl
  have hconforms : node.Conforms value :=
    ((Matching.meets_fits_iff (hscoped.below hnode) reach value).good_of hfits).mp rfl
  have hsound : Finding.Sound ⟨optional, node, query, some value⟩ := by
    rintro _ ⟨⟩
    exact ⟨hscoped.below hnode, hconforms⟩
  rw [operators_of_assemble h]
  constructor
  · intro inner error hinner herror
    have hfine := (Setting.fineAt_fault hbare levels .refl hsound hquery hinner hcontext).fine_of herror
    refine ⟨?_, hfine⟩
    rcases hfine with hfault | ⟨_, rfl⟩
    · exact hfault.not_mismatch
    · exact id
  · intro hchains
    have hanchored (node : Node) (hnode : Node.Below start node) : node.Anchored :=
      Node.anchored_below hchains hnode
    obtain ⟨enough, henough⟩ := eventually_atTop.mp
      (Setting.eventually_fineAt hbare hscoped hanchored levels hsound hquery fun _ _ => hnode)
    refine ⟨enough, fun reach hreach inner error hinner herror => ?_⟩
    have hbare : (engine.setting.reaching reach).resolvers.bound = [] := hbare
    have hfine := (Setting.fineAt_fault hbare levels .refl hsound hquery hinner hcontext).fine_of herror
    have hfault := hfine.resolve_right ((henough reach hreach hinner hcontext).fine_of herror)
    exact ⟨hfault.not_mismatch, hfault⟩

namespace Parcel

def engine : Engine :=
  ⟨{ graph, entry := "Parcel", resolvers := .bind [], execution := {}, reach := defaultReach },
    Operator.builtin⟩

theorem assemble_eq_engine : Engine.assemble graph "Parcel" [] [] {} = .ok engine := rfl

/-- Only tubes have a radius. -/
def query : List Json := [.string "radius"]

theorem plain_query : Instruction.Plain query := by
  have lacks (kind : String) : Instruction.Lacks kind query := by
    intro part hpart
    cases hpart with
    | whole => exact nofun
    | inside hchild hpart =>
      cases List.mem_singleton.mp hchild
      cases hpart with
      | whole => exact nofun
      | inside hchild => cases hchild
  exact ⟨lacks "call", lacks "as"⟩

/-- The box refuses what is asked of the parcel. -/
theorem fault_of_query :
    ∃ inner, (engine.setting.compile engine.operators 2 false union query).result = .ok inner ∧
      (inner.evaluate (Context.empty.setValue (some given))).result =
        .error (.unknownProperty "Parcel.0" "radius") ∧
      engine.setting.Fault ⟨false, union, query, some given⟩
        (.unknownProperty "Parcel.0" "radius") := by
  refine ⟨_, rfl, rfl, ?_⟩
  have hstart : graph.root.child? (.entry "Parcel") = .ok union := rfl
  have hfits : (Matching.fits 8 union given).result = .ok true := rfl
  have hcontext : (Context.empty.setValue (some given)).Holds (some given) :=
    ⟨List.forall_mem_singleton.mpr ⟨nofun, nofun⟩, rfl⟩
  obtain ⟨_, hfault⟩ := (Engine.agrees_with_matching assemble_eq_engine hstart rfl .start hfits
    plain_query 2 false hcontext).1 _ _ rfl rfl
  exact hfault.resolve_right nofun

end Parcel

/-! ### An entry with parameters -/

namespace Chest

def note : Structure := .object ⟨5, "Item.note.0"⟩ none []
  [⟨"text", .primitive ⟨6, "Item.note.0.text"⟩ .string, false⟩]

def item : Structure := .object ⟨3, "Item"⟩ none [] [⟨"note", .union ⟨4, "Item.note"⟩ [note], false⟩]

/-- What is in a chest is left open. -/
def chest : Structure := .object ⟨0, "Chest"⟩ (some "Chest") ["T"]
  [⟨"label", .ref ⟨1, "Chest.label"⟩ "Item" [], false⟩,
    ⟨"content", .ref ⟨2, "Chest.content"⟩ "T" [], false⟩]

def graph : Graph := ⟨0, ⟨[("Chest", chest), ("Item", item)], by decide, by rfl⟩⟩

def engine : Engine :=
  ⟨{ graph, entry := "Chest", resolvers := .bind [], execution := {}, reach := defaultReach },
    Operator.builtin⟩

def start : Node := .child graph.root (.entry "Item") (.declared item [])

def given : Json := .object [("note", .object [("text", .string "fragile")])]

/-- Beyond the union the query asks for the content of a chest. -/
def query : List Json :=
  [.string "note", .string "text",
    .object [("kind", .string "path"), ("path", .array [.string "Chest", .string "content"])]]

/-- All that stands in the query. -/
def parts : List Json :=
  .array query :: query ++ [.string "path", .array [.string "Chest", .string "content"],
    .string "Chest", .string "content"]

theorem plain_query : Instruction.Plain query := by
  have hclosed : ∀ value ∈ parts, ∀ child ∈ value.children, child ∈ parts := by
    simp [parts, query, Json.children]
  have lacks {kind : String} (h : parts.all fun part => Instruction.kind? part != some kind) :
      Instruction.Lacks kind query := by
    intro part hpart
    simpa using List.all_eq_true.mp h part (Json.mem_of_part hclosed hpart List.mem_cons_self)
  exact ⟨lacks rfl, lacks rfl⟩

/-- The value fits, but where the query restarts the parameter of the entry stands for nothing, and that
comes out only once a member of the union is known: the run fails for none of the client's errors. -/
theorem internal_of_refused :
    Engine.assemble graph "Chest" [] [] {} = .ok engine ∧
      graph.root.child? (.entry "Item") = .ok start ∧ start.shape.parameters = [] ∧
      (Matching.fits 8 start given).result = .ok true ∧ Instruction.Plain query ∧
      (∃ inner, (engine.setting.compile engine.operators 16 false start query).result = .ok inner ∧
        (inner.evaluate (Context.empty.setValue (some given))).result =
          .error (.unresolvedReference "Chest.content" "T" "no such declaration")) ∧
      (Error.unresolvedReference "Chest.content" "T" "no such declaration").category = .internal :=
  ⟨rfl, rfl, rfl, rfl, plain_query, ⟨_, rfl, rfl⟩, rfl⟩

end Chest

end PathQuery
