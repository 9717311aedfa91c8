import PathQuery.Proofs.Marks.Passages

/-!
# Runs along passages

A query in which no `path` instruction stands does not start again at the root. Engines whose
middlewares are hooks answer it along passages: which values are filled and which lists are left as they
are depends on the nodes of one passage and on nothing outside of it (`Engine.run_eq_runAlong`).
-/

set_option autoImplicit false

namespace PathQuery

open HookedResolver (resolver hooksAt Fills)
open Instruction (Lacks)

/-! ## Queries that lack an instruction -/

/-- What a demand leaves for the nodes that come next stands in the query. -/
def Demand.Leaves (query : List Json) : Demand → Prop
  | through _ _ rest | property _ _ _ rest | items _ _ rest | matched rest => rest <:+ query
  | members head _ requested => head ∈ query ∧ head.member? "fields" = some (.object requested)
  | anew _ => ∃ head ∈ query, Instruction.kind? head = some "path"
  | whole => True

namespace Setting

variable {setting : Setting} {node : Node} {query : List Json} {demand : Demand}

theorem leaves_through {input : Option Json} {step : Step} {rest : List Json} (hrest : rest <:+ query)
    (h : ((node.child? step).map fun child => Demand.through input child rest) = .ok demand) :
    demand.Leaves query := by
  obtain ⟨child, _, rfl⟩ := Except.map_eq_ok_iff.mp h
  exact hrest

theorem leaves_demandAtObject {properties : List (Property Structure)}
    (h : demandAtObject node properties query = .ok demand) : demand.Leaves query := by
  cases query with
  | nil =>
    cases h
    trivial
  | cons head rest =>
    simp only [demandAtObject] at h
    split at h
    · obtain ⟨_, _, h⟩ := Except.bind_eq_ok_iff.mp h
      split at h
      · next hfields =>
        cases h
        exact ⟨List.mem_cons_self, hfields⟩
      · cases h
    · split at h
      · obtain ⟨child, _, rfl⟩ := Except.map_eq_ok_iff.mp h
        exact List.suffix_cons _ _
      · cases h

theorem leaves_demandAtList (h : setting.demandAtList node query = .ok demand) :
    demand.Leaves query := by
  cases query with
  | nil =>
    obtain ⟨item, _, rfl⟩ := Except.map_eq_ok_iff.mp h
    exact List.suffix_rfl
  | cons head rest =>
    obtain ⟨excerpt, _, h⟩ := Except.bind_eq_ok_iff.mp h
    obtain ⟨item, _, h⟩ := Except.bind_eq_ok_iff.mp h
    cases h
    exact List.suffix_cons _ _

theorem leaves_demandAtFunction (h : setting.demandAtFunction node query = .ok demand) :
    demand.Leaves query := by
  cases query with
  | nil => cases h
  | cons head rest =>
    simp only [demandAtFunction] at h
    split at h
    · obtain ⟨_, _, h⟩ := Except.bind_eq_ok_iff.mp h
      obtain ⟨returned, _, h⟩ := Except.bind_eq_ok_iff.mp h
      cases h
      exact List.suffix_cons _ _
    · cases h

theorem leaves_demandAtUnion (h : setting.demandAtUnion node query = .ok demand) :
    demand.Leaves query := by
  cases query with
  | nil =>
    cases h
    exact List.suffix_rfl
  | cons head rest =>
    simp only [demandAtUnion] at h
    split at h
    · split at h
      · obtain ⟨member, _, rfl⟩ := Except.map_eq_ok_iff.mp h
        exact List.suffix_cons _ _
      · cases h
    · cases h
      exact List.suffix_rfl

theorem leaves_demandByStructure (h : setting.demandByStructure node query = .ok demand) :
    demand.Leaves query := by
  unfold demandByStructure at h
  split at h
  · cases query with
    | nil => cases h
    | cons head rest =>
      simp only [demandAtRoot] at h
      split at h
      · exact leaves_through (List.suffix_cons _ _) h
      · cases h
  · exact leaves_through List.suffix_rfl h
  · exact leaves_through List.suffix_rfl h
  · exact leaves_through List.suffix_rfl h
  · exact leaves_demandAtObject h
  · exact leaves_demandAtList h
  · exact leaves_demandAtFunction h
  · exact leaves_demandAtUnion h
  · cases query <;> cases h
    trivial
  · cases query <;> cases h
    trivial
  · cases h

theorem leaves_demand (h : setting.demand node query = .ok demand) : demand.Leaves query := by
  cases query with
  | nil => exact leaves_demandByStructure h
  | cons head rest =>
    simp only [Setting.demand] at h
    split at h
    · next hpath =>
      obtain ⟨_, _, rfl⟩ := Except.map_eq_ok_iff.mp h
      exact ⟨head, List.mem_cons_self, hpath.2⟩
    · exact leaves_demandByStructure h

/-- What is nowhere in a query is nowhere in what it leaves. -/
theorem lacks_of_leads {kind : String} {next : Place} (h : Lacks kind query)
    (hdemand : setting.demand node query = .ok demand) (hleads : demand.Leads setting node next) :
    Lacks kind next.query := by
  have hleaves := leaves_demand hdemand
  have hsuffix {rest : List Json} (hrest : rest <:+ query) : Lacks kind rest :=
    h.of_items fun item hitem => Json.part_of_mem (hrest.subset hitem)
  cases hleads with
  | through | property | item | matched => exact hsuffix hleaves
  | @member head _ requested field _ _ inner hfield hchild =>
    obtain ⟨hhead, hrequested⟩ := hleaves
    obtain ⟨name, value⟩ := field
    cases value with
    | array =>
      obtain ⟨_, _, heq⟩ := Except.map_eq_ok_iff.mp hchild
      cases heq
      refine h.of_items fun item hitem => ?_
      have hinner : item.Part (.object requested) :=
        .inside (List.mem_map.mpr ⟨_, hfield, rfl⟩) (Json.part_of_mem hitem)
      exact (hinner.trans (Json.part_of_member? hrequested)).trans (Json.part_of_mem hhead)
    | _ => cases hchild

/-- Only a `path` instruction starts again at the root. -/
theorem straight_of_lacks (h : Lacks "path" query) (node : Node) : setting.Straight ⟨node, query⟩ := by
  intro place hasked rest hdemand
  have hlacks : Lacks "path" place.query := by
    clear hdemand
    induction hasked with
    | start => exact h
    | leads _ hdemand hleads ih => exact lacks_of_leads ih hdemand hleads
  obtain ⟨head, hhead, hkind⟩ := leaves_demand hdemand
  exact hlacks head (Json.part_of_mem hhead) hkind

end Setting

/-! ## Engines -/

theorem Passage.fills_hooksAt_iff {resolvers : List HookedResolver} {passage : Passage} :
    passage.fills (hooksAt resolvers) = true ↔ ∃ node ∈ passage.nodes, Fills resolvers node := by
  simp only [fills, List.any_eq_true, ← HookedResolver.any_isFill_hooksAt]

/-- An undefined value of an object or a list is replaced by an empty one just if it is filled. -/
theorem Node.settle_none_iff {node : Node} (h : node.kind = .object ∨ node.kind = .array)
    (fills optional : Bool) :
    node.settle fills optional none = .ok (Descent.emptyValue? node.shape) ↔ fills = true := by
  have hkind : node.kind = node.shape.kind := rfl
  unfold settle Descent.checkShape Descent.expected?
  generalize node.shape = shape at hkind
  rw [hkind] at h
  cases shape with
  | object | array =>
    cases fills with
    | true => exact iff_of_true rfl rfl
    | false => cases optional <;> exact iff_of_false nofun nofun
  | _ => rcases h with h | h <;> cases h

namespace Album

/-- The tags of an album are declared elsewhere: a list, or null. -/
def entries : Declarations :=
  [("Album", .object ⟨0, "Album"⟩ (some "Album") [] [
      ⟨"tags", .ref ⟨1, "Album.tags"⟩ "Tags" [], false⟩]),
    ("Tags", .typeAlias ⟨2, "Tags"⟩ "Tags" []
      (.nullable ⟨3, "Tags.body"⟩ (.array ⟨4, "Tags.list"⟩ (.primitive ⟨5, "Tags.items"⟩ .string))))]

def graph : Graph := ⟨0, ⟨entries, by decide, by rfl⟩⟩

def declared (name : String) : Node :=
  .child graph.root (.entry name) (.declared ((graph.schema.entry? name).getD graph.schema.root) [])

def tags : Node :=
  .child (declared "Album") (.field "tags") (.nested [] (.ref ⟨1, "Album.tags"⟩ "Tags" []))

def list : Json := .array [.string "a", .string "b"]

def album : Hook := .relay fun _ =>
  return ([.push .value (by decide) (some (.object [])) none], id)

/-- Sets the list that the host has at hand, if any, as one that is sliced. -/
def page : Hook := .relay fun context =>
  return (((context.get? (.host "page")).map Addition.sliced).toList, id)

/-- Neither the list nor the nullable has a hook of its own. -/
def resolvers : List HookedResolver :=
  [⟨declared "Album", [album]⟩, ⟨tags, [page]⟩, ⟨declared "Tags", [.fillEmpty]⟩]

def engine : Engine :=
  ⟨{ graph, entry := "Album", resolvers := .bind (resolvers.map resolver), execution := {},
     reach := defaultReach }, Operator.builtin⟩

theorem assemble_eq_engine :
    Engine.assemble graph "Album" (resolvers.map resolver) [] {} = .ok engine := rfl

def query : List Json :=
  [.string "Album", .string "tags",
    .object [("kind", .string "paginate"), ("page", .ofNat 1), ("pageSize", .ofNat 1)]]

theorem lacks_path : Lacks "path" query := by
  intro part hpart
  have scalar {value : Json} (h : part.Part value) (hvalue : value.children = []) : part = value := by
    cases h with
    | whole => rfl
    | inside hchild =>
      rw [hvalue] at hchild
      cases hchild
  cases hpart with
  | whole => decide
  | inside hchild hpart =>
    simp only [query, Json.children, List.mem_cons, List.not_mem_nil, or_false] at hchild
    rcases hchild with rfl | rfl | rfl
    · cases scalar hpart rfl
      decide
    · cases scalar hpart rfl
      decide
    · cases hpart with
      | whole => decide
      | inside hchild hpart =>
        simp only [Json.children, List.map_cons, List.map_nil, List.mem_cons, List.not_mem_nil,
          or_false] at hchild
        rcases hchild with rfl | rfl | rfl
        · cases scalar hpart rfl
          decide
        · cases scalar hpart rfl
          decide
        · cases scalar hpart rfl
          decide

end Album

end PathQuery
