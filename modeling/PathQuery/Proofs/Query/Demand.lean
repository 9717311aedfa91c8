import PathQuery.Query.Compilation
import PathQuery.Proofs.Graph.Below

/-!
# What a query asks of a node

`Setting.demand` reads the head of a query at a node: what is asked for there, the nodes that come
next, and what is left of the query for them. It compiles nothing. A demand tells at what kind of
node it was made, and which steps lead to the nodes that come next (`Setting.suits_demand`).
-/

set_option autoImplicit false

namespace PathQuery

inductive Demand where
  /-- The settled value of the node. -/
  | whole
  /-- The value of the node behind this one; a call attaches its arguments. -/
  | through (input : Option Json) (child : Node) (rest : List Json)
  /-- One property of an object, and whether it may stay undefined. -/
  | property (name : String) (optional : Bool) (child : Node) (rest : List Json)
  /-- The members of an object that an instruction requests. -/
  | members (head : Json) (properties : List (Property Structure))
      (requested : List (String × Json))
  /-- Items of a list. -/
  | items (excerpt : Excerpt) (item : Node) (rest : List Json)
  /-- The union member that the value turns out to be. -/
  | matched (query : List Json)
  /-- The answer to a query from the root; the node itself is left out. -/
  | anew (query : List Json)

/-- Whether an object lets a property stay undefined. -/
def Property.mayLack (name : String) (properties : List (Property Structure)) : Bool :=
  ((Property.find? name properties).map Property.optional).getD false

/-- A member that is requested of an object: its flag, its node, and its own query. -/
def Node.requested (node : Node) (head : Json) (properties : List (Property Structure)) :
    String × Json → Except Error (Bool × Node × List Json)
  | (name, .array query) =>
    (node.child? (.field name)).map fun child => (Property.mayLack name properties, child, query)
  | (name, _) => .error (Instruction.invalid node.key head s!"the query for '{name}' must be a list")

namespace Setting

/-- The query that a `path` instruction asks of the root. -/
def absoluteQuery (node : Node) (head : Json) (rest : List Json) : Except Error (List Json) := do
  Operator.requireLast node head rest
  let path ← match ← Instruction.instructions? node.key head "path" with
    | some path => .ok path
    | none => .error (Instruction.invalid node.key head "'path' is required")
  let query ← Instruction.instructions? node.key head "query"
  return path ++ query.getD []

def demandAtRoot (setting : Setting) (node : Node) : List Json → Except Error Demand
  | [] => .error (.invalidEntry setting.entry "[]")
  | head :: rest =>
    if head.string? = some setting.entry then
      (node.child? (.entry setting.entry)).map fun child => .through none child rest
    else .error (.invalidEntry setting.entry head.text)

def demandAtObject (node : Node) (properties : List (Property Structure)) :
    List Json → Except Error Demand
  | [] => .ok .whole
  | head :: rest =>
    if Instruction.kind? head = some "select" then do
      Operator.requireLast node head rest
      match head.member? "fields" with
      | some (.object requested) => return .members head properties requested
      | _ => .error (Instruction.invalid node.key head
          "'fields' must map property names to queries")
    else
      match head with
      | .string name => (node.child? (.field name)).map fun child =>
          .property name (Property.mayLack name properties) child rest
      | _ => .error (Position.unexpected node head)

/-- What the head of a query asks of a list, with pages up to the greatest size. -/
def excerptAt (maxSize : Option Nat) (node : Node) : Json → Except Error Excerpt
  | .number value =>
    match value.unsigned? with
    | some index => .ok (.nth index)
    | none => .error (Instruction.invalid node.key (.number value)
        "list indexes must be non negative integers")
  | head =>
    match Instruction.kind? head with
    | some "all" => .ok .all
    | some "first" => .ok .first
    | some "paginate" => Excerpt.readPage maxSize node head
    | _ => .error (Position.unexpected node head)

def demandAtList (setting : Setting) (node : Node) : List Json → Except Error Demand
  | [] => (node.child? .items).map fun item => .items .all item []
  | head :: rest => do
    let excerpt ← excerptAt setting.execution.maxPageSize node head
    let item ← node.child? .items
    return .items excerpt item rest

def demandAtFunction (setting : Setting) (node : Node) : List Json → Except Error Demand
  | [] => .error (.invalidQuery node.key "[]" "functions must be called")
  | head :: rest =>
    if Instruction.kind? head = some "call" then do
      let given := (head.member? "args").getD (.object [])
      (Matching.checkCall setting.reach node given).result
      let returned ← node.child? .returns
      return .through (some given) returned rest
    else .error (Instruction.invalid node.key head "functions must be called before anything else")

def demandAtUnion (setting : Setting) (node : Node) : List Json → Except Error Demand
  | [] => .ok (.matched [])
  | head :: rest =>
    if Instruction.kind? head = some "as" then
      match (head.member? "type").bind Json.string? with
      | some hint =>
        (Matching.selectMember setting.reach node none (some hint)).result.map fun member =>
          .through none member rest
      | none => .error (Instruction.invalid node.key head
          "'type' must name a member of the union")
    else .ok (.matched (head :: rest))

def demandAtLeaf (node : Node) : List Json → Except Error Demand
  | [] => .ok .whole
  | head :: _ => .error (Instruction.invalid node.key head
      s!"'{node.kind.name}' values take no further instructions")

def demandByStructure (setting : Setting) (node : Node) (query : List Json) :
    Except Error Demand :=
  match node.shape with
  | .root _ => setting.demandAtRoot node query
  | .ref .. => (node.child? .target).map fun child => .through none child query
  | .typeAlias .. => (node.child? .body).map fun child => .through none child query
  | .nullable .. => (node.child? .inner).map fun child => .through none child query
  | .object _ _ _ properties => demandAtObject node properties query
  | .array .. => setting.demandAtList node query
  | .function .. => setting.demandAtFunction node query
  | .union .. => setting.demandAtUnion node query
  | .primitive .. | .literal .. => demandAtLeaf node query
  | .arguments .. => .error (Instruction.invalid node.key (.array query)
      "argument lists are not queried directly, use 'call'")

/-- What a query asks of a node. Wrappers pass every query on; anywhere else a `path` instruction
leaves the node. -/
def demand (setting : Setting) (node : Node) (query : List Json) : Except Error Demand :=
  match query with
  | head :: rest =>
    if node.shape.isWrapper = false ∧ Instruction.kind? head = some "path" then
      (absoluteQuery node head rest).map .anew
    else setting.demandByStructure node query
  | [] => setting.demandByStructure node query

end Setting

/-- The same setting without anything registered on the nodes. -/
def Setting.withoutResolvers (setting : Setting) : Setting :=
  { setting with resolvers := ⟨[]⟩ }

/-- Resolvers have no say in what a query asks. -/
theorem Setting.demand_withoutResolvers (setting : Setting) (node : Node) (query : List Json) :
    setting.withoutResolvers.demand node query = setting.demand node query := rfl

/-! ## Where demands arise -/

/-- What a demand tells of the node that it was made of: its kind, and the steps to the nodes that
come next. -/
def Demand.Suits (node : Node) : Demand → Prop
  | whole => node.kind = .object ∨ node.kind = .primitive ∨ node.kind = .literal
  | through _ child _ =>
    node.kind ≠ .object ∧ node.kind ≠ .array ∧ ∃ step, node.child? step = .ok child
  | property name _ child _ => node.kind = .object ∧ node.child? (.field name) = .ok child
  | members .. => node.kind = .object
  | items _ item _ => node.kind = .array ∧ node.child? .items = .ok item
  | matched _ => node.kind = .union
  | anew _ => node.shape.isWrapper = false

theorem Node.child?_of_requested {node child : Node} {head : Json}
    {properties : List (Property Structure)} {field : String × Json} {optional : Bool}
    {query : List Json}
    (h : node.requested head properties field = .ok (optional, child, query)) :
    node.child? (.field field.1) = .ok child := by
  obtain ⟨name, request⟩ := field
  cases request with
  | array _ =>
    obtain ⟨found, hfound, h⟩ := Except.map_eq_ok_iff.mp h
    cases h
    exact hfound
  | _ => cases h

namespace Setting

variable {setting : Setting} {node : Node} {query : List Json} {demand : Demand}

theorem suits_throughStep {step : Step} {rest : List Json} (hobject : node.kind ≠ .object)
    (harray : node.kind ≠ .array)
    (h : ((node.child? step).map fun child => Demand.through none child rest) = .ok demand) :
    demand.Suits node := by
  obtain ⟨child, hchild, rfl⟩ := Except.map_eq_ok_iff.mp h
  exact ⟨hobject, harray, step, hchild⟩

theorem suits_demandAtRoot (hobject : node.kind ≠ .object) (harray : node.kind ≠ .array)
    (h : setting.demandAtRoot node query = .ok demand) : demand.Suits node := by
  cases query with
  | nil => cases h
  | cons head rest =>
    simp only [demandAtRoot] at h
    split at h
    · exact suits_throughStep hobject harray h
    · cases h

theorem suits_demandAtObject {properties : List (Property Structure)} (hk : node.kind = .object)
    (h : demandAtObject node properties query = .ok demand) : demand.Suits node := by
  cases query with
  | nil =>
    cases h
    exact .inl hk
  | cons head rest =>
    simp only [demandAtObject] at h
    split at h
    · obtain ⟨_, _, h⟩ := Except.bind_eq_ok_iff.mp h
      split at h
      · cases h
        exact hk
      · cases h
    · split at h
      · obtain ⟨child, hchild, rfl⟩ := Except.map_eq_ok_iff.mp h
        exact ⟨hk, hchild⟩
      · cases h

theorem suits_demandAtList (hk : node.kind = .array)
    (h : setting.demandAtList node query = .ok demand) : demand.Suits node := by
  cases query with
  | nil =>
    obtain ⟨item, hitem, rfl⟩ := Except.map_eq_ok_iff.mp h
    exact ⟨hk, hitem⟩
  | cons head rest =>
    obtain ⟨excerpt, _, h⟩ := Except.bind_eq_ok_iff.mp h
    obtain ⟨item, hitem, h⟩ := Except.bind_eq_ok_iff.mp h
    cases h
    exact ⟨hk, hitem⟩

theorem suits_demandAtFunction (hobject : node.kind ≠ .object) (harray : node.kind ≠ .array)
    (h : setting.demandAtFunction node query = .ok demand) : demand.Suits node := by
  cases query with
  | nil => cases h
  | cons head rest =>
    simp only [demandAtFunction] at h
    split at h
    · obtain ⟨_, _, h⟩ := Except.bind_eq_ok_iff.mp h
      obtain ⟨returned, hreturned, h⟩ := Except.bind_eq_ok_iff.mp h
      cases h
      exact ⟨hobject, harray, .returns, hreturned⟩
    · cases h

theorem suits_demandAtUnion (hk : node.kind = .union)
    (h : setting.demandAtUnion node query = .ok demand) : demand.Suits node := by
  cases query with
  | nil =>
    cases h
    exact hk
  | cons head rest =>
    simp only [demandAtUnion] at h
    split at h
    · split at h
      · obtain ⟨member, hmember, rfl⟩ := Except.map_eq_ok_iff.mp h
        obtain ⟨index, hindex⟩ := Matching.memberOf_of_selectMember hmember
        exact ⟨by simp [hk], by simp [hk], .member index, hindex⟩
      · cases h
    · cases h
      exact hk

theorem suits_demandAtLeaf (hk : node.kind = .primitive ∨ node.kind = .literal)
    (h : demandAtLeaf node query = .ok demand) : demand.Suits node := by
  cases query with
  | nil =>
    cases h
    exact .inr hk
  | cons head rest => cases h

theorem suits_demandByStructure (h : setting.demandByStructure node query = .ok demand) :
    demand.Suits node := by
  have hk : node.kind = node.shape.kind := rfl
  unfold demandByStructure at h
  cases hs : node.shape <;> rw [hs] at h hk
  case root => exact suits_demandAtRoot (by simp [hk, Structure.kind]) (by simp [hk, Structure.kind]) h
  case ref | typeAlias | nullable =>
    exact suits_throughStep (by simp [hk, Structure.kind]) (by simp [hk, Structure.kind]) h
  case object => exact suits_demandAtObject hk h
  case array => exact suits_demandAtList hk h
  case function =>
    exact suits_demandAtFunction (by simp [hk, Structure.kind]) (by simp [hk, Structure.kind]) h
  case union => exact suits_demandAtUnion hk h
  case primitive => exact suits_demandAtLeaf (.inl hk) h
  case literal => exact suits_demandAtLeaf (.inr hk) h
  case arguments => cases h

theorem suits_demand (h : setting.demand node query = .ok demand) : demand.Suits node := by
  cases query with
  | nil => exact suits_demandByStructure h
  | cons head rest =>
    simp only [Setting.demand] at h
    split at h
    · next hw =>
      obtain ⟨_, _, rfl⟩ := Except.map_eq_ok_iff.mp h
      exact hw.1
    · exact suits_demandByStructure h

end Setting

end PathQuery
