import PathQuery.Proofs.Graph.Bisimulation
import PathQuery.Proofs.Query.Demand

/-!
# Demands of nodes that are alike

Where steps do not tell two nodes apart, a query demands the same of both, at nodes that are alike again
(`Demand.agree_demand`). Of the node itself a demand reads no more than its structure; the texts of
errors name its key and its kind.
-/

set_option autoImplicit false

namespace PathQuery

open Except (Agree)

/-! ## Texts -/

section Texts

variable {node node' : Node} (hkey : node'.key = node.key)

include hkey

theorem Operator.requireLast_eq (head : Json) (rest : List Json) :
    requireLast node' head rest = requireLast node head rest := by
  cases rest with
  | nil => rfl
  | cons next rest => simp only [requireLast, hkey]

theorem Excerpt.readPage_eq (maxSize : Option Nat) (head : Json) :
    readPage maxSize node' head = readPage maxSize node head := by
  simp only [readPage, hkey]

theorem Setting.absoluteQuery_eq (head : Json) (rest : List Json) :
    absoluteQuery node' head rest = absoluteQuery node head rest := by
  simp only [absoluteQuery, Operator.requireLast_eq hkey, hkey]

variable (hkind : node'.kind = node.kind)

include hkind

theorem Position.unexpected_eq (head : Json) : unexpected node' head = unexpected node head := by
  simp only [unexpected, hkey, hkind]

theorem Setting.excerptAt_eq (maxSize : Option Nat) (head : Json) :
    excerptAt maxSize node' head = excerptAt maxSize node head := by
  cases head <;>
    simp only [excerptAt, Excerpt.readPage_eq hkey, Position.unexpected_eq hkey hkind, hkey]

end Texts

theorem Node.requested_congr (node : Node) (head : Json)
    {properties properties' : List (Property Structure)}
    (hlack : ∀ name, Property.mayLack name properties' = Property.mayLack name properties)
    (field : String × Json) :
    node.requested head properties' field = node.requested head properties field := by
  obtain ⟨name, query⟩ := field
  cases query with
  | array query => simp only [requested, hlack]
  | _ => rfl

namespace Demand

/-! ## Demands that are alike -/

/-- The same demand, at nodes that are alike; of the properties of an object only their names and
flags are read. -/
inductive Alike (places : Node → Node → Prop) : Demand → Demand → Prop where
  | whole : Alike places whole whole
  | through {input : Option Json} {child child' : Node} {rest : List Json}
      (hchild : places child child') :
      Alike places (through input child rest) (through input child' rest)
  | property {name : String} {optional : Bool} {child child' : Node} {rest : List Json}
      (hchild : places child child') :
      Alike places (property name optional child rest) (property name optional child' rest)
  | members {head : Json} {properties properties' : List (Property Structure)}
      {requested : List (String × Json)}
      (hlack : ∀ name, Property.mayLack name properties' = Property.mayLack name properties) :
      Alike places (members head properties requested) (members head properties' requested)
  | items {excerpt : Excerpt} {item item' : Node} {rest : List Json} (hitem : places item item') :
      Alike places (items excerpt item rest) (items excerpt item' rest)
  | matched {query : List Json} : Alike places (matched query) (matched query)
  | anew {query : List Json} : Alike places (anew query) (anew query)

/-- The same query of a member, at nodes that are alike. -/
structure Requests (places : Node → Node → Prop) (request request' : Bool × Node × List Json) :
    Prop where
  optional : request'.1 = request.1
  node : places request.2.1 request'.2.1
  query : request'.2.2 = request.2.2

theorem alike_self {places : Node → Node → Prop} (hplaces : ∀ node, places node node)
    (demand : Demand) : demand.Alike places demand := by
  cases demand with
  | whole => exact .whole
  | through => exact .through (hplaces _)
  | property => exact .property (hplaces _)
  | members => exact .members fun _ => rfl
  | items => exact .items (hplaces _)
  | matched => exact .matched
  | anew => exact .anew

theorem Alike.imp {places places' : Node → Node → Prop} {demand demand' : Demand}
    (h : demand.Alike places demand') (himp : ∀ node node', places node node' → places' node node') :
    demand.Alike places' demand' := by
  cases h with
  | whole => exact .whole
  | through hchild => exact .through (himp _ _ hchild)
  | property hchild => exact .property (himp _ _ hchild)
  | members hlack => exact .members hlack
  | items hitem => exact .items (himp _ _ hitem)
  | matched => exact .matched
  | anew => exact .anew

/-! ## Where steps do not tell nodes apart -/

theorem mayLack_renumber (f : Nat → Nat) (name : String) (properties : List (Property Structure)) :
    Property.mayLack name (Structure.renumberProperties f properties) =
      Property.mayLack name properties := by
  rw [Property.mayLack, Property.mayLack, Structure.find?_renumberProperties]
  cases Property.find? name properties <;> rfl

variable {f : Nat → Nat} {alike : Node → Node → Prop} (bisimulation : Node.Bisimulation f alike)
  {node node' : Node} (h : alike node node')

include bisimulation h

theorem agree_requested (head : Json) {properties properties' : List (Property Structure)}
    (hlack : ∀ name, Property.mayLack name properties' = Property.mayLack name properties)
    (field : String × Json) :
    Agree (Requests alike) (node.requested head properties field)
      (node'.requested head properties' field) := by
  rw [node'.requested_congr head hlack]
  obtain ⟨name, query⟩ := field
  unfold Node.requested
  rw [bisimulation.key_eq h]
  split
  · exact (bisimulation.child h _).map fun child child' hchild => ⟨rfl, hchild, rfl⟩
  · exact .error _

theorem agree_throughStep (step : Step) (rest : List Json) :
    Agree (Alike alike) ((node.child? step).map fun child => through none child rest)
      ((node'.child? step).map fun child => through none child rest) :=
  (bisimulation.child h step).map fun _ _ hchild => .through hchild

theorem agree_demandAtObject (properties : List (Property Structure)) (query : List Json) :
    Agree (Alike alike) (Setting.demandAtObject node properties query)
      (Setting.demandAtObject node' (Structure.renumberProperties f properties) query) := by
  have hkey := bisimulation.key_eq h
  cases query with
  | nil => exact .ok .whole
  | cons head rest =>
    simp only [Setting.demandAtObject, Operator.requireLast_eq hkey,
      Position.unexpected_eq hkey (bisimulation.kind_eq h), hkey, mayLack_renumber]
    split
    · refine (Agree.eq_self _).bind fun _ _ _ => ?_
      split
      · exact .ok (.members fun name => mayLack_renumber f name properties)
      · exact .error _
    · split
      · exact (bisimulation.child h _).map fun _ _ hchild => .property hchild
      · exact .error _

theorem agree_demandAtLeaf (query : List Json) :
    Agree (Alike alike) (Setting.demandAtLeaf node query) (Setting.demandAtLeaf node' query) := by
  cases query with
  | nil => exact .ok .whole
  | cons head rest =>
    rw [Setting.demandAtLeaf, Setting.demandAtLeaf, bisimulation.key_eq h, bisimulation.kind_eq h]
    exact .error _

/-- Settings that read queries in the same way, whatever their graphs and resolvers. -/
structure ReadAlike (setting setting' : Setting) : Prop where
  entry : setting'.entry = setting.entry
  reach : setting'.reach = setting.reach
  execution : setting'.execution = setting.execution

variable {setting setting' : Setting} (hsettings : ReadAlike setting setting')

include hsettings

theorem agree_demandAtRoot (query : List Json) :
    Agree (Alike alike) (setting.demandAtRoot node query) (setting'.demandAtRoot node' query) := by
  cases query with
  | nil =>
    rw [Setting.demandAtRoot, Setting.demandAtRoot, hsettings.entry]
    exact .error _
  | cons head rest =>
    simp only [Setting.demandAtRoot, hsettings.entry]
    split
    · exact agree_throughStep bisimulation h _ rest
    · exact .error _

theorem agree_demandAtList (query : List Json) :
    Agree (Alike alike) (setting.demandAtList node query) (setting'.demandAtList node' query) := by
  cases query with
  | nil => exact (bisimulation.child h .items).map fun _ _ hitem => .items hitem
  | cons head rest =>
    simp only [Setting.demandAtList, hsettings.execution,
      Setting.excerptAt_eq (bisimulation.key_eq h) (bisimulation.kind_eq h)]
    refine (Agree.eq_self _).bind ?_
    rintro excerpt _ rfl
    exact (bisimulation.child h .items).bind fun _ _ hitem => .ok (.items hitem)

theorem agree_demandAtFunction (query : List Json) :
    Agree (Alike alike) (setting.demandAtFunction node query)
      (setting'.demandAtFunction node' query) := by
  cases query with
  | nil =>
    rw [Setting.demandAtFunction, Setting.demandAtFunction, bisimulation.key_eq h]
    exact .error _
  | cons head rest =>
    simp only [Setting.demandAtFunction, hsettings.reach, bisimulation.key_eq h,
      Matching.result_checkCall_eq bisimulation h]
    split
    · refine (Agree.eq_self _).bind fun _ _ _ => ?_
      exact (bisimulation.child h .returns).bind fun _ _ hreturned => .ok (.through hreturned)
    · exact .error _

theorem agree_demandAtUnion (query : List Json) :
    Agree (Alike alike) (setting.demandAtUnion node query) (setting'.demandAtUnion node' query) := by
  cases query with
  | nil => exact .ok .matched
  | cons head rest =>
    simp only [Setting.demandAtUnion, hsettings.reach, bisimulation.key_eq h]
    split
    · split
      · exact (Matching.agree_selectMember bisimulation h _ none _).map
          fun _ _ hmember => .through hmember
      · exact .error _
    · exact .ok .matched

theorem agree_demandByStructure (query : List Json) :
    Agree (Alike alike) (setting.demandByStructure node query)
      (setting'.demandByStructure node' query) := by
  unfold Setting.demandByStructure
  rw [bisimulation.shape h]
  cases node.shape with
  | root => exact agree_demandAtRoot bisimulation h hsettings query
  | ref => exact agree_throughStep bisimulation h .target query
  | typeAlias => exact agree_throughStep bisimulation h .body query
  | nullable => exact agree_throughStep bisimulation h .inner query
  | object label name parameters properties =>
    exact agree_demandAtObject bisimulation h properties query
  | array => exact agree_demandAtList bisimulation h hsettings query
  | function => exact agree_demandAtFunction bisimulation h hsettings query
  | union => exact agree_demandAtUnion bisimulation h hsettings query
  | primitive | literal => exact agree_demandAtLeaf bisimulation h query
  | arguments =>
    dsimp only [Structure.renumber]
    rw [bisimulation.key_eq h]
    exact .error _

theorem agree_demand (query : List Json) :
    Agree (Alike alike) (setting.demand node query) (setting'.demand node' query) := by
  have hby := agree_demandByStructure bisimulation h hsettings query
  cases query with
  | nil => exact hby
  | cons head rest =>
    simp only [Setting.demand, bisimulation.shape h, Structure.isWrapper_renumber,
      Setting.absoluteQuery_eq (bisimulation.key_eq h)]
    split
    · refine (Agree.eq_self _).map ?_
      rintro query _ rfl
      exact .anew
    · exact hby

end Demand

end PathQuery
