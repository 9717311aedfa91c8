import PathQuery.Query.Operator

/-!
# Excerpts of lists

What a query asks of a list: all items, one of them, or a page. A page of a list that is already
sliced is the whole list.
-/

set_option autoImplicit false

namespace PathQuery

inductive Excerpt where
  | all
  | first
  | nth (index : Nat)
  /-- The pages are counted from one. -/
  | page (number size : Nat)
deriving DecidableEq

namespace Excerpt

/-- The input that a query attaches to its list. -/
def input? : Excerpt → Option Json
  | page number size => some (.object [("page", .ofNat number), ("pageSize", .ofNat size)])
  | _ => none

def readPage (maxSize : Option Nat) (node : Node) (instruction : Json) : Except Error Excerpt := do
  let number ← Instruction.positive node.key instruction "page"
  let size ← Instruction.positive node.key instruction "pageSize"
  if let some max := maxSize then
    if max < size then
      throw (Instruction.invalid node.key instruction s!"'pageSize' may not exceed {max}")
  return .page number size

/-- The position of the item, where it is just one. -/
def single? : Excerpt → Option Nat
  | nth index => some index
  | first => some 0
  | _ => none

/-- Where a page begins. The product saturates at the greatest machine word, which no list is longer
than. -/
def offset (number size : Nat) (list : List Json) : Nat :=
  min ((number - 1) * size) (max (UInt64.size - 1) list.length)

/-- The items of the excerpt, each with its position in the list. -/
def items (excerpt : Excerpt) (sliced : Bool) (list : List Json) : List (Json × Nat) :=
  match excerpt with
  | page number size =>
    if sliced then list.zipIdx else (list.zipIdx.drop (offset number size list)).take size
  | _ => list.zipIdx

/-- Behind an offset that saturates there are no items. -/
theorem items_page (number size : Nat) (list : List Json) :
    (page number size).items false list =
      (list.zipIdx.drop ((number - 1) * size)).take size := by
  change (list.zipIdx.drop (offset number size list)).take size = _
  have hlength : list.zipIdx.length ≤ max (UInt64.size - 1) list.length := by
    rw [List.length_zipIdx]
    exact Nat.le_max_right _ _
  rcases Nat.le_total ((number - 1) * size) (max (UInt64.size - 1) list.length) with hoffset | hoffset
  · rw [offset, Nat.min_eq_left hoffset]
  · rw [offset, Nat.min_eq_right hoffset, List.drop_eq_nil_of_le hlength,
      List.drop_eq_nil_of_le (Nat.le_trans hlength hoffset)]

/-- Runs the query of one item, which sees its list and its position. -/
def runItem (inner : Middleware) (context : Context) (item : Json × Nat) : Run (Option Json) :=
  inner.evaluate ((context.push .index item.2).setValue (some item.1))

/-- The value of a list node: a single item, or null where there is none, or a list of items. -/
def run (excerpt : Excerpt) (parallel : Bool) (node : Node) (inner : Middleware) (context : Context)
    (value : Json) : Run (Option Json) :=
  match value with
  | .array list =>
    let inside := context.push .parent value
    match excerpt.single? with
    | some index =>
      match list[index]? with
      | some item => runItem inner inside (item, index)
      | none => return some .null
    | none => do
      let items := excerpt.items (context.isSliced node) list
      let values ← Run.all parallel (items.map (runItem inner inside))
      return some (.array (values.map fun value => value.getD .null))
  | other => return some other

end Excerpt

end PathQuery
