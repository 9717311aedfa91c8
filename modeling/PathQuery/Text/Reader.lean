/-!
# Readers

A reader takes a value off the front of a text and leaves the rest, or fails.
-/

set_option autoImplicit false

namespace PathQuery

abbrev Reader (α : Type) := List Char → Option (α × List Char)

namespace Text

/-- The rest of the text after `word`. -/
def expect (word text : List Char) : Option (List Char) :=
  if word.isPrefixOf text then some (text.drop word.length) else none

/-- The value of a digit, of either case, in a radix of at most sixteen. -/
def digit? (radix : Nat) (c : Char) : Option Nat :=
  let value := if '0' ≤ c && c ≤ '9' then some (c.toNat - 48)
    else if 'a' ≤ c && c ≤ 'f' then some (c.toNat - 87)
    else if 'A' ≤ c && c ≤ 'F' then some (c.toNat - 55)
    else none
  value.filter (· < radix)

/-- The value of a text made of digits. -/
def numeral? (radix : Nat) (text : List Char) : Option Nat :=
  text.foldlM (fun n c => (digit? radix c).map fun d => n * radix + d) 0

/-- The value of the first `count` characters, all of them digits. -/
def digits (radix count : Nat) : Reader Nat := fun text =>
  if text.length < count then none
  else (numeral? radix (text.take count)).map fun value => (value, text.drop count)

end Text

end PathQuery
