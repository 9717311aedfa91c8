/-!
# JSON values

Integers and floating point numbers are separate sorts, and an object is the list of its members
in the order in which they were written. Two values are equal (`==`) when they agree up to the
order of object members; a floating point zero equals its negative.
-/

set_option autoImplicit false

namespace PathQuery

/-- A JSON number: an integer, or a finite binary64 number given by its bits. -/
inductive Number where
  | int (value : Int)
  | float (bits : UInt64)
deriving DecidableEq, Inhabited

namespace Number

/-- Both signs of zero have no bit set below the sign. -/
def isZeroBits (bits : UInt64) : Bool :=
  bits &&& 0x7FFFFFFFFFFFFFFF == 0

/-- Equality within one sort; an integer never equals a floating point number. -/
def equals : Number → Number → Bool
  | .int a, .int b => a == b
  | .float a, .float b => a == b || (isZeroBits a && isZeroBits b)
  | _, _ => false

instance : BEq Number := ⟨equals⟩

/-- The value of an integer that is not negative. -/
def unsigned? : Number → Option Nat
  | .int (.ofNat n) => some n
  | _ => none

end Number

/-- A JSON value. Object members keep their order; no name stands twice in a value that was read. -/
inductive Json where
  | null
  | bool (value : Bool)
  | number (value : Number)
  | string (value : String)
  | array (items : List Json)
  | object (members : List (String × Json))
deriving Inhabited

namespace Json

mutual

/-- Equality of values, blind to the order of object members. -/
def equals : Json → Json → Bool
  | .null, .null => true
  | .bool a, .bool b => a == b
  | .number a, .number b => a == b
  | .string a, .string b => a == b
  | .array as, .array bs => equalsItems as bs
  | .object as, .object bs => as.length == bs.length && equalsMembers as bs
  | _, _ => false

def equalsItems : List Json → List Json → Bool
  | [], [] => true
  | a :: as, b :: bs => equals a b && equalsItems as bs
  | _, _ => false

/-- Every member of the first list has an equal member of that name in the second. -/
def equalsMembers : List (String × Json) → List (String × Json) → Bool
  | [], _ => true
  | (name, a) :: as, bs =>
    (match bs.lookup name with
      | some b => equals a b
      | none => false) && equalsMembers as bs

end

instance : BEq Json := ⟨equals⟩

/-! ## Identity

Two values are the same value only if they also list their members in the same order.
-/

mutual

def identical : Json → Json → Bool
  | .null, .null => true
  | .bool a, .bool b => a == b
  | .number a, .number b => decide (a = b)
  | .string a, .string b => a == b
  | .array as, .array bs => identicalItems as bs
  | .object as, .object bs => identicalMembers as bs
  | _, _ => false

def identicalItems : List Json → List Json → Bool
  | [], [] => true
  | a :: as, b :: bs => identical a b && identicalItems as bs
  | _, _ => false

def identicalMembers : List (String × Json) → List (String × Json) → Bool
  | [], [] => true
  | (m, a) :: as, (n, b) :: bs => m == n && identical a b && identicalMembers as bs
  | _, _ => false

end

mutual

theorem identical_iff (a b : Json) : identical a b = true ↔ a = b := by
  cases a <;> cases b <;> simp [identical, identicalItems_iff, identicalMembers_iff]

theorem identicalItems_iff (as bs : List Json) : identicalItems as bs = true ↔ as = bs := by
  cases as <;> cases bs <;> simp [identicalItems, identical_iff, identicalItems_iff]

theorem identicalMembers_iff (as bs : List (String × Json)) :
    identicalMembers as bs = true ↔ as = bs := by
  cases as with
  | nil => cases bs <;> simp [identicalMembers]
  | cons a as =>
    obtain ⟨m, a⟩ := a
    cases bs with
    | nil => simp [identicalMembers]
    | cons b bs => simp [identicalMembers, identical_iff, identicalMembers_iff, Prod.ext_iff]

end

instance : DecidableEq Json := fun a b => decidable_of_iff _ (identical_iff a b)

def typeName : Json → String
  | .null => "null"
  | .bool _ => "boolean"
  | .number _ => "number"
  | .string _ => "string"
  | .array _ => "array"
  | .object _ => "object"

def isNull : Json → Bool
  | .null => true
  | _ => false

def isArray : Json → Bool
  | .array _ => true
  | _ => false

def isObject : Json → Bool
  | .object _ => true
  | _ => false

/-- Neither a list nor an object. -/
def isScalar : Json → Bool
  | .array _ | .object _ => false
  | _ => true

def string? : Json → Option String
  | .string text => some text
  | _ => none

def unsigned? : Json → Option Nat
  | .number value => value.unsigned?
  | _ => none

/-- The member called `name`, of an object that has one. -/
def member? (name : String) : Json → Option Json
  | .object members => members.lookup name
  | _ => none

def ofNat (n : Nat) : Json :=
  .number (.int n)

@[simp] theorem unsigned?_ofNat (n : Nat) : (ofNat n).unsigned? = some n := rfl

end Json

end PathQuery
