import PathQuery.Configuration.Basic
import PathQuery.Configuration.Document
import PathQuery.Json.Basic
import PathQuery.Text.Blank

/-!
# Reading configurations

A blank text is the default configuration. Fields may be absent; unknown and repeated ones, values
of another type, and null where a value is needed are refused before values are checked.
-/

set_option autoImplicit false

namespace PathQuery

namespace Document

/-- The value of a numeral in the radix that its beginning tells. A decimal one has no superfluous
zero in front. -/
def magnitude? : List Char → Option Nat
  | '0' :: 'x' :: digits => if digits.isEmpty then none else Text.numeral? 16 digits
  | '0' :: 'o' :: digits => if digits.isEmpty then none else Text.numeral? 8 digits
  | '0' :: 'b' :: digits => if digits.isEmpty then none else Text.numeral? 2 digits
  | ['0'] => some 0
  | '0' :: _ => none
  | [] => none
  | digits => Text.numeral? 10 digits

/-- The value of a plain integer that is not negative and fits 64 bits. -/
def unsigned? : Document → Option Nat
  | .plain text =>
    let value := match text.toList with
      | '+' :: digits => magnitude? digits
      | '-' :: digits => (magnitude? digits).filter (· = 0)
      | digits => magnitude? digits
    value.filter (· < Nat.pow 2 64)
  | _ => none

def flag? : Document → Option Bool
  | .plain text => if text = "true" then some true else if text = "false" then some false else none
  | _ => none

def optional? {α : Type} (read : Document → Option α) : Document → Option (Option α)
  | .plain text =>
    if text = "~" || text = "null" then some none else (read (.plain text)).map some
  | document => (read document).map some

end Document

namespace Configuration

/-- Why a text is no configuration: it cannot be read, or it says what is not allowed. -/
inductive Refusal where
  | unreadable
  | invalid (fault : ConfigurationFault)

/-- The value of a field, or its default if it is absent. -/
def field {α : Type} (entries : List (String × Document)) (name : String) (default : α)
    (read : Document → Option α) : Option α :=
  match entries.lookup name with
  | some value => read value
  | none => some default

/-- Whether only known fields are present, each once. -/
def knownOnce (known : List String) (entries : List (String × Document)) : Bool :=
  let names := entries.map Prod.fst
  decide names.Nodup && names.all fun name => known.contains name

def readExecution : Document → Option Execution
  | .mapping entries =>
    let standard : Execution := {}
    if knownOnce ["parallel", "recursion_limit", "max_page_size"] entries then do
      let parallel ← field entries "parallel" standard.parallel Document.flag?
      let limit ← field entries "recursion_limit" standard.recursionLimit Document.unsigned?
      let size ← field entries "max_page_size" standard.maxPageSize
        (Document.optional? Document.unsigned?)
      some { parallel, recursionLimit := limit, maxPageSize := size }
    else none
  | _ => none

def ofDocument : Document → Option Configuration
  | .mapping entries =>
    if knownOnce ["execution"] entries then
      (field entries "execution" {} readExecution).map fun execution => { execution }
    else none
  | _ => none

def read (text : String) : Except Refusal Configuration :=
  if text.toList.all Text.isBlank then .ok {}
  else match (Document.read text).bind ofDocument with
    | none => .error .unreadable
    | some configuration =>
      match configuration.validate with
      | .ok () => .ok configuration
      | .error fault => .error (.invalid fault)

def toJson (configuration : Configuration) : Json :=
  let execution := configuration.execution
  .object [("execution", .object [("parallel", .bool execution.parallel),
    ("recursion_limit", .ofNat execution.recursionLimit),
    ("max_page_size", (execution.maxPageSize.map Json.ofNat).getD .null)])]

end Configuration

end PathQuery
