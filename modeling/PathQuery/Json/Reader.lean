import PathQuery.Json.Basic
import PathQuery.Decimal.Binary64
import PathQuery.Keyed
import PathQuery.Text.Reader

/-!
# Reading JSON text

`Json.readRaw` keeps every member of an object, `Json.read` gives a repeated name its first place
and its last value. Both refuse trailing text, lone surrogates, numbers beyond the largest finite
one and values that are nested too deeply.
-/

set_option autoImplicit false

namespace PathQuery

namespace Json.Reader

variable {α : Type}

def isBlank (c : Char) : Bool :=
  c == ' ' || c == '\t' || c == '\n' || c == '\r'

def skipBlanks (text : List Char) : List Char :=
  text.dropWhile isBlank

/-- Items up to a closing character, separated by commas, the first of them still to come. -/
def separated (item : Reader α) (close : Char) : Nat → Reader (List α)
  | 0, _ => none
  | fuel + 1, text => do
    let (first, rest) ← item text
    match skipBlanks rest with
    | ',' :: rest =>
      let (others, rest) ← separated item close fuel rest
      some (first :: others, rest)
    | c :: rest => if c = close then some ([first], rest) else none
    | [] => none

/-- A possibly empty sequence whose opening character has been read. -/
def sequence (item : Reader α) (close : Char) : Reader (List α) := fun text =>
  match skipBlanks text with
  | [] => none
  | c :: rest => if c = close then some ([], rest) else separated item close text.length text

/-! ## Strings -/

/-- Four hexadecimal digits. -/
def codeUnit : Reader Nat := Text.digits 16 4

/-- The code point behind `\u`: one unit, or a high surrogate and the escaped low one. -/
def codePoint : Reader Char := fun text => do
  let (unit, rest) ← codeUnit text
  if unit < 0xD800 || 0xDFFF < unit then some (Char.ofNat unit, rest)
  else if 0xDC00 ≤ unit then none
  else match rest with
    | '\\' :: 'u' :: rest => do
      let (low, rest) ← codeUnit rest
      if 0xDC00 ≤ low && low ≤ 0xDFFF then
        some (Char.ofNat (0x10000 + (unit - 0xD800) * 0x400 + (low - 0xDC00)), rest)
      else none
    | _ => none

/-- The character of a one letter escape. -/
def escaped? : Char → Option Char
  | '"' => some '"'
  | '\\' => some '\\'
  | '/' => some '/'
  | 'b' => some '\x08'
  | 'f' => some '\x0c'
  | 'n' => some '\n'
  | 'r' => some '\r'
  | 't' => some '\t'
  | _ => none

/-- One character of a string: as it stands, or the escape that was opened. -/
def stringChar : Reader Char
  | '\\' :: 'u' :: rest => codePoint rest
  | '\\' :: c :: rest => (escaped? c).map fun e => (e, rest)
  | c :: rest => if c = '\\' || c.val < 32 then none else some (c, rest)
  | [] => none

/-- Characters up to the closing quote. -/
def stringTail : Nat → Reader (List Char)
  | 0, _ => none
  | _ + 1, '"' :: rest => some ([], rest)
  | fuel + 1, text => do
    let (c, rest) ← stringChar text
    let (cs, rest) ← stringTail fuel rest
    some (c :: cs, rest)

/-- A string, from its opening quote. -/
def string : Reader String
  | '"' :: rest =>
    (stringTail (rest.length + 1) rest).map fun (cs, rest) => (String.ofList cs, rest)
  | _ => none

/-! ## Numbers -/

def digitsValue (digits : List Char) : Nat :=
  (Text.numeral? 10 digits).getD 0

/-- A run of at least one digit. -/
def digits1 : Reader (List Char) := fun text =>
  match text.takeWhile Char.isDigit with
  | [] => none
  | run => some (run, text.dropWhile Char.isDigit)

/-- Digits without a superfluous zero in front. -/
def wholePart : Reader (List Char)
  | '0' :: rest => if (rest.head?.map Char.isDigit).getD false then none else some (['0'], rest)
  | text => digits1 text

/-- The digits behind a point; absent when there is none. -/
def fractionPart : Reader (Option (List Char))
  | '.' :: rest => (digits1 rest).map fun (run, rest) => (some run, rest)
  | text => some (none, text)

/-- A signed exponent; absent when there is none. -/
def exponentPart : Reader (Option Int)
  | c :: rest =>
    if c = 'e' || c = 'E' then
      match rest with
      | '-' :: rest => (digits1 rest).map fun (run, rest) => (some (-(digitsValue run : Int)), rest)
      | '+' :: rest => (digits1 rest).map fun (run, rest) => (some (digitsValue run : Int), rest)
      | rest => (digits1 rest).map fun (run, rest) => (some (digitsValue run : Int), rest)
    else some (none, c :: rest)
  | [] => some (none, [])

/-- The magnitude `significand * 10 ^ exponent` as a floating point number, where it is finite.
Exponents far outside the range are settled without computing the power. -/
def magnitudeBits? (significand : Nat) (exponent : Int) : Option UInt64 :=
  let order : Int := (toString significand).length + exponent
  if significand = 0 || order < -330 then some 0
  else if 310 < order then none
  else Decimal.nearestBits? (significand * Nat.pow 10 exponent.toNat) (Nat.pow 10 (-exponent).toNat)

def floatNumber? (negative : Bool) (significand : Nat) (exponent : Int) : Option Number :=
  (magnitudeBits? significand exponent).map fun bits =>
    .float (if negative then bits ||| 0x8000000000000000 else bits)

/-- A number without fraction and exponent is an integer if it fits 64 bits, signed or unsigned;
the integer zero has no sign. -/
def wholeNumber? (negative : Bool) (value : Nat) : Option Number :=
  if negative then
    if 0 < value && value ≤ Nat.pow 2 63 then some (.int (-value)) else floatNumber? true value 0
  else if value < Nat.pow 2 64 then some (.int value) else floatNumber? false value 0

def unsignedNumber (negative : Bool) : Reader Number := fun text => do
  let (whole, rest) ← wholePart text
  let (fraction, rest) ← fractionPart rest
  let (exponent, rest) ← exponentPart rest
  match fraction, exponent with
  | none, none => (wholeNumber? negative (digitsValue whole)).map fun n => (n, rest)
  | _, _ =>
    let fraction := fraction.getD []
    (floatNumber? negative (digitsValue (whole ++ fraction))
      (exponent.getD 0 - fraction.length)).map fun n => (n, rest)

def number : Reader Number
  | '-' :: rest => unsignedNumber true rest
  | text => unsignedNumber false text

/-! ## Values -/

/-- A name, a colon and a value. -/
def member (value : Reader Json) : Reader (String × Json) := fun text => do
  let (name, rest) ← string (skipBlanks text)
  match skipBlanks rest with
  | ':' :: rest => do
    let (value, rest) ← value rest
    some ((name, value), rest)
  | _ => none

/-- A value with blanks in front of it, nested at most `depth` levels deep. -/
def value (depth : Nat) : Reader Json := fun text =>
  match skipBlanks text with
  | [] => none
  | c :: rest =>
    if c = '"' then (string (c :: rest)).map fun (s, rest) => (.string s, rest)
    else if c = 'n' then (Text.expect "ull".toList rest).map fun rest => (.null, rest)
    else if c = 't' then (Text.expect "rue".toList rest).map fun rest => (.bool true, rest)
    else if c = 'f' then (Text.expect "alse".toList rest).map fun rest => (.bool false, rest)
    else match depth with
      | 0 => (number (c :: rest)).map fun (n, rest) => (.number n, rest)
      | depth + 1 =>
        if c = '[' then (sequence (value depth) ']' rest).map fun (items, rest) =>
          (.array items, rest)
        else if c = '\x7b' then (sequence (member (value depth)) '\x7d' rest).map
          fun (members, rest) => (.object members, rest)
        else (number (c :: rest)).map fun (n, rest) => (.number n, rest)

end Json.Reader

namespace Json

mutual

/-- Gives every repeated member name its first place and its last value, at any depth. -/
def normalize : Json → Json
  | .array items => .array (normalizeItems items)
  | .object members => .object (normalizeMembers [] members)
  | value => value

def normalizeItems : List Json → List Json
  | [] => []
  | item :: rest => normalize item :: normalizeItems rest

def normalizeMembers (done : List (String × Json)) :
    List (String × Json) → List (String × Json)
  | [] => done
  | (name, value) :: rest => normalizeMembers (Keyed.set name (normalize value) done) rest

end

/-- Reads a whole text, keeping repeated members. -/
def readRaw (depth : Nat) (text : String) : Option Json := do
  let (value, rest) ← Reader.value depth text.toList
  if (Reader.skipBlanks rest).isEmpty then some value else none

/-- Lists and objects may be nested this deeply in a document. -/
def maxDepth : Nat := 127

/-- Reads a whole text. -/
def read (text : String) : Option Json :=
  (readRaw maxDepth text).map normalize

end Json

end PathQuery
