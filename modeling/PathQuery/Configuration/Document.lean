import PathQuery.Text.Reader

/-!
# Configuration documents

A document is a YAML mapping of scalars and further mappings, in block or flow style. Plain scalars
are kept apart from quoted ones, which are always strings. Lists and all other features of the
language have no place in a configuration and are refused.
-/

set_option autoImplicit false

namespace PathQuery

inductive Document where
  | plain (text : String)
  | quoted (text : String)
  | mapping (entries : List (String × Document))

namespace Document

/-- What stands for an absent value. -/
def null : Document := .plain "~"

/-! ## Lines

Comments are dropped, and a flow mapping is put on one line.
-/

inductive Mode where
  | normal
  | single
  | double
  | escaped
  | comment
deriving DecidableEq

/-- A text read so far. Lines and the characters of the current line are in reverse order. -/
structure Scan where
  mode : Mode
  depth : Nat
  line : List Char
  lines : List (List Char)

/-- Whether a quote or bracket behind these characters begins a token. -/
def beginsToken : List Char → Bool
  | [] => true
  | c :: _ => c ∈ [' ', '\x7b', '[', ',', ':', '\'']

namespace Scan

def push (scan : Scan) (c : Char) : Scan :=
  { scan with line := c :: scan.line }

def lineBreak (scan : Scan) : Scan :=
  if scan.depth = 0 then
    { mode := .normal, depth := 0, line := [], lines := scan.line :: scan.lines }
  else { scan with mode := .normal, line := ' ' :: scan.line }

def normal (scan : Scan) (c : Char) : Scan :=
  if c = '\n' then scan.lineBreak
  else if c = '#' && (scan.line.head?.map (· == ' ')).getD true then { scan with mode := .comment }
  else if c = '\'' && beginsToken scan.line then { scan.push c with mode := .single }
  else if c = '"' && beginsToken scan.line then { scan.push c with mode := .double }
  else if (c = '\x7b' || c = '[') && (beginsToken scan.line || 0 < scan.depth) then
    { scan.push c with depth := scan.depth + 1 }
  else if c = '\x7d' || c = ']' then { scan.push c with depth := scan.depth - 1 }
  else scan.push c

def step (scan : Scan) (c : Char) : Scan :=
  match scan.mode with
  | .normal => scan.normal c
  | .comment => if c = '\n' then scan.lineBreak else scan
  | .single => { scan.push c with mode := if c = '\'' then .normal else .single }
  | .double =>
    { scan.push c with mode := if c = '"' then .normal else if c = '\\' then .escaped else .double }
  | .escaped => { scan.push c with mode := .double }

end Scan

/-- A line without the blanks around it. -/
structure Line where
  indent : Nat
  content : List Char

def trim (text : List Char) : List Char :=
  ((text.dropWhile (· == ' ')).reverse.dropWhile (· == ' ')).reverse

def Line.ofChars (text : List Char) : Line :=
  ⟨(text.takeWhile (· == ' ')).length, trim text⟩

/-- The lines that hold something; none if a quote or bracket is left open. -/
def lines (text : List Char) : Option (List Line) :=
  let scan := (text.filter (· != '\r')).foldl Scan.step ⟨.normal, 0, [], []⟩
  if scan.depth = 0 && (scan.mode = .normal || scan.mode = .comment) then
    let all := (scan.line :: scan.lines).reverse.map fun line => Line.ofChars line.reverse
    some (all.filter fun line => !line.content.isEmpty)
  else none

/-! ## Scalars -/

def skipSpaces (text : List Char) : List Char := text.dropWhile (· == ' ')

def escape : Reader Char
  | 'n' :: rest => some ('\n', rest)
  | 't' :: rest => some ('\t', rest)
  | 'r' :: rest => some ('\r', rest)
  | '"' :: rest => some ('"', rest)
  | '/' :: rest => some ('/', rest)
  | '\\' :: rest => some ('\\', rest)
  | ' ' :: rest => some (' ', rest)
  | 'x' :: rest => (Text.digits 16 2 rest).map fun (code, rest) => (Char.ofNat code, rest)
  | 'u' :: rest => (Text.digits 16 4 rest).map fun (code, rest) => (Char.ofNat code, rest)
  | _ => none

/-- The rest of a scalar in double quotes. -/
def doubleTail : Nat → Reader (List Char)
  | 0, _ => none
  | _ + 1, [] => none
  | _ + 1, '"' :: rest => some ([], rest)
  | fuel + 1, '\\' :: rest => do
    let (c, rest) ← escape rest
    let (cs, rest) ← doubleTail fuel rest
    some (c :: cs, rest)
  | fuel + 1, c :: rest => do
    let (cs, rest) ← doubleTail fuel rest
    some (c :: cs, rest)

/-- The rest of a scalar in single quotes, in which a quote is written twice. -/
def singleTail : Reader (List Char)
  | [] => none
  | '\'' :: '\'' :: rest => (singleTail rest).map fun (cs, rest) => ('\'' :: cs, rest)
  | '\'' :: rest => some ([], rest)
  | c :: rest => (singleTail rest).map fun (cs, rest) => (c :: cs, rest)

def quotedScalar : Reader String
  | '"' :: rest =>
    (doubleTail (rest.length + 1) rest).map fun (cs, rest) => (String.ofList cs, rest)
  | '\'' :: rest => (singleTail rest).map fun (cs, rest) => (String.ofList cs, rest)
  | _ => none

def isQuote (text : List Char) : Bool :=
  match text with
  | c :: _ => c = '"' || c = '\''
  | [] => false

/-- Whether a plain scalar may begin like this. -/
def beginsPlain : List Char → Bool
  | [] => false
  | c :: rest =>
    if c = '-' || c = '?' || c = ':' then (rest.head?.map (· != ' ')).getD false
    else c ∉ [',', '[', ']', '\x7b', '\x7d', '#', '&', '*', '!', '|', '>', '\'', '"', '%', '@',
      '\x60', '\t']

/-- A colon separates key and value only in front of a blank. -/
def endsKey (flow : Bool) : List Char → Bool
  | [] => true
  | c :: _ => c = ' ' || (flow && c ∈ [',', '[', ']', '\x7b', '\x7d'])

/-- The characters of a plain scalar: up to a separating colon, in flow style also up to a bracket
or comma. -/
def plainRun (flow : Bool) : List Char → List Char × List Char
  | [] => ([], [])
  | c :: rest =>
    if (c = ':' && endsKey flow rest) || (flow && c ∈ [',', '[', ']', '\x7b', '\x7d']) then
      ([], c :: rest)
    else
      let (run, rest) := plainRun flow rest
      (c :: run, rest)

def plainScalar (flow : Bool) : Reader String := fun text =>
  if beginsPlain text then
    let (run, rest) := plainRun flow text
    some (String.ofList (trim run), rest)
  else none

/-- A key and its colon. Behind a quoted key of a flow mapping no blank is needed. -/
def key (flow : Bool) : Reader String := fun text => do
  let (name, rest) ← if isQuote text then quotedScalar text else plainScalar flow text
  match skipSpaces rest with
  | ':' :: rest' =>
    if endsKey flow rest' || (flow && isQuote text) then some (name, rest') else none
  | _ => none

/-! ## Flow style -/

/-- The value of an entry, or nothing in front of a comma or bracket. -/
def flowValue (mapping : Reader (List (String × Document))) : Reader Document := fun text =>
  match text with
  | [] => none
  | c :: rest =>
    if c = ',' || c = '\x7d' then some (null, c :: rest)
    else if c = '\x7b' then (mapping rest).map fun (entries, rest) => (.mapping entries, rest)
    else if isQuote text then (quotedScalar text).map fun (s, rest) => (.quoted s, rest)
    else (plainScalar true text).map fun (s, rest) => (.plain s, rest)

/-- A key without a value, which has no colon. -/
def bareKey : Reader String := fun text =>
  if isQuote text then quotedScalar text else plainScalar true text

/-- The entries of a mapping whose bracket has been opened. -/
def flowEntries : Nat → Reader (List (String × Document))
  | 0, _ => none
  | fuel + 1, text =>
    let text := skipSpaces text
    match text with
    | '\x7d' :: rest => some ([], rest)
    | _ => do
      let ((name, value), rest) ← match key true text with
        | some (name, rest) =>
          (flowValue (flowEntries fuel) (skipSpaces rest)).map fun (value, rest) =>
            ((name, value), rest)
        | none => (bareKey text).map fun (name, rest) => ((name, null), rest)
      match skipSpaces rest with
      | ',' :: rest => do
        let (others, rest) ← flowEntries fuel rest
        some ((name, value) :: others, rest)
      | '\x7d' :: rest => some ([(name, value)], rest)
      | _ => none

def flowMapping (text : List Char) : Option Document := do
  let rest ← Text.expect ['\x7b'] text
  let (entries, rest) ← flowEntries text.length rest
  if rest.isEmpty then some (.mapping entries) else none

/-! ## Block style -/

/-- A value on the line of its key. -/
def inlineValue (text : List Char) : Option Document :=
  if text.head? = some '\x7b' then flowMapping text
  else do
    let quote := isQuote text
    let (scalar, rest) ← if quote then quotedScalar text else plainScalar false text
    if rest.isEmpty then some (if quote then .quoted scalar else .plain scalar) else none

/-- The entries at one indentation, and the lines after them. -/
def blockEntries : Nat → Nat → List Line → Option (List (String × Document) × List Line)
  | 0, _, _ => none
  | _ + 1, _, [] => some ([], [])
  | fuel + 1, indent, line :: rest =>
    if line.indent < indent then some ([], line :: rest)
    else if indent < line.indent then none
    else do
      let (name, text) ← key false line.content
      let (value, rest) ← match skipSpaces text, rest with
        | [], next :: _ =>
          if indent < next.indent then
            (blockEntries fuel next.indent rest).map fun (entries, rest) => (.mapping entries, rest)
          else some (null, rest)
        | [], [] => some (null, [])
        | text, rest => (inlineValue text).map fun value => (value, rest)
      let (others, rest) ← blockEntries fuel indent rest
      some ((name, value) :: others, rest)

def read (text : String) : Option Document := do
  match ← lines text.toList with
  | [] => none
  | line :: rest =>
    if line.content.head? = some '\x7b' then
      if rest.isEmpty then flowMapping line.content else none
    else
      let (entries, rest) ← blockEntries (2 * rest.length + 3) line.indent (line :: rest)
      if rest.isEmpty then some (.mapping entries) else none

end Document

end PathQuery
