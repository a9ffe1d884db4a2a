import DatasetGrid.Toml.Bare
import DatasetGrid.Toml.Quoted
import DatasetGrid.Toml.Tree

/-!
# Reading a document

A document is a list of statements, one a line: a header of a table, a header of one more table in
an array, or a key with its value. Values nest up to a limit, and so do dotted keys.
-/
namespace DatasetGrid.Toml

/-- One more than the greatest nesting of arrays, inline tables and dotted keys. -/
def nestingLimit : Nat := 80

def skipSpaces (cs : List Char) : List Char :=
  cs.dropWhile fun c => c = ' ' || c = '\t'

/-- The text behind the end of a line; the end of the text ends a line too. -/
def lineEnd? : List Char → Option (List Char)
  | [] => some []
  | '\n' :: rest => some rest
  | '\r' :: '\n' :: rest => some rest
  | _ => none

def skipComment (cs : List Char) : List Char :=
  if cs.head? = some '#' then cs.tail.dropWhile isPlain else cs

def finishLine? (cs : List Char) : Option (List Char) :=
  lineEnd? (skipComment (skipSpaces cs))

/-- Skips blanks, comments and line ends, as inside an array. -/
def skipLines : Nat → List Char → List Char
  | 0, cs => cs
  | fuel + 1, cs =>
    match skipComment (skipSpaces cs) with
    | '\n' :: rest => skipLines fuel rest
    | '\r' :: '\n' :: rest => skipLines fuel rest
    | rest => rest

def skipBreaks (cs : List Char) : List Char :=
  skipLines cs.length cs

/-- Reads one name of a key: bare, or quoted on one line. -/
def readName (cs : List Char) : Read :=
  match cs with
  | '"' :: rest => readBasic .plain rest
  | '\'' :: rest => readLiteral rest
  | cs =>
    let name := cs.takeWhile isKeyChar
    if name = [] then none else some (name, cs.dropWhile isKeyChar)

def readNames : Nat → List Char → Option (List String × List Char)
  | 0, _ => none
  | fuel + 1, cs =>
    match readName (skipSpaces cs) with
    | none => none
    | some (name, rest) =>
      match skipSpaces rest with
      | '.' :: rest => (readNames fuel rest).map fun parts => (.ofList name :: parts.1, parts.2)
      | rest => some ([.ofList name], rest)

/-- A key: the path to its table, and its own name. -/
structure Key where
  path : List String
  name : String

def readKey (cs : List Char) : Option (Key × List Char) :=
  match readNames cs.length cs with
  | none => none
  | some (names, rest) =>
    match names.getLast? with
    | none => none
    | some name => if names.length < nestingLimit then some (⟨names.dropLast, name⟩, rest) else none

section Values

variable (readItem : List Char → Option (Value × List Char))

def readItems : Nat → List Char → Option (List Value × List Char)
  | 0, _ => none
  | fuel + 1, cs =>
    match skipBreaks cs with
    | ']' :: rest => some ([], rest)
    | cs =>
      match readItem cs with
      | none => none
      | some (item, rest) =>
        match skipBreaks rest with
        | ',' :: rest => (readItems fuel rest).map fun parts => (item :: parts.1, parts.2)
        | ']' :: rest => some ([item], rest)
        | _ => none

def readPair (cs : List Char) : Option ((Key × Value) × List Char) :=
  match readKey cs with
  | some (key, '=' :: rest) =>
    (readItem (skipSpaces rest)).map fun parts => ((key, parts.1), parts.2)
  | _ => none

/-- The pairs of an inline table up to its closing brace, from the first pair on. -/
def readPairs : Nat → List Char → Option (List (Key × Value) × List Char)
  | 0, _ => none
  | fuel + 1, cs =>
    match readPair readItem cs with
    | none => none
    | some (pair, rest) =>
      match skipSpaces rest with
      | ',' :: rest => (readPairs fuel rest).map fun parts => (pair :: parts.1, parts.2)
      | '\x7d' :: rest => some ([pair], rest)
      | _ => none

end Values

def inlineEntries? (pairs : List (Key × Value)) : Option Entries :=
  pairs.foldlM
    (fun entries pair => Entries.insert pair.1.path pair.1.name pair.2 .inline entries) []

/-- Reads a value, with at most `depth` arrays and inline tables around each other. -/
def readValue : Nat → List Char → Option (Value × List Char)
  | depth, cs =>
    if cs.head? = some '"' ∨ cs.head? = some '\'' then
      (readString cs).map fun parts => (.text (.ofList parts.1), parts.2)
    else if cs.head? = some '[' then
      match depth with
      | 0 => none
      | depth + 1 =>
        (readItems (readValue depth) cs.length cs.tail).map fun parts =>
          (.list parts.1, parts.2)
    else if cs.head? = some '\x7b' then
      match depth with
      | 0 => none
      | depth + 1 =>
        match skipSpaces cs.tail with
        | '\x7d' :: rest => some (.record [], rest)
        | rest =>
          match readPairs (readValue depth) cs.length rest with
          | none => none
          | some (pairs, rest) =>
            (inlineEntries? pairs).map fun entries => (.record (recordOf entries), rest)
    else readBare cs

/-- What is read so far, and the table whose keys come next. -/
structure Progress where
  root : Entries
  place : List String

def readHeader (p : Progress) (cs : List Char) : Option (Progress × List Char) :=
  match cs with
  | '[' :: rest =>
    match readKey rest with
    | some (key, ']' :: ']' :: rest) => do
      let root ← Entries.openItem key.path key.name p.root
      return (⟨root, key.path ++ [key.name]⟩, ← finishLine? rest)
    | _ => none
  | rest =>
    match readKey rest with
    | some (key, ']' :: rest) => do
      let root ← Entries.openTable key.path key.name p.root
      return (⟨root, key.path ++ [key.name]⟩, ← finishLine? rest)
    | _ => none

def Progress.add (p : Progress) (key : Key) (value : Value) : Option Progress :=
  (Entries.alter false (Entries.insert key.path key.name value) p.place .header p.root).map
    fun root => { p with root }

def readAssignment (p : Progress) (cs : List Char) : Option (Progress × List Char) := do
  let ((key, value), rest) ← readPair (readValue (nestingLimit - 1)) cs
  return (← p.add key value, ← finishLine? rest)

def readStatements : Nat → Progress → List Char → Option Entries
  | 0, _, _ => none
  | fuel + 1, p, cs =>
    match skipSpaces cs with
    | [] => some p.root
    | '[' :: rest =>
      match readHeader p rest with
      | some (p, rest) => readStatements fuel p rest
      | none => none
    | c :: rest =>
      if c = '#' ∨ c = '\n' ∨ c = '\r' then
        match finishLine? (c :: rest) with
        | some rest => readStatements fuel p rest
        | none => none
      else
        match readAssignment p (c :: rest) with
        | some (p, rest) => readStatements fuel p rest
        | none => none

/-- The entries of a document, behind an optional byte order mark. -/
def read? (cs : List Char) : Option (List (String × Value)) :=
  let cs := if cs.head? = some '\uFEFF' then cs.tail else cs
  (readStatements (cs.length + 1) ⟨[], []⟩ cs).map recordOf

end DatasetGrid.Toml
