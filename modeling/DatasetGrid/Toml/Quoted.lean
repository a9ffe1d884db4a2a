import DatasetGrid.Text.Numeral

/-!
# Quoted text

The four forms of strings. Each reader starts behind the opening quote and gives the content and
what follows the closing one.
-/
namespace DatasetGrid.Toml

open Text

abbrev Read := Option (List Char × List Char)

def Read.cons (c : Char) (r : Read) : Read :=
  r.map fun parts => (c :: parts.1, parts.2)

/-- Characters that may stand for themselves: all but control characters other than tab. -/
def isPlain (c : Char) : Bool :=
  c = '\t' || (0x20 ≤ c.toNat && c.toNat ≠ 0x7F)

def escaped? : Char → Option Char
  | 'b' => some '\x08'
  | 't' => some '\t'
  | 'n' => some '\n'
  | 'f' => some '\x0C'
  | 'r' => some '\r'
  | '"' => some '"'
  | '\\' => some '\\'
  | _ => none

/-- Where reading stands: among plain characters, behind a backslash, in a hexadecimal code, or in
the blanks that a backslash at the end of a line takes with it. -/
inductive Spot where
  | plain
  | escape
  | code (left value : Nat)
  | lineEnd
  | nextLine

/-- The spot and the character after one more character of an escape. -/
def escapeStep? : Spot → Char → Option (Spot × Option Char)
  | .escape, 'u' => some (.code 4 0, none)
  | .escape, 'U' => some (.code 8 0, none)
  | .escape, c => (escaped? c).map fun e => (.plain, some e)
  | .code left value, c => do
    let value := value * 16 + (← digitOf 16 c)
    if 1 < left then return (.code (left - 1) value, none)
    else if value.isValidChar then return (.plain, some (Char.ofNat value))
    else none
  | _, _ => none

def readBasic : Spot → List Char → Read
  | _, [] => none
  | .plain, c :: rest =>
    if c = '"' then some ([], rest)
    else if c = '\\' then readBasic .escape rest
    else if isPlain c then (readBasic .plain rest).cons c
    else none
  | spot, c :: rest =>
    match escapeStep? spot c with
    | none => none
    | some (spot, none) => readBasic spot rest
    | some (spot, some e) => (readBasic spot rest).cons e

def readLiteral : List Char → Read
  | [] => none
  | c :: rest =>
    if c = '\'' then some ([], rest)
    else if isPlain c then (readLiteral rest).cons c
    else none

/-- The end of a string on several lines, at a run of three quotes or more: up to two of them still
belong to the content. -/
def closingRun? (quote : Char) (cs : List Char) : Read :=
  let run := (cs.takeWhile (· = quote)).length
  if run < 3 then none
  else
    let content := min (run - 3) 2
    some (List.replicate content quote, cs.drop (content + 3))

/-- A string on several lines, with escapes. A line ends with a line feed, or a carriage return and
a line feed, which both read as a line feed; a backslash before it takes all blanks and line ends
that follow. -/
def readLongBasic : Spot → List Char → Read
  | _, [] => none
  | .plain, c :: rest =>
    match closingRun? '"' (c :: rest) with
    | some r => some r
    | none =>
      if c = '\\' then readLongBasic .escape rest
      else if c = '\r' ∧ rest.head? = some '\n' then readLongBasic .plain rest
      else if isPlain c ∨ c = '\n' then (readLongBasic .plain rest).cons c
      else none
  | .escape, c :: rest =>
    if c = ' ' ∨ c = '\t' then readLongBasic .lineEnd rest
    else if c = '\n' then readLongBasic .nextLine rest
    else if c = '\r' ∧ rest.head? = some '\n' then readLongBasic .lineEnd rest
    else
      match escapeStep? .escape c with
      | none => none
      | some (spot, none) => readLongBasic spot rest
      | some (spot, some e) => (readLongBasic spot rest).cons e
  | .lineEnd, c :: rest =>
    if c = ' ' ∨ c = '\t' ∨ (c = '\r' ∧ rest.head? = some '\n') then readLongBasic .lineEnd rest
    else if c = '\n' then readLongBasic .nextLine rest
    else none
  | .nextLine, c :: rest =>
    if c = ' ' ∨ c = '\t' ∨ c = '\n' ∨ (c = '\r' ∧ rest.head? = some '\n') then
      readLongBasic .nextLine rest
    else
      match closingRun? '"' (c :: rest) with
      | some r => some r
      | none =>
        if c = '\\' then readLongBasic .escape rest
        else if isPlain c then (readLongBasic .plain rest).cons c
        else none
  | .code left value, c :: rest =>
    match escapeStep? (.code left value) c with
    | none => none
    | some (spot, none) => readLongBasic spot rest
    | some (spot, some e) => (readLongBasic spot rest).cons e

def readLongLiteral : List Char → Read
  | [] => none
  | c :: rest =>
    match closingRun? '\'' (c :: rest) with
    | some r => some r
    | none =>
      if c = '\r' ∧ rest.head? = some '\n' then readLongLiteral rest
      else if isPlain c ∨ c = '\n' then (readLongLiteral rest).cons c
      else none

def dropFirstLineEnd : List Char → List Char
  | '\n' :: rest => rest
  | '\r' :: '\n' :: rest => rest
  | cs => cs

def readString (cs : List Char) : Read :=
  match cs with
  | '"' :: '"' :: '"' :: rest => readLongBasic .plain (dropFirstLineEnd rest)
  | '\'' :: '\'' :: '\'' :: rest => readLongLiteral (dropFirstLineEnd rest)
  | '"' :: rest => readBasic .plain rest
  | '\'' :: rest => readLiteral rest
  | _ => none

end DatasetGrid.Toml
