import DatasetGrid.Text.Blank
import DatasetGrid.Text.Words

/-!
# Tokens of a list of values

The text of an array or a sequence is a flat list of tokens between blanks, commas and brackets. A
group in parentheses stays in one token, so that a sequence inside another value reaches its own
editor whole. A group that is never closed takes the rest of the text.
-/
namespace DatasetGrid.Token

open Text

/-- What separates tokens outside groups. A closing parenthesis closes nothing there. -/
def isDelimiter (c : Char) : Bool :=
  isBlank c || [',', '[', ']', ')'].contains c

/-- The nesting depth of groups after a character, from inside a group. -/
def nextDepth (depth : Nat) (c : Char) : Nat :=
  if c = '(' then depth + 1 else if c = ')' then depth - 1 else depth

def tokensFrom (depth : Nat) (current : List Char) : List Char → List (List Char)
  | [] => pendingWord current
  | c :: rest =>
    if 0 < depth then tokensFrom (nextDepth depth c) (current ++ [c]) rest
    else if c = '(' then tokensFrom 1 (current ++ [c]) rest
    else if isDelimiter c then pendingWord current ++ tokensFrom 0 [] rest
    else tokensFrom 0 (current ++ [c]) rest

def tokens (cs : List Char) : List (List Char) :=
  tokensFrom 0 [] cs

/-- The text up to the parenthesis that closes the innermost of `depth + 1` groups, and what
follows it. -/
def splitClosing? (depth : Nat) : List Char → Option (List Char × List Char)
  | [] => none
  | c :: rest =>
    if c = ')' then
      if depth = 0 then some ([], rest)
      else (splitClosing? (depth - 1) rest).map fun parts => (c :: parts.1, parts.2)
    else
      (splitClosing? (if c = '(' then depth + 1 else depth) rest).map fun parts =>
        (c :: parts.1, parts.2)

/-- Removes blanks at the ends, and the parentheses around the whole of a text. A parenthesis that
is never closed goes too. -/
def stripGroup (cs : List Char) : List Char :=
  match trim cs with
  | '(' :: inner =>
    match splitClosing? 0 inner with
    | some (content, []) => content
    | some _ => '(' :: inner
    | none => inner
  | trimmed => trimmed

def ofArray (text : String) : List String :=
  (tokens text.toList).map String.ofList

def ofSequence (text : String) : List String :=
  (tokens (stripGroup text.toList)).map String.ofList

example : ofArray "[4 5,6], (1, (2)) x)" = ["4", "5", "6", "(1, (2))", "x"] := by decide +kernel

example : ofSequence " (1, 2) " = ["1", "2"] := by decide +kernel

example : ofSequence "(1), (2)" = ["(1)", "(2)"] := by decide +kernel

end DatasetGrid.Token
