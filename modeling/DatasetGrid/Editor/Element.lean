import DatasetGrid.Editor.Basic
import DatasetGrid.Editor.Token

/-!
# Elements inside lists of tokens

An element of an array or a sequence takes a fixed number of tokens: one for most values, one for
each byte of opaque data, all those of its members for a compound, all those of its elements for an
array. Checking an element says where in its tokens the fault lies; reading one builds the cell.
-/
namespace DatasetGrid

def pieces {α : Type} (length : Nat) : Nat → List α → List (List α)
  | 0, _ => []
  | count + 1, xs => xs.take length :: pieces length count (xs.drop length)

/-- The list cut into pieces of the length; the last may be shorter. -/
def chunks {α : Type} (length : Nat) (xs : List α) : List (List α) :=
  pieces length ((xs.length + length - 1) / length) xs

example : chunks 2 [1, 2, 3, 4, 5] = [[1, 2], [3, 4], [5]] := by decide

/-- A fault and the place, among some tokens, where it arose. -/
abbrev PlacedFault := Nat × Fault

def PlacedFault.shift (offset : Nat) (f : PlacedFault) : PlacedFault :=
  (offset + f.1, f.2)

def PlacedFault.atStart (f : Fault) : PlacedFault := (0, f)

def checkExactly (expected found : Nat) : Except Fault Unit :=
  if found = expected then .ok () else .error (.elementCount expected found)

/-- The count of tokens of a whole list: a fixed one, or any multiple of an element's width. -/
def checkCount (expected : Option Nat) (width found : Nat) : Except Fault Unit :=
  match expected with
  | some count => checkExactly count found
  | none =>
    if found % width = 0 then .ok ()
    else .error (.elementCount ((found / width + 1) * width) found)

/-- Checks element after element, the first of them at token `start`. -/
def checkEach (check : List String → Except PlacedFault Unit) (width : Nat) :
    Nat → List (List String) → Except PlacedFault Unit
  | _, [] => .ok ()
  | start, chunk :: rest => do
    (check chunk).mapError (·.shift start)
    checkEach check width (start + width) rest

def parseEach (parse : List String → Except Fault Cell) (width : Nat) :
    Nat → List (List String) → Except Fault (List Cell)
  | _, [] => .ok []
  | start, chunk :: rest => do
    let item ← (parse chunk).mapError (.element start ·)
    let items ← parseEach parse width (start + width) rest
    return item :: items

/-- Checks the tokens of a whole list; a fault in an element names its token. -/
def checkList (expected : Option Nat) (width : Nat)
    (check : List String → Except PlacedFault Unit) (tokens : List String) : Except Fault Unit := do
  checkCount expected width tokens.length
  (checkEach check width 0 (chunks width tokens)).mapError fun f => .element f.1 f.2

def parseList (expected : Option Nat) (width : Nat)
    (parse : List String → Except Fault Cell) (tokens : List String) : Except Fault Cell := do
  checkCount expected width tokens.length
  return .array (← parseEach parse width 0 (chunks width tokens))

namespace Editor

mutual

/-- The tokens that one value takes inside a list, counted in a word. -/
def tokens : Editor → Nat
  | .scalar type => type.tokens
  | .array base dims element =>
    if base.isString || base.isVarString then arrayOrder dims
    else wrapped (arrayOrder dims * max element.tokens 1)
  | .compound _ _ editors => totalTokens editors
  | .varString _ | .sequence .. | .refusing _ => 1

def totalTokens : List Editor → Nat
  | [] => 0
  | editor :: rest => wrapped (editor.tokens + totalTokens rest)

end

/-- The tokens that one element takes, at least one. -/
def width (element : Editor) : Nat :=
  max element.tokens 1

/-- The tokens that a whole array takes. An array of strings may have any number. -/
def expectedTokens? (base : Datatype) (dims : List Nat) (element : Editor) : Option Nat :=
  if base.isString || base.isVarString then none
  else some (wrapped (arrayOrder dims * element.width))

mutual

def checkElement : Editor → List String → Except PlacedFault Unit
  | .scalar type, tokens => do
    (checkExactly type.tokens tokens.length).mapError .atStart
    (type.check (" ".intercalate tokens)).mapError .atStart
  | .varString _, tokens => (checkExactly 1 tokens.length).mapError .atStart
  | .array base dims element, tokens => do
    (checkCount (expectedTokens? base dims element) element.width tokens.length).mapError .atStart
    checkEach (fun chunk => element.checkElement chunk) element.width 0
      (chunks element.width tokens)
  | .sequence _ element, tokens =>
    match tokens with
    | [token] =>
      (checkList none element.width (fun chunk => element.checkElement chunk)
        (Token.ofSequence token)).mapError .atStart
    | tokens => .error (.atStart (.elementCount 1 tokens.length))
  | .compound _ _ editors, tokens =>
    checkMembers (totalTokens editors) tokens.length 0 editors tokens
  | .refusing _, tokens => do
    (checkExactly 1 tokens.length).mapError .atStart
    .error (.atStart .noEditor)

/-- Checks the members of a compound one after the other, of `total` tokens in all and `found`
given; `rest` are the tokens from number `offset` on. -/
def checkMembers (total found offset : Nat) :
    List Editor → List String → Except PlacedFault Unit
  | [], _ => (checkExactly offset found).mapError .atStart
  | editor :: editors, rest =>
    if rest.length < editor.tokens then .error (.atStart (.elementCount total found))
    else do
      (editor.checkElement (rest.take editor.tokens)).mapError (·.shift offset)
      checkMembers total found (offset + editor.tokens) editors (rest.drop editor.tokens)

end

mutual

def parseElement : Editor → List String → Except Fault Cell
  | .scalar type, tokens => do
    checkExactly type.tokens tokens.length
    type.parse (" ".intercalate tokens)
  | .varString _, tokens => do
    checkExactly 1 tokens.length
    return .text (" ".intercalate tokens)
  | .array base dims element, tokens =>
    parseList (expectedTokens? base dims element) element.width
      (fun chunk => element.parseElement chunk) tokens
  | .sequence _ element, tokens =>
    match tokens with
    | [token] =>
      parseList none element.width (fun chunk => element.parseElement chunk)
        (Token.ofSequence token)
    | tokens => .error (.elementCount 1 tokens.length)
  | .compound _ _ editors, tokens => do
    return .compound (← parseMembers (totalTokens editors) tokens.length 0 editors tokens)
  | .refusing _, tokens => do
    checkExactly 1 tokens.length
    .error .noEditor

def parseMembers (total found offset : Nat) :
    List Editor → List String → Except Fault (List Cell)
  | [], _ => do
    checkExactly offset found
    return []
  | editor :: editors, rest =>
    if rest.length < editor.tokens then .error (.elementCount total found)
    else do
      let item ← editor.parseElement (rest.take editor.tokens)
      let items ←
        parseMembers total found (offset + editor.tokens) editors (rest.drop editor.tokens)
      return item :: items

end

end Editor

end DatasetGrid
