import DatasetGrid.Editor.Element

/-!
# Checking and reading edits

An edit of a column goes to the editor that owns the column: a compound hands it to the member
there, with the column relative to that member.
-/
namespace DatasetGrid.Editor

mutual

/-- Checks a text proposed for a column. -/
def check : Editor → Nat → String → Except Fault Unit
  | .scalar type, _, text => type.check text
  | .varString _, _, _ => .ok ()
  | .array base dims element, _, text =>
    checkList (expectedTokens? base dims element) element.width element.checkElement
      (Token.ofArray text)
  | .sequence _ element, _, text =>
    checkList none element.width element.checkElement (Token.ofSequence text)
  | .compound _ map editors, column, text =>
    match map.locate? column with
    | some (member, relative) => checkAt editors member relative text
    | none => .error .noEditor
  | .refusing _, _, _ => .error .noEditor

def checkAt : List Editor → Nat → Nat → String → Except Fault Unit
  | [], _, _, _ => .error .noEditor
  | editor :: _, 0, column, text => editor.check column text
  | _ :: editors, member + 1, column, text => checkAt editors member column text

end

mutual

/-- Reads a text proposed for a column as the cell to store. -/
def parse : Editor → Nat → String → Except Fault Cell
  | .scalar type, _, text => type.parse text
  | .varString _, _, text => .ok (.text text)
  | .array base dims element, _, text =>
    parseList (expectedTokens? base dims element) element.width element.parseElement
      (Token.ofArray text)
  | .sequence _ element, _, text =>
    parseList none element.width element.parseElement (Token.ofSequence text)
  | .compound _ map editors, column, text =>
    match map.locate? column with
    | some (member, relative) => parseAt editors member relative text
    | none => .error .noEditor
  | .refusing _, _, _ => .error .noEditor

def parseAt : List Editor → Nat → Nat → String → Except Fault Cell
  | [], _, _, _ => .error .noEditor
  | editor :: _, 0, column, text => editor.parse column text
  | _ :: editors, member + 1, column, text => parseAt editors member column text

end

end DatasetGrid.Editor
