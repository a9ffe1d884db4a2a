import DatasetGrid.Editor.Element

/-!
# The text of stored cells

A cell shows by its editor. A value that does not fit its editor shows plainly. Arrays list their
elements, sequences in parentheses, compounds in brackets; bitfields and opaque data in an array
may come as one run of bytes.
-/
namespace DatasetGrid

/-- The bytes of one element, where elements come packed in one run. -/
def Datatype.packedSize? : Datatype → Option Nat
  | .scalar (.bitfield size) | .scalar (.blob size _) => if 0 < size then some size else none
  | _ => none

def listText {σ : Type} (packed : Option Nat) (element : Cell → StateM σ String) (value : Cell) :
    StateM σ String :=
  match value, packed with
  | .array items, _ => do return ", ".intercalate (← items.mapM element)
  | .bytes bs, some size => do
    return ", ".intercalate (← (chunks size bs).mapM fun chunk => element (.bytes chunk))
  | value, _ => pure value.plain

namespace Editor

mutual

def render {σ : Type} (d : Display σ) : Editor → Nat → Cell → StateM σ String
  | .scalar type, _, value => type.render d value
  | .varString _, _, value => pure value.plain
  | .array base _ element, _, value =>
    listText base.packedSize? (fun item => element.render d 0 item) value
  | .sequence base element, _, value => do
    return "(" ++ (← listText base.packedSize? (fun item => element.render d 0 item) value) ++ ")"
  | .compound _ map editors, column, value =>
    match value with
    | .compound items => do
      return "[" ++ ", ".intercalate (← renderMembers d editors items) ++ "]"
    | value =>
      match map.locate? column with
      | some (member, relative) => renderAt d editors member relative value
      | none => pure value.plain
  | .refusing _, _, value => pure value.plain

/-- The texts of the parts of a compound value, each by its member's editor; parts past the last
editor show plainly. -/
def renderMembers {σ : Type} (d : Display σ) :
    List Editor → List Cell → StateM σ (List String)
  | _, [] => pure []
  | [], item :: items => pure (plainTexts (item :: items))
  | editor :: editors, item :: items => do
    let text ← editor.render d 0 item
    return text :: (← renderMembers d editors items)

def renderAt {σ : Type} (d : Display σ) :
    List Editor → Nat → Nat → Cell → StateM σ String
  | [], _, _, value => pure value.plain
  | editor :: _, 0, column, value => editor.render d column value
  | _ :: editors, member + 1, column, value => renderAt d editors member column value

end

end Editor

end DatasetGrid
