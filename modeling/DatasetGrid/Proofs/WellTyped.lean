import DatasetGrid.Cell
import DatasetGrid.Datatype.Basic
import DatasetGrid.Proofs.Numerals
import DatasetGrid.Proofs.Tokens

/-! # The values of a datatype

A value of a datatype has its shape throughout: integers of the sign and in the range, bytes of the
exact count, one item for each element and each member. Apart from that stand the datatypes whose
texts tell their values exactly, and the values whose texts a list can hold.
-/
namespace DatasetGrid

/-- Signed words for a signed type, unsigned words for an unsigned one, in its range. -/
def IntegerType.holds (type : IntegerType) (value : Cell) : Bool :=
  match type.range?, value with
  | some (min, max), .int n => type.signed && min ≤ n.toInt && n.toInt ≤ max
  | some (_, max), .uint n => !type.signed && n.toNat ≤ max
  | _, _ => false

def StringLength.holds : StringLength → String → Bool
  | .fixed limit, text => text.utf8ByteSize ≤ limit
  | .variable, _ => true

namespace Scalar

/-- Integers in range, texts within the limit, bytes of the exact count, addresses of as many
bytes as the reference has. -/
def holds : Scalar → Cell → Bool
  | .integer type, value | .enumeration type _, value => type.holds value
  | .char signed, value => IntegerType.holds ⟨1, signed⟩ value
  | .float _, .real _ => true
  | .string length, .text text => length.holds text
  | .bitfield size, .bytes bs | .blob size _, .bytes bs => bs.length = size
  | .reference size _, .uint n => ¬ size ∈ [1, 2, 4] ∨ n.toNat < 256 ^ size
  | _, _ => false

/-- No floating-point number, sizes that can be edited, and names of enumerations that no other
entry spells. -/
def isExact : Scalar → Bool
  | .integer type => type.size ∈ [1, 2, 4, 8]
  | .float _ => false
  | .char _ | .string _ => true
  | .enumeration base members =>
    base.size ∈ [1, 2, 4, 8] && decide (members.map (·.name)).Nodup &&
      members.all fun m => Token.isWord m.name.toList && !Text.isNumeral m.name.toList
  | .bitfield size | .blob size _ => 0 < size
  | .reference size _ => size ∈ [1, 2, 4] ∨ 8 ≤ size

end Scalar

namespace Datatype

mutual

/-- A variable-length sequence of strings counts as one text. -/
def holds : Datatype → Cell → Bool
  | .scalar type, value => type.holds value
  | .array base dims, .array items =>
    items.length = elementCount dims && items.all fun item => base.holds item
  | .sequence base, .array items => !base.isString && items.all fun item => base.holds item
  | .sequence base, .text _ => base.isString
  | .compound members, .compound items => holdsMembers members items
  | _, _ => false

def holdsMembers : List (Member Datatype) → List Cell → Bool
  | [], [] => true
  | member :: members, item :: items => member.type.holds item && holdsMembers members items
  | _, _ => false

end

mutual

/-- Exact scalars only, no array without elements and no compound without members. -/
def isExact : Datatype → Bool
  | .scalar type => type.isExact
  | .array base dims => base.isExact && dims.all (0 < ·)
  | .sequence base => base.isExact
  | .compound members => !members.isEmpty && areExact members

def areExact : List (Member Datatype) → Bool
  | [] => true
  | member :: members => member.type.isExact && areExact members

end

theorem areExact_eq_all (members : List (Member Datatype)) :
    areExact members = members.all fun m => m.type.isExact := by
  induction members with
  | nil => rfl
  | cons m rest ih => rw [areExact, ih, List.all_cons]

end Datatype

namespace Cell

mutual

/-- Every text in the value stands in a list as one token. -/
def hasWords : Cell → Bool
  | .text s => Token.isWord s.toList
  | .array items | .compound items => haveWords items
  | _ => true

def haveWords : List Cell → Bool
  | [] => true
  | item :: items => item.hasWords && haveWords items

end

theorem haveWords_eq_all (items : List Cell) : haveWords items = items.all hasWords := by
  induction items with
  | nil => rfl
  | cons item rest ih => rw [haveWords, ih, List.all_cons]

mutual

/-- The parts of a value: its bytes, its words, and one at least for every item. Each has a place of
its own in memory, so of the values that exist none has more parts than there are words. -/
def extent : Cell → Nat
  | .bytes bs => max 1 bs.length
  | .array items | .compound items => max 1 (extents items)
  | _ => 1

def extents : List Cell → Nat
  | [] => 0
  | item :: items => item.extent + extents items

end

theorem extent_pos (value : Cell) : 0 < value.extent := by
  cases value with
  | bytes bs => exact Nat.lt_of_lt_of_le Nat.one_pos (Nat.le_max_left _ _)
  | array items => exact Nat.lt_of_lt_of_le Nat.one_pos (Nat.le_max_left _ _)
  | compound items => exact Nat.lt_of_lt_of_le Nat.one_pos (Nat.le_max_left _ _)
  | _ => exact Nat.one_pos

theorem extent_le_extents {items : List Cell} {item : Cell} (h : item ∈ items) :
    item.extent ≤ extents items := by
  induction items with
  | nil => cases h
  | cons first rest ih =>
    rw [extents]
    rcases List.mem_cons.mp h with rfl | hrest
    · exact Nat.le_add_right _ _
    · exact Nat.le_trans (ih hrest) (Nat.le_add_left _ _)

/-- Every text in the value is one token of a list, and the tokens of the list can be counted. -/
def fitsList (value : Cell) : Bool :=
  value.hasWords && decide (value.extent < wordCount)

theorem fitsList_of_mem {items : List Cell} (hwords : haveWords items = true)
    (hextent : max 1 (extents items) < wordCount) {item : Cell} (h : item ∈ items) :
    item.fitsList = true := by
  rw [haveWords_eq_all, List.all_eq_true] at hwords
  have hle := extent_le_extents h
  rw [fitsList, hwords item h, Bool.true_and, decide_eq_true_eq]
  omega

/-- A value that a list can hold; a text by itself may be any. -/
def isListable : Cell → Bool
  | .text _ => true
  | value => value.fitsList

end Cell

end DatasetGrid
