/-!
# Blank characters

The characters of the Unicode property White_Space, and removing them from the ends of a text.
-/
namespace DatasetGrid.Text

/-- The code points of the property, as closed ranges in ascending order. -/
def blankRanges : List (Nat × Nat) :=
  [(0x09, 0x0D), (0x20, 0x20), (0x85, 0x85), (0xA0, 0xA0), (0x1680, 0x1680), (0x2000, 0x200A),
    (0x2028, 0x2029), (0x202F, 0x202F), (0x205F, 0x205F), (0x3000, 0x3000)]

def isBlank (c : Char) : Bool :=
  blankRanges.any fun range => range.1 ≤ c.toNat && c.toNat ≤ range.2

def trimLeft (cs : List Char) : List Char :=
  cs.dropWhile isBlank

def trimRight (cs : List Char) : List Char :=
  (cs.reverse.dropWhile isBlank).reverse

def trim (cs : List Char) : List Char :=
  trimRight (trimLeft cs)

example : (blankRanges.map fun range => range.2 + 1 - range.1).sum = 25 := rfl

example : trim "\u00a0 a b\n".toList = "a b".toList := by decide +kernel

end DatasetGrid.Text
