/-!
# Decoding UTF-8

One pass over the bytes, with the continuation bytes still owed held in the state. An ill-formed
stretch, the longest run of bytes that begins a character and cannot end one, decodes to a single
mark; the bytes after it are read afresh.
-/
namespace DatasetGrid.Text.Utf8

/-- A character under way: the bytes it still owes, the code so far, and the range of the next
byte. -/
structure Pending where
  owed : Nat
  code : Nat
  low : Nat := 0x80
  high : Nat := 0xBF

/-- What a first byte opens. The ranges keep out overlong forms, surrogates and codes past
0x10FFFF. -/
def Pending.first (b : Nat) : Option Pending :=
  if b < 0x80 then some { owed := 0, code := b }
  else if b < 0xC2 then none
  else if b < 0xE0 then some { owed := 1, code := b - 0xC0 }
  else if b < 0xF0 then
    some ⟨2, b - 0xE0, if b = 0xE0 then 0xA0 else 0x80, if b = 0xED then 0x9F else 0xBF⟩
  else if b < 0xF5 then
    some ⟨3, b - 0xF0, if b = 0xF0 then 0x90 else 0x80, if b = 0xF4 then 0x8F else 0xBF⟩
  else none

/-- What a step gives: the characters finished, `none` for an ill-formed stretch, and the character
under way. -/
abbrev Step := List (Option Char) × Option Pending

def Pending.settle (p : Pending) : Step :=
  if p.owed = 0 then ([some (Char.ofNat p.code)], none) else ([], some p)

def start (b : Nat) : Step :=
  match Pending.first b with
  | none => ([none], none)
  | some p => p.settle

def step : Option Pending → Nat → Step
  | none, b => start b
  | some p, b =>
    if p.low ≤ b ∧ b ≤ p.high then
      Pending.settle { owed := p.owed - 1, code := p.code * 64 + b % 64 }
    else (none :: (start b).1, (start b).2)

def decodeFrom : Option Pending → List UInt8 → List (Option Char)
  | none, [] => []
  | some _, [] => [none]
  | state, b :: rest => (step state b.toNat).1 ++ decodeFrom (step state b.toNat).2 rest

def decode? (bytes : List UInt8) : Option (List Char) :=
  (decodeFrom none bytes).mapM id

/-- The characters of the bytes, with U+FFFD for each ill-formed stretch. -/
def decode (bytes : List UInt8) : List Char :=
  (decodeFrom none bytes).map (·.getD '\uFFFD')

example : decode [0x61, 0xE2, 0x82, 0x62, 0xF0, 0x9F, 0x98, 0x80, 0xC0, 0x80] =
    ['a', '\uFFFD', 'b', '😀', '\uFFFD', '\uFFFD'] := by decide

end DatasetGrid.Text.Utf8
