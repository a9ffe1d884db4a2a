import DatasetGrid.Cell
import DatasetGrid.Fault
import DatasetGrid.Text.Numeral
import DatasetGrid.Text.Words

/-!
# Cells of raw bytes

Bitfields and opaque data show as hexadecimal bytes. An edit gives exactly as many bytes as the
member has, of one or two digits each, between colons, commas or blanks.
-/
namespace DatasetGrid

def hexText (b : UInt8) : List Char :=
  [Nat.digitChar (b.toNat / 16), Nat.digitChar (b.toNat % 16)]

def readByte? : List Char → Option UInt8
  | [low] => (Text.digitOf 16 low).map UInt8.ofNat
  | [high, low] => do
    let h ← Text.digitOf 16 high
    let l ← Text.digitOf 16 low
    return UInt8.ofNat (h * 16 + l)
  | _ => none

def separatesBytes (c : Char) : Bool :=
  c = ':' || c = ',' || Text.isBlank c

def parseBytes (size : Nat) (text : String) : Except Fault (List UInt8) :=
  let words := Text.words separatesBytes text.toList
  if words.length = size then
    match words.mapM readByte? with
    | some bytes => .ok bytes
    | none => .error (.malformedBytes text size)
  else .error (.malformedBytes text size)

def bytesText (separator : String) : Cell → String
  | .bytes bs => separator.intercalate (bs.map fun b => .ofList (hexText b))
  | value => value.plain

end DatasetGrid
