import DatasetGrid.Proofs.Admission
import DatasetGrid.Proofs.Agreement
import DatasetGrid.Proofs.RoundTrip

/-! # Packed bytes

The elements of an array of bitfields or of opaque data may come as one run of bytes. The run is cut
into elements, and shows as they do one by one. What is left over at the end shows as a shorter
element, with which the text is refused.
-/
namespace DatasetGrid

open Token

section Chunks

variable {α : Type} {n : Nat}

end Chunks

namespace Scalar

/-- Bitfields and opaque data, of so many bytes. -/
inductive IsRaw : Scalar → Nat → Prop
  | bitfield (size : Nat) : IsRaw (.bitfield size) size
  | blob (size : Nat) (tag : String) : IsRaw (.blob size tag) size

def byteMark : Scalar → Char
  | .bitfield _ => ':'
  | _ => ' '

def rawText (type : Scalar) (bs : List UInt8) : String :=
  bytesText (.singleton type.byteMark) (.bytes bs)

namespace IsRaw

variable {σ : Type} {type : Scalar} {size : Nat} {bs : List UInt8}

theorem packedSize? (h : type.IsRaw size) (hsize : 0 < size) :
    (Datatype.scalar type).packedSize? = some size := by
  cases h <;> exact if_pos hsize

theorem render (h : type.IsRaw size) (d : Display σ) (bs : List UInt8) :
    type.render d (.bytes bs) = pure (type.rawText bs) := by
  cases h <;> rfl

end IsRaw

end Scalar

namespace Editor

variable {σ : Type} {type : Scalar} {size : Nat}

end Editor

end DatasetGrid
