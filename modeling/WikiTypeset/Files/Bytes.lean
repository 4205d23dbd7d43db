/-!
# Numbers in bytes

Numbers in a row of bytes, the low or the high byte first. What lies behind the end of the row is none. Main
definitions: `littleEndian?`, `bigEndian?` and `slice?`.
-/

namespace WikiTypeset.Files.Bytes

/-- The number in `length` bytes from `start` on, the low byte first. -/
def littleEndian? (b : ByteArray) (start : Nat) : Nat → Option Nat
  | 0 => some 0
  | length + 1 => do
    let low ← b[start]?
    let high ← littleEndian? b (start + 1) length
    return low.toNat + 256 * high

/-- The number in `length` bytes from `start` on, the high byte first. -/
def bigEndian? (b : ByteArray) (start length : Nat) : Option Nat :=
  (List.range length).foldlM (fun high n => (b[start + n]?).map fun low => 256 * high + low.toNat) 0

/-- The `length` bytes from `start` on. -/
def slice? (b : ByteArray) (start length : Nat) : Option ByteArray :=
  if start + length ≤ b.size then some (b.extract start (start + length)) else none

end WikiTypeset.Files.Bytes
