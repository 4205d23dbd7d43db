import WikiTypeset.Files.Deflate

/-!
# Archives

The file format of archives. A directory at the end of the file lists the members; each stands somewhere before it
under a head of its own, as it is or deflated, with a checksum. Main definition: `Archive.members?`.
-/

namespace WikiTypeset.Files.Archive

open Bytes

/-- One step of the checksum: the remainder takes a bit in. -/
def shiftRemainder (r : UInt32) : UInt32 := if r &&& 1 = 1 then (r >>> 1) ^^^ 0xEDB88320 else r >>> 1

/-- The checksum of bytes. -/
def checksum (b : ByteArray) : UInt32 :=
  let step (r : UInt32) (x : UInt8) : UInt32 :=
    (List.range 8).foldl (fun r _ => shiftRemainder r) (r ^^^ x.toUInt32)
  b.foldl step 0xFFFFFFFF ^^^ 0xFFFFFFFF

/-- The characters of the bytes from 128 on, in names that are not known to be of another encoding. -/
def upperHalf : List Char :=
  ("ÇüéâäàåçêëèïîìÄÅÉæÆôöòûùÿÖÜ¢£¥₧ƒáíóúñÑªº¿⌐¬½¼¡«»░▒▓│┤╡╢╖╕╣║╗╝╜╛┐└┴┬├─┼╞╟╚╔╩╦╠═╬╧╨╤╥╙╘╒╓╫╪┘┌█▄▌▐▀" ++
    "αßΓπΣσµτΦΘΩδ∞φε∩≡±≥≤⌠⌡÷≈°∙·√ⁿ²■\u00a0").toList

/-- The name that bytes write. -/
def nameOf? (isUnicode : Bool) (b : ByteArray) : Option String :=
  if isUnicode then String.fromUTF8? b
  else
    some (String.ofList (b.toList.map fun x =>
      if x < 128 then Char.ofNat x.toNat else upperHalf.getD (x.toNat - 128) ' '))

/-- A member as the directory lists it. -/
structure Listed where
  name : String
  /-- The number of the way in which it is stored. -/
  method : Nat
  check : Nat
  /-- How many bytes are stored. -/
  length : Nat
  /-- Where its head is. -/
  place : Nat

/-- The member that is listed at a place, and the place behind its entry. -/
def listed? (b : ByteArray) (i : Nat) : Option (Listed × Nat) := do
  if (← littleEndian? b i 4) ≠ 0x02014B50 then none
  let flags ← littleEndian? b (i + 8) 2
  let nameLength ← littleEndian? b (i + 28) 2
  let name ← nameOf? (flags >>> 11 % 2 = 1) (← slice? b (i + 46) nameLength)
  let listed : Listed := {
    name
    method := ← littleEndian? b (i + 10) 2
    check := ← littleEndian? b (i + 16) 4
    length := ← littleEndian? b (i + 20) 4
    place := ← littleEndian? b (i + 42) 4 }
  return (listed, i + 46 + nameLength + (← littleEndian? b (i + 30) 2) + (← littleEndian? b (i + 32) 2))

/-- The members that are listed from a place on. -/
def directory? (b : ByteArray) : Nat → Nat → Option (List Listed)
  | 0, _ => some []
  | count + 1, i => do
    let (member, i) ← listed? b i
    return member :: (← directory? b count i)

/-- What a member holds. -/
def Listed.content? (m : Listed) (b : ByteArray) : Option ByteArray := do
  if (← littleEndian? b m.place 4) ≠ 0x04034B50 then none
  let start := m.place + 30 + (← littleEndian? b (m.place + 26) 2) + (← littleEndian? b (m.place + 28) 2)
  let stored ← slice? b start m.length
  let content ← if m.method = 0 then some stored else if m.method = 8 then Deflate.inflate? stored else none
  if (checksum content).toNat = m.check then some content else none

/-- Where the end of the directory is told: at the last place where it may be. -/
def endPlace? (b : ByteArray) : Option Nat :=
  let farthest := b.size - 22
  ((List.range (min farthest 0xFFFF + 1)).map (farthest - ·)).find? fun i => littleEndian? b i 4 == some 0x06054B50

/-- The members of an archive by their names, in the order of the directory. -/
def members? (b : ByteArray) : Option (List (String × ByteArray)) := do
  let last ← endPlace? b
  let members ← directory? b (← littleEndian? b (last + 10) 2) (← littleEndian? b (last + 16) 4)
  members.mapM fun m => return (m.name, ← m.content? b)

end WikiTypeset.Files.Archive
