import WikiTypeset.Files.Bytes

/-!
# Deflated bytes

The compressed format of archives. A row of bits, the lowest of each byte first, is a row of blocks; a block holds
bytes as they are, or words of prefix codes for bytes and for repetitions of what has come before. Main definitions:
`Code`, `Deflate.inflate?`.
-/

namespace WikiTypeset.Files.Deflate

/-- A step of reading; its state is the number of bits that have been read. -/
abbrev Step (α : Type) := StateT Nat Option α

/-- The next bit. -/
def bit (b : ByteArray) : Step Nat := fun i =>
  match b[i / 8]? with
  | some x => some (x.toNat >>> (i % 8) % 2, i + 1)
  | none => none

/-- The number in the next bits, the lowest first. -/
def bits (b : ByteArray) : Nat → Step Nat
  | 0 => pure 0
  | n + 1 => do
    let low ← bit b
    let high ← bits b n
    return low + 2 * high

/-! ### Prefix codes -/

/-- The length of the longest words of a code. -/
def longest : Nat := 15

/-- A prefix code. Shorter words come before longer ones, and words of one length are consecutive numbers. -/
structure Code where
  /-- How many words there are of each length from one on. -/
  counts : List Nat
  /-- The symbols in the order of their words. -/
  symbols : Array Nat

/-- The code in which each symbol has a word of the given length; a symbol of length zero has none. -/
def Code.ofLengths (lengths : List Nat) : Code :=
  let ofLength (n : Nat) : List Nat := lengths.zipIdx.filterMap fun (m, symbol) => if m = n then some symbol else none
  let symbols := (List.range longest).map fun n => ofLength (n + 1)
  { counts := symbols.map (·.length), symbols := symbols.flatten.toArray }

/-- The symbol of the next word. Of words of the length that has been reached, the least is `first`, and `index`
words are shorter. -/
def Code.next (c : Code) (b : ByteArray) : List Nat → (word first index : Nat) → Step Nat
  | [], _, _, _ => failure
  | count :: counts, word, first, index => do
    let word := word + (← bit b)
    if word < first + count then
      match c.symbols[index + (word - first)]? with
      | some symbol => return symbol
      | none => failure
    else c.next b counts (2 * word) (2 * (first + count)) (index + count)

/-- The symbol of the next word. -/
def Code.symbol (c : Code) (b : ByteArray) : Step Nat := c.next b c.counts 0 0 0

/-! ### Blocks -/

/-- The bytes with `n` more, each that of a distance before it. -/
def repeated? (distance : Nat) : Nat → ByteArray → Option ByteArray
  | 0, out => some out
  | n + 1, out =>
    if out.size < distance then none
    else
      match out[out.size - distance]? with
      | some x => repeated? distance n (out.push x)
      | none => none

/-- The least length that a symbol stands for, and the number of bits that add to it. -/
def lengthOf (n : Nat) : Nat × Nat :=
  if n < 8 then (3 + n, 0)
  else if n = 28 then (258, 0)
  else (3 + (4 + n % 4) <<< ((n - 4) / 4), (n - 4) / 4)

/-- The least distance that a symbol stands for, and the number of bits that add to it. -/
def distanceOf (n : Nat) : Nat × Nat :=
  if n < 4 then (1 + n, 0) else (1 + (2 + n % 2) <<< ((n - 2) / 2), (n - 2) / 2)

/-- The number that a symbol and the bits after it stand for. -/
def extended (b : ByteArray) (base : Nat × Nat) : Step Nat := return base.1 + (← bits b base.2)

/-- The bytes with those of a block of words. Every word has a bit, so that as many words as bits are enough. -/
def words (b : ByteArray) (literals distances : Code) : Nat → ByteArray → Step ByteArray
  | 0, _ => failure
  | fuel + 1, out => do
    let symbol ← literals.symbol b
    if symbol < 256 then words b literals distances fuel (out.push symbol.toUInt8)
    else if symbol = 256 then return out
    else
      let length ← extended b (lengthOf (symbol - 257))
      let distance ← extended b (distanceOf (← distances.symbol b))
      match repeated? distance length out with
      | some out => words b literals distances fuel out
      | none => failure

/-- The bytes with those of a block that holds them as they are. It begins at a full byte. -/
def stored (b : ByteArray) (out : ByteArray) : Step ByteArray := do
  let start := ((← get) + 7) / 8
  match Bytes.littleEndian? b start 2, Bytes.littleEndian? b (start + 2) 2 with
  | some length, some check =>
    if length + check ≠ 0xFFFF then failure
    match Bytes.slice? b (start + 4) length with
    | some bytes =>
      set (8 * (start + 4 + length))
      return out ++ bytes
    | none => failure
  | _, _ => failure

/-- The code of literals in blocks that tell none. -/
def fixedLiterals : Code :=
  .ofLengths (List.replicate 144 8 ++ List.replicate 112 9 ++ List.replicate 24 7 ++ List.replicate 8 8)

/-- The code of distances in blocks that tell none. -/
def fixedDistances : Code := .ofLengths (List.replicate 30 5)

/-- The symbols for lengths of words in the order in which their own lengths are told. -/
def lengthOrder : List Nat := [16, 17, 18, 0, 8, 7, 9, 6, 10, 5, 11, 4, 12, 3, 13, 2, 14, 1, 15]

/-- Lengths of words, up to a number of them; the latest first. -/
def lengths (b : ByteArray) (code : Code) (wanted : Nat) : Nat → List Nat → Step (List Nat)
  | 0, told => return told
  | fuel + 1, told => do
    if wanted ≤ told.length then return told
    let symbol ← code.symbol b
    if symbol < 16 then lengths b code wanted fuel (symbol :: told)
    else if symbol = 16 then
      match told with
      | [] => failure
      | last :: _ => lengths b code wanted fuel (List.replicate (3 + (← bits b 2)) last ++ told)
    else
      let zeros ← if symbol = 17 then extended b (3, 3) else extended b (11, 7)
      lengths b code wanted fuel (List.replicate zeros 0 ++ told)

/-- The codes of literals and distances that a block tells. -/
def toldCodes (b : ByteArray) : Step (Code × Code) := do
  let literals ← extended b (257, 5)
  let distances ← extended b (1, 5)
  let count ← extended b (4, 4)
  let told ← (lengthOrder.take count).mapM fun symbol => return (symbol, ← bits b 3)
  let code := Code.ofLengths ((List.range 19).map fun symbol => (told.lookup symbol).getD 0)
  let all := (← lengths b code (literals + distances) (literals + distances) []).reverse
  if all.length ≠ literals + distances then failure
  return (.ofLengths (all.take literals), .ofLengths (all.drop literals))

/-- The bytes with those of the blocks that follow. -/
def blocks (b : ByteArray) : Nat → ByteArray → Step ByteArray
  | 0, _ => failure
  | fuel + 1, out => do
    let isLast ← bit b
    let kind ← bits b 2
    let out ←
      if kind = 0 then stored b out
      else if kind = 1 then words b fixedLiterals fixedDistances (8 * b.size) out
      else if kind = 2 then do
        let (literals, distances) ← toldCodes b
        words b literals distances (8 * b.size) out
      else failure
    if isLast = 1 then return out else blocks b fuel out

/-- The bytes that deflated bytes stand for. -/
def inflate? (b : ByteArray) : Option ByteArray := (blocks b (8 * b.size) .empty 0).map (·.1)

end WikiTypeset.Files.Deflate
