/-!
# Frames

A cache file is one Zstandard frame whose blocks hold their bytes as they are: a mark, a header
with the size of the content, and blocks of at most `2 ^ 17` bytes, each behind three bytes that
give its size and whether it is the last.

Other writers of the format make frames with compressed blocks, with blocks that repeat one byte, or
with another header.  Those are not unpacked here: they are refused, and a cache that holds one
counts as unusable.
-/

namespace PictureSearch.Payload.Frame

/-- A number in `count` bytes, the lowest first. -/
def littleEndian : (count : Nat) → Nat → List UInt8
  | 0, _ => []
  | count + 1, n => UInt8.ofNat n :: littleEndian count (n / 256)

/-- The number of bytes, the lowest first. -/
def ofLittleEndian : List UInt8 → Nat
  | [] => 0
  | b :: rest => b.toNat + 256 * ofLittleEndian rest

/-- The mark of a frame, and the header byte for one segment with its size in eight bytes. -/
def opening : List UInt8 := [0x28, 0xB5, 0x2F, 0xFD, 0xE0]

/-- The most bytes of a block, `2 ^ 17`. -/
def blockSize : Nat := 131072

def blockHeader (isLast : Bool) (size : Nat) : List UInt8 :=
  littleEndian 3 (8 * size + if isLast then 1 else 0)

/-- The blocks of some bytes. -/
def blocks (bytes : List UInt8) : List UInt8 :=
  if _h : bytes.length ≤ blockSize then blockHeader true bytes.length ++ bytes
  else
    blockHeader false blockSize ++ bytes.take blockSize ++ blocks (bytes.drop blockSize)
  termination_by bytes.length
  decreasing_by
    simp only [blockSize, List.length_drop] at *
    omega

/-- The frame of some bytes. -/
def pack (bytes : List UInt8) : List UInt8 :=
  opening ++ littleEndian 8 bytes.length ++ blocks bytes

/-- The content of blocks that end with the last of them. -/
def unpackBlocks : List UInt8 → Option (List UInt8)
  | a :: b :: c :: rest =>
    let header := ofLittleEndian [a, b, c]
    let size := header / 8
    if header % 8 = 1 then if rest.length = size then some rest else none
    else if header % 8 = 0 ∧ size ≤ rest.length then
      (unpackBlocks (rest.drop size)).map (rest.take size ++ ·)
    else none
  | _ => none
  termination_by bytes => bytes.length
  decreasing_by
    simp only [List.length_drop, List.length_cons]
    omega

/-- The content of a frame. -/
def unpack (bytes : List UInt8) : Option (List UInt8) :=
  if opening.isPrefixOf bytes then
    let rest := bytes.drop opening.length
    (unpackBlocks (rest.drop 8)).filter fun content =>
      content.length == ofLittleEndian (rest.take 8)
  else none

end PictureSearch.Payload.Frame
