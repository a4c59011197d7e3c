import Mathlib.Algebra.Group.Nat.Defs
import Mathlib.Data.List.Basic
import PictureSearch.Payload.Frame

/-!
# Frames are unpacked as they were packed

A frame gives its bytes back, block by block; only the bytes that a word does not count are lost to
the check of the size in its header:

    unpack (pack bytes) = if bytes.length < UInt64.size then some bytes else none     (unpack_pack)
-/

namespace PictureSearch.Payload.Frame

/-! ## Lemmas: numbers in bytes -/

theorem length_littleEndian (count n : Nat) : (littleEndian count n).length = count := by
  induction count generalizing n with
  | zero => rfl
  | succ count ih => rw [littleEndian, List.length_cons, ih]

theorem ofLittleEndian_littleEndian (count n : Nat) :
    ofLittleEndian (littleEndian count n) = n % 256 ^ count := by
  induction count generalizing n with
  | zero => rw [Nat.pow_zero, Nat.mod_one]; rfl
  | succ count ih =>
    calc ofLittleEndian (littleEndian (count + 1) n)
        = n % 256 + 256 * (n / 256 % 256 ^ count) := by
          rw [littleEndian, ofLittleEndian, ih, UInt8.toNat_ofNat']
      _ = n % (256 * 256 ^ count) := (Nat.mod_mul).symm
      _ = n % 256 ^ (count + 1) := by rw [Nat.pow_succ']

/-! ## Lemmas: blocks -/

theorem unpackBlocks_header {isLast : Bool} {size : Nat} (h : size ≤ blockSize)
    (rest : List UInt8) :
    unpackBlocks (blockHeader isLast size ++ rest) =
      if isLast then if rest.length = size then some rest else none
      else if size ≤ rest.length then (unpackBlocks (rest.drop size)).map (rest.take size ++ ·)
        else none := by
  unfold blockSize at h
  obtain ⟨a, b, c, habc⟩ : ∃ a b c, blockHeader isLast size = [a, b, c] :=
    List.length_eq_three.1 (length_littleEndian 3 _)
  have hnumber : ofLittleEndian [a, b, c] = 8 * size + if isLast then 1 else 0 := by
    rw [← habc, blockHeader, ofLittleEndian_littleEndian]
    apply Nat.mod_eq_of_lt
    split <;> omega
  rw [habc, List.cons_append, List.cons_append, List.cons_append, List.nil_append, unpackBlocks,
    hnumber]
  cases isLast with
  | true =>
    have hkind : (8 * size + 1) % 8 = 1 := by omega
    have hsize : (8 * size + 1) / 8 = size := by omega
    simp only [if_true, hkind, hsize]
  | false =>
    have hkind : 8 * size % 8 = 0 := by omega
    have hsize : 8 * size / 8 = size := by omega
    simp [hkind, hsize]

theorem unpackBlocks_blocks (bytes : List UInt8) : unpackBlocks (blocks bytes) = some bytes := by
  fun_induction blocks bytes with
  | case1 bytes h => rw [unpackBlocks_header h, if_pos rfl, if_pos rfl]
  | case2 bytes h ih =>
    have hlength : (bytes.take blockSize).length = blockSize := by
      rw [List.length_take]
      omega
    rw [List.append_assoc, unpackBlocks_header (Nat.le_refl _), if_neg (by decide), if_pos,
      List.drop_left' hlength, List.take_left' hlength, ih, Option.map_some,
      List.take_append_drop]
    rw [List.length_append, hlength]
    exact Nat.le_add_right _ _

/-! ## Top theorem -/

/-- **A frame is unpacked as it was packed**, unless it is too long for a word to count. -/
theorem unpack_pack (bytes : List UInt8) :
    unpack (pack bytes) = if bytes.length < UInt64.size then some bytes else none := by
  have hopening : opening.isPrefixOf (pack bytes) = true := by
    rw [List.isPrefixOf_iff_prefix, pack, List.append_assoc]
    exact List.prefix_append _ _
  have hrest : (pack bytes).drop opening.length =
      littleEndian 8 bytes.length ++ blocks bytes := by
    rw [pack, List.append_assoc, List.drop_left]
  have hheader := length_littleEndian 8 bytes.length
  have hwords : (256 : Nat) ^ 8 = UInt64.size := rfl
  unfold unpack
  rw [if_pos hopening, hrest]
  dsimp only
  rw [List.drop_left' hheader, List.take_left' hheader, unpackBlocks_blocks,
    ofLittleEndian_littleEndian, hwords]
  by_cases h : bytes.length < UInt64.size
  · simp [h, Nat.mod_eq_of_lt h]
  · have hne : bytes.length ≠ bytes.length % UInt64.size := by
      have := Nat.mod_lt bytes.length (by decide : 0 < UInt64.size)
      omega
    simp [h, hne]

end PictureSearch.Payload.Frame
