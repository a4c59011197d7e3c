import Mathlib.Tactic.Ring
import PictureSearch.Payload.Coder

/-!
# Coders lose nothing

A coder is lossless on the values that fit if what it writes of such a value is read back, whatever
bytes stand behind it.  Numbers fit when they are below the bound of their coder, texts and lists
when a word counts them, and compound values when their parts do:

    c.Lossless fits → c.list.Lossless fun as =>
      as.length < UInt64.size ∧ ∀ a ∈ as, fits a                           (lossless_list)
-/

namespace PictureSearch.Payload.Coder

variable {α β : Type} {c : Coder α} {d : Coder β} {fits : α → Prop} {fits' : β → Prop}

/-- What is written of a value that fits is read back, and the bytes behind it are left. -/
def Lossless (c : Coder α) (fits : α → Prop) : Prop :=
  ∀ a, fits a → ∀ rest, c.decode (c.encode a ++ rest) = .ok (a, rest)

theorem Lossless.imp (h : c.Lossless fits) {fewer : α → Prop} (hf : ∀ a, fewer a → fits a) :
    c.Lossless fewer :=
  fun a ha => h a (hf a ha)

/-! ## Numbers -/

theorem lossless_byte : byte.Lossless fun _ => True := fun _ _ _ => rfl

theorem toNat_byte {n : Nat} (h : n < 256) : (UInt8.ofNat n).toNat = n :=
  UInt8.toNat_ofNat_of_lt' h

theorem decodeVarint_encodeVarint {last : Nat} (hlast : last < 128) (bytes : Nat) {n : Nat}
    (hn : n < 128 ^ bytes * (last + 1)) (rest : List UInt8) :
    decodeVarint last (bytes + 1) (encodeVarint (bytes + 1) n ++ rest) = .ok (n, rest) := by
  induction bytes generalizing n with
  | zero =>
    have hbyte : (UInt8.ofNat n).toNat = n := toNat_byte (by omega)
    have hsmall : n < 128 := by omega
    have hle : n ≤ last := by omega
    simp [encodeVarint, decodeVarint, hsmall, hbyte, hle]
  | succ bytes ih =>
    unfold encodeVarint
    by_cases hsmall : n < 128
    · have hbyte : (UInt8.ofNat n).toNat = n := toNat_byte (by omega)
      simp [decodeVarint, hsmall, hbyte]
    · have hbyte : (UInt8.ofNat (n % 128 + 128)).toNat = n % 128 + 128 := toNat_byte (by omega)
      have hhigh : n / 128 < 128 ^ bytes * (last + 1) := by
        rw [Nat.div_lt_iff_lt_mul (by decide)]
        calc n < 128 ^ (bytes + 1) * (last + 1) := hn
          _ = 128 ^ bytes * (last + 1) * 128 := by ring
      have hlarge : ¬ n % 128 + 128 < 128 := by omega
      rw [if_neg hsmall, List.cons_append]
      unfold decodeVarint
      rw [hbyte, if_neg hlarge, ih hhigh]
      have hsum : n % 128 + 128 - 128 + 128 * (n / 128) = n := by omega
      simp only [hsum]

theorem lossless_word64 : word64.Lossless (· < UInt64.size) := fun _ hn rest =>
  decodeVarint_encodeVarint (by decide) 9 (by simpa [UInt64.size] using hn) rest

theorem lossless_word32 : word32.Lossless (· < UInt32.size) := fun _ hn rest =>
  decodeVarint_encodeVarint (by decide) 4 (by simpa [UInt32.size] using hn) rest

/-! ## Compound values -/

theorem lossless_refine (h : c.Lossless fits) {read : α → Except Malformed β} {write : β → α}
    (hwrite : ∀ b, fits' b → fits (write b)) (hread : ∀ b, fits' b → read (write b) = .ok b) :
    (c.refine read write).Lossless fits' := by
  intro b hb rest
  simp [refine, h _ (hwrite b hb), hread b hb, Except.map]

theorem lossless_map (h : c.Lossless fits) {read : α → β} {write : β → α}
    (hwrite : ∀ b, fits' b → fits (write b)) (hread : ∀ b, fits' b → read (write b) = b) :
    (c.map read write).Lossless fits' :=
  lossless_refine h hwrite fun b hb => congrArg Except.ok (hread b hb)

theorem lossless_pair (hc : c.Lossless fits) (hd : d.Lossless fits') :
    (c.pair d).Lossless fun p => fits p.1 ∧ fits' p.2 := by
  rintro ⟨a, b⟩ ⟨ha, hb⟩ rest
  simp [pair, hc a ha, hd b hb]

theorem lossless_bool : bool.Lossless fun _ => True :=
  lossless_refine lossless_byte (fun _ _ => trivial) fun b _ => by cases b <;> rfl

theorem lossless_option (h : c.Lossless fits) : c.option.Lossless fun o => ∀ a ∈ o, fits a := by
  rintro (_ | a) ha rest
  · rfl
  · simp [option, h a (ha a rfl)]

theorem decodeMany_flatMap (h : c.Lossless fits) {as : List α} (has : ∀ a ∈ as, fits a)
    (rest : List UInt8) :
    decodeMany c as.length (as.flatMap c.encode ++ rest) = .ok (as, rest) := by
  induction as with
  | nil => rfl
  | cons a as ih =>
    rw [List.forall_mem_cons] at has
    rw [List.flatMap_cons, List.length_cons, List.append_assoc, decodeMany, h a has.1]
    simp only [ih has.2]

theorem lossless_list (h : c.Lossless fits) :
    c.list.Lossless fun as => as.length < UInt64.size ∧ ∀ a ∈ as, fits a := by
  rintro as ⟨hlength, has⟩ rest
  simp only [list, List.append_assoc, lossless_word64 _ hlength]
  exact decodeMany_flatMap h has rest

/-! ## Text -/

theorem ofUtf8?_utf8 (s : String) : ofUtf8? (utf8 s) = some s := dif_pos s.isValidUTF8

theorem length_utf8 (s : String) : (utf8 s).length = s.utf8ByteSize := rfl

theorem lossless_string : string.Lossless fun s => s.utf8ByteSize < UInt64.size := by
  intro s hs rest
  simp only [string, List.append_assoc, length_utf8, lossless_word64 _ hs]
  have hlength : ¬ (utf8 s ++ rest).length < s.utf8ByteSize := by
    rw [List.length_append, length_utf8]
    omega
  rw [if_neg hlength, ← length_utf8, List.take_left, List.drop_left, ofUtf8?_utf8]

end PictureSearch.Payload.Coder
