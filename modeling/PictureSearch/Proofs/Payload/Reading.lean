import Mathlib.Tactic.Ring
import Mathlib.Tactic.Positivity
import PictureSearch.Payload.Coder

/-!
# What coders read

Two facts about reading, whatever the bytes are.

* `Steady`: what is read, or found wrong, stays the same when more bytes stand behind, unless the
  bytes had run out.
* `Yields`: every value that is read fits the coder.

Compound coders read one value behind another, so both are said of functions from bytes, and one
lemma each carries them over to two such functions in turn:

    Steady first → (∀ a, Steady (next a)) → Steady (andThen first next)    (Steady.andThen)
    Yields first fits → (∀ a, fits a → Yields (next a) fits') →
      Yields (andThen first next) fits'                                    (Yields.andThen)
-/

namespace PictureSearch.Payload.Coder

variable {α β : Type}

/-- Bytes behind change nothing and are left over, unless the bytes had run out before. -/
structure Steady (read : List UInt8 → Except Malformed (α × List UInt8)) : Prop where
  ok : ∀ {bytes a rest}, read bytes = .ok (a, rest) →
    ∀ more, read (bytes ++ more) = .ok (a, rest ++ more)
  error : ∀ {bytes e}, read bytes = .error e → e ≠ .endOfBytes →
    ∀ more, read (bytes ++ more) = .error e

/-- All that is read fits. -/
def Yields (read : List UInt8 → Except Malformed (α × List UInt8)) (fits : α → Prop) : Prop :=
  ∀ bytes a rest, read bytes = .ok (a, rest) → fits a

/-- Reads a value and then, as that value says, another one behind it. -/
def andThen (first : List UInt8 → Except Malformed (α × List UInt8))
    (next : α → List UInt8 → Except Malformed (β × List UInt8)) (bytes : List UInt8) :
    Except Malformed (β × List UInt8) :=
  match first bytes with
  | .error e => .error e
  | .ok (a, rest) => next a rest

/-- Reads the given number of bytes as a text. -/
def takeText (count : Nat) (bytes : List UInt8) : Except Malformed (String × List UInt8) :=
  if bytes.length < count then .error .endOfBytes
  else
    match ofUtf8? (bytes.take count) with
    | none => .error .utf8
    | some s => .ok (s, bytes.drop count)

/-! ## Lemmas: one value behind another -/

section

variable {c : Coder α} {d : Coder β}

theorem decode_refine (read : α → Except Malformed β) (write : β → α) :
    (c.refine read write).decode =
      andThen c.decode fun a rest => (read a).map fun b => (b, rest) := rfl

theorem decode_pair :
    (c.pair d).decode =
      andThen c.decode fun a => andThen d.decode fun b rest => .ok ((a, b), rest) := rfl

theorem decode_option :
    c.option.decode = andThen byte.decode fun b rest =>
      if b = 0 then .ok (none, rest)
      else if b = 1 then andThen c.decode (fun a rest => .ok (some a, rest)) rest
      else .error .option := by
  funext bytes
  cases bytes <;> rfl

theorem decodeMany_succ (count : Nat) :
    decodeMany c (count + 1) =
      andThen c.decode fun a => andThen (decodeMany c count) fun as rest => .ok (a :: as, rest) := by
  funext bytes
  simp only [decodeMany, andThen]
  cases c.decode bytes with
  | error e => rfl
  | ok r =>
    dsimp only
    cases decodeMany c count r.2 <;> rfl

theorem decode_list : c.list.decode = andThen word64.decode (decodeMany c) := by
  funext bytes
  simp only [list, andThen]
  cases word64.decode bytes <;> rfl

theorem decode_string : string.decode = andThen word64.decode takeText := by
  funext bytes
  simp only [string, andThen]
  cases word64.decode bytes <;> rfl

theorem decodeVarint_succ (last bytes : Nat) :
    decodeVarint last (bytes + 1) = andThen byte.decode fun b rest =>
      if b.toNat < 128 then
        if bytes = 0 ∧ last < b.toNat then .error .varint else .ok (b.toNat, rest)
      else
        andThen (decodeVarint last bytes) (fun n rest => .ok (b.toNat - 128 + 128 * n, rest))
          rest := by
  funext bs
  cases bs with
  | nil => rfl
  | cons b bs =>
    simp only [decodeVarint, andThen, byte]
    cases decodeVarint last bytes bs <;> rfl

end

/-! ## Lemmas: bytes behind -/

section

variable {c : Coder α} {d : Coder β}

theorem steady_ok (a : α) : Steady fun bytes => .ok (a, bytes) where
  ok h more := by
    cases h
    rfl
  error h := nomatch h

theorem steady_error (e : Malformed) : Steady (α := α) fun _ => .error e where
  ok h := nomatch h
  error h _ _ := h

theorem steady_ite (p : Prop) [Decidable p]
    {read read' : List UInt8 → Except Malformed (α × List UInt8)} (h : p → Steady read)
    (h' : ¬ p → Steady read') : Steady fun bytes => if p then read bytes else read' bytes := by
  by_cases hp : p
  · simpa only [hp, if_true] using h hp
  · simpa only [hp, if_false] using h' hp

theorem Steady.andThen {first : List UInt8 → Except Malformed (α × List UInt8)}
    {next : α → List UInt8 → Except Malformed (β × List UInt8)} (h : Steady first)
    (hnext : ∀ a, Steady (next a)) : Steady (andThen first next) := by
  constructor
  · intro bytes b rest hb more
    unfold Coder.andThen at hb ⊢
    cases ha : first bytes with
    | error e =>
      rw [ha] at hb
      cases hb
    | ok r =>
      rw [ha] at hb
      rw [h.ok ha]
      exact (hnext r.1).ok hb more
  · intro bytes e he hne more
    unfold Coder.andThen at he ⊢
    cases ha : first bytes with
    | error e' =>
      rw [ha] at he
      cases he
      rw [h.error ha hne]
    | ok r =>
      rw [ha] at he
      rw [h.ok ha]
      exact (hnext r.1).error he hne more

theorem steady_byte : Steady byte.decode := by
  constructor
  · intro bytes b rest h more
    cases bytes with
    | nil => cases h
    | cons =>
      cases h
      rfl
  · intro bytes e h hne
    cases bytes with
    | nil =>
      cases h
      exact absurd rfl hne
    | cons => cases h

theorem steady_decodeVarint (last bytes : Nat) : Steady (decodeVarint last bytes) := by
  induction bytes with
  | zero => exact steady_error .varint
  | succ bytes ih =>
    rw [decodeVarint_succ]
    refine steady_byte.andThen fun b => steady_ite _ (fun _ => ?_) fun _ => ?_
    · exact steady_ite _ (fun _ => steady_error .varint) fun _ => steady_ok b.toNat
    · exact ih.andThen fun n => steady_ok _

theorem steady_word64 : Steady word64.decode := steady_decodeVarint 1 10

theorem steady_word32 : Steady word32.decode := steady_decodeVarint 15 5

theorem steady_refine (h : Steady c.decode) (read : α → Except Malformed β) (write : β → α) :
    Steady (c.refine read write).decode := by
  rw [decode_refine]
  refine h.andThen fun a => ?_
  cases read a with
  | error e => exact steady_error e
  | ok b => exact steady_ok b

theorem steady_map (h : Steady c.decode) (read : α → β) (write : β → α) :
    Steady (c.map read write).decode :=
  steady_refine h _ write

theorem steady_pair (hc : Steady c.decode) (hd : Steady d.decode) : Steady (c.pair d).decode := by
  rw [decode_pair]
  exact hc.andThen fun a => hd.andThen fun b => steady_ok (a, b)

theorem steady_bool : Steady bool.decode := steady_refine steady_byte _ _

theorem steady_option (h : Steady c.decode) : Steady c.option.decode := by
  rw [decode_option]
  refine steady_byte.andThen fun b => steady_ite _ (fun _ => steady_ok none) fun _ => ?_
  exact steady_ite _ (fun _ => h.andThen fun a => steady_ok (some a)) fun _ => steady_error .option

theorem steady_list (h : Steady c.decode) : Steady c.list.decode := by
  rw [decode_list]
  refine steady_word64.andThen fun count => ?_
  induction count with
  | zero => exact steady_ok []
  | succ count ih =>
    rw [decodeMany_succ]
    exact h.andThen fun a => ih.andThen fun as => steady_ok (a :: as)

theorem steady_takeText (count : Nat) : Steady (takeText count) := by
  have hmore : ∀ {bytes : List UInt8}, ¬ bytes.length < count → ∀ more,
      takeText count (bytes ++ more) = (takeText count bytes).map fun r => (r.1, r.2 ++ more) := by
    intro bytes h more
    have hle : count ≤ bytes.length := Nat.le_of_not_lt h
    have hlong : ¬ (bytes ++ more).length < count := by
      rw [List.length_append]
      omega
    unfold takeText
    rw [if_neg h, if_neg hlong, List.take_append_of_le_length hle,
      List.drop_append_of_le_length hle]
    cases ofUtf8? (bytes.take count) <;> rfl
  constructor
  · intro bytes s rest h more
    by_cases hshort : bytes.length < count
    · simp [takeText, hshort] at h
    · rw [hmore hshort, h]
      rfl
  · intro bytes e h hne more
    by_cases hshort : bytes.length < count
    · simp only [takeText, hshort, if_true] at h
      cases h
      exact absurd rfl hne
    · rw [hmore hshort, h]
      rfl

theorem steady_string : Steady string.decode := by
  rw [decode_string]
  exact steady_word64.andThen steady_takeText

end

/-! ## Lemmas: what is read fits -/

section

variable {c : Coder α} {d : Coder β} {fits : α → Prop} {fits' : β → Prop}

theorem Yields.imp {read : List UInt8 → Except Malformed (α × List UInt8)} (h : Yields read fits)
    {wider : α → Prop} (hf : ∀ a, fits a → wider a) : Yields read wider :=
  fun bytes a rest hread => hf a (h bytes a rest hread)

theorem yields_true (read : List UInt8 → Except Malformed (α × List UInt8)) :
    Yields read fun _ => True :=
  fun _ _ _ _ => trivial

theorem yields_ok {a : α} (h : fits a) : Yields (fun bytes => .ok (a, bytes)) fits := by
  intro bytes b rest hb
  cases hb
  exact h

theorem yields_error (e : Malformed) : Yields (fun _ => .error e) fits := nofun

theorem yields_ite (p : Prop) [Decidable p]
    {read read' : List UInt8 → Except Malformed (α × List UInt8)} (h : p → Yields read fits)
    (h' : ¬ p → Yields read' fits) :
    Yields (fun bytes => if p then read bytes else read' bytes) fits := by
  by_cases hp : p
  · simpa only [hp, if_true] using h hp
  · simpa only [hp, if_false] using h' hp

theorem Yields.andThen {first : List UInt8 → Except Malformed (α × List UInt8)}
    {next : α → List UInt8 → Except Malformed (β × List UInt8)} (h : Yields first fits)
    (hnext : ∀ a, fits a → Yields (next a) fits') : Yields (andThen first next) fits' := by
  intro bytes b rest hb
  unfold Coder.andThen at hb
  cases ha : first bytes with
  | error e =>
    rw [ha] at hb
    cases hb
  | ok r =>
    rw [ha] at hb
    exact hnext r.1 (h _ _ _ ha) _ _ _ hb

theorem yields_decodeVarint (last bytes : Nat) :
    Yields (decodeVarint last (bytes + 1)) (· < 128 ^ bytes * (last + 1)) := by
  induction bytes with
  | zero =>
    rw [decodeVarint_succ]
    refine (yields_true _).andThen fun b _ => yields_ite _ (fun _ => ?_) fun _ => ?_
    · refine yields_ite _ (fun _ => yields_error _) fun hb => yields_ok ?_
      omega
    · exact (yields_error .varint : Yields _ fun _ => False).andThen nofun
  | succ bytes ih =>
    have hpos : 0 < 128 ^ bytes * (last + 1) := by positivity
    have hpow : 128 ^ (bytes + 1) * (last + 1) = 128 * (128 ^ bytes * (last + 1)) := by ring
    rw [decodeVarint_succ]
    refine (yields_true _).andThen fun b _ => yields_ite _ (fun hb => ?_) fun _ => ?_
    · refine yields_ite _ (fun _ => yields_error _) fun _ => yields_ok ?_
      omega
    · refine ih.andThen fun n hn => yields_ok ?_
      have := b.toNat_lt
      omega

theorem yields_word64 : Yields word64.decode (· < UInt64.size) := yields_decodeVarint 1 9

theorem yields_map (h : Yields c.decode fits) {read : α → β} {write : β → α}
    (hread : ∀ a, fits a → fits' (read a)) : Yields (c.map read write).decode fits' := by
  show Yields (c.refine _ _).decode fits'
  rw [decode_refine]
  exact h.andThen fun a ha => yields_ok (hread a ha)

theorem yields_pair (hc : Yields c.decode fits) (hd : Yields d.decode fits') :
    Yields (c.pair d).decode fun p => fits p.1 ∧ fits' p.2 := by
  rw [decode_pair]
  exact hc.andThen fun a ha => hd.andThen fun b hb => yields_ok ⟨ha, hb⟩

theorem yields_option (h : Yields c.decode fits) :
    Yields c.option.decode fun o => ∀ a ∈ o, fits a := by
  rw [decode_option]
  refine (yields_true _).andThen fun b _ => yields_ite _ (fun _ => yields_ok nofun) fun _ => ?_
  refine yields_ite _ (fun _ => h.andThen fun a ha => yields_ok ?_) fun _ => yields_error _
  rintro _ ⟨⟩
  exact ha

theorem yields_decodeMany (h : Yields c.decode fits) (count : Nat) :
    Yields (decodeMany c count) fun as => as.length = count ∧ ∀ a ∈ as, fits a := by
  induction count with
  | zero => exact yields_ok ⟨rfl, nofun⟩
  | succ count ih =>
    rw [decodeMany_succ]
    refine h.andThen fun a ha => ih.andThen fun as has => yields_ok ⟨?_, ?_⟩
    · rw [List.length_cons, has.1]
    · exact List.forall_mem_cons.2 ⟨ha, has.2⟩

theorem yields_list (h : Yields c.decode fits) :
    Yields c.list.decode fun as => as.length < UInt64.size ∧ ∀ a ∈ as, fits a := by
  rw [decode_list]
  refine yields_word64.andThen fun count hcount => (yields_decodeMany h count).imp fun as has => ?_
  exact ⟨has.1 ▸ hcount, has.2⟩

theorem utf8ByteSize_of_ofUtf8? {bytes : List UInt8} {s : String} (h : ofUtf8? bytes = some s) :
    s.utf8ByteSize = bytes.length := by
  unfold ofUtf8? String.fromUTF8? at h
  split at h
  · cases h
    rfl
  · cases h

theorem yields_string : Yields string.decode fun s => s.utf8ByteSize < UInt64.size := by
  rw [decode_string]
  refine yields_word64.andThen fun count hcount => ?_
  intro bytes s rest h
  unfold takeText at h
  split at h
  · cases h
  · split at h
    · cases h
    · next hs =>
      cases h
      rw [utf8ByteSize_of_ofUtf8? hs]
      exact Nat.lt_of_le_of_lt (List.length_take_le _ _) hcount

end

end PictureSearch.Payload.Coder
