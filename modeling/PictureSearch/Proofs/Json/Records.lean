import Mathlib.Data.List.Nodup
import PictureSearch.Json.Fields
import PictureSearch.Proofs.Json.Escapes
import PictureSearch.Proofs.Outcome

/-!
# Values that are written as JSON

An object writes a record if it holds each field once, in any order.  A field whose value is its
default may be left out, and members under other keys are passed over, whatever their values are
and however often they are repeated.  The fields are found again by name:

    WritesRecord fields v → ∃ fs, fields? names v = some fs ∧ ∀ f ∈ fields, Found fs f
                                                                       (WritesRecord.exists_fields?)
-/

namespace PictureSearch.Json

/-! ## Statements -/

def WritesText (s : String) (v : Json) : Prop :=
  ∃ spelling, v = .string spelling ∧ Says spelling.toList s.toList

def WritesBool (b : Bool) (v : Json) : Prop := v = .bool b

/-- The number is written in digits, without point and exponent. -/
def WritesNat (n : Nat) (v : Json) : Prop := v = .number (toString n)

def WritesOption {α : Type} (writes : α → Json → Prop) : Option α → Json → Prop
  | none, v => v = .null
  | some a, v => writes a v

def WritesList {α : Type} (writes : α → Json → Prop) (l : List α) (v : Json) : Prop :=
  ∃ es, v = .array es ∧ List.Forall₂ writes l es

/-- A field of a record that is written. -/
structure Field where
  name : String
  /-- The field may be left out. -/
  omissible : Prop
  Writes : Json → Prop

/-- A field that is always written. -/
def Field.required (name : String) (writes : Json → Prop) : Field := ⟨name, False, writes⟩

/-- The members, with what their keys say, hold the field: once, or not at all. -/
def Holds (members : List (String × Json)) (f : Field) : Prop :=
  (∃ v, f.Writes v ∧ members.filter (fun m => m.1 == f.name) = [(f.name, v)]) ∨
    f.omissible ∧ ∀ m ∈ members, m.1 ≠ f.name

/-- An object writes the fields, among other members under keys that are texts. -/
def WritesRecord (fields : List Field) (v : Json) : Prop :=
  ∃ ms members, v = .object ms ∧
    List.Forall₂ (fun m n => Says m.1.toList n.1.toList ∧ m.2 = n.2) ms members ∧
      ∀ f ∈ fields, Holds members f

/-! ## Lemmas: values -/

section

variable {v : Json}

theorem WritesText.text? {s : String} (h : WritesText s v) : v.text? = some s := by
  obtain ⟨spelling, rfl, htext⟩ := h
  show unescape spelling = _
  rw [unescape, htext.unescapeChars_eq, Option.map_some, String.ofList_toList]

theorem WritesText.ne_null {s : String} (h : WritesText s v) : v ≠ .null := by
  obtain ⟨spelling, rfl, -⟩ := h
  exact nofun

theorem WritesNat.ne_null {n : Nat} (h : WritesNat n v) : v ≠ .null := by
  rw [h]
  exact nofun

theorem WritesBool.bool? {b : Bool} (h : WritesBool b v) : v.bool? = some b := by
  rw [h]
  rfl

theorem WritesNat.uint8? {n : UInt8} (h : WritesNat n.toNat v) : v.uint8? = some n := by
  rw [h]
  show ((ofNat n.toNat).natBelow? UInt8.size).map UInt8.ofNat = some n
  rw [natBelow?_ofNat n.toNat_lt, Option.map_some, UInt8.ofNat_toNat]

theorem WritesNat.uint32? {n : UInt32} (h : WritesNat n.toNat v) : v.uint32? = some n := by
  rw [h]
  show ((ofNat n.toNat).natBelow? UInt32.size).map UInt32.ofNat = some n
  rw [natBelow?_ofNat n.toNat_lt, Option.map_some, UInt32.ofNat_toNat]

theorem WritesNat.uint64? {n : UInt64} (h : WritesNat n.toNat v) : v.uint64? = some n := by
  rw [h]
  show ((ofNat n.toNat).natBelow? UInt64.size).map UInt64.ofNat = some n
  rw [natBelow?_ofNat n.toNat_lt, Option.map_some, UInt64.ofNat_toNat]

variable {α : Type} {writes : α → Json → Prop}

/-- A value that is not null itself is told from one that is absent. -/
theorem WritesOption.nullable? {read : Json → Option α} {o : Option α}
    (h : WritesOption writes o v) (hread : ∀ a, writes a v → v ≠ .null ∧ read v = some a) :
    v.nullable? read = some o := by
  cases o with
  | none =>
    rw [h]
    rfl
  | some a =>
    obtain ⟨hne, ha⟩ := hread a h
    unfold Json.nullable?
    split
    · exact absurd rfl hne
    · rw [ha, Option.map_some]

theorem WritesList.list? {read : Nat → Json → Option α} {l : List α} {room : Nat}
    (h : WritesList writes l v) (hread : ∀ a ∈ l, ∀ e, writes a e → read room e = some a) :
    v.list? (room + 1) read = some l := by
  obtain ⟨es, rfl, hes⟩ := h
  show es.mapM (read room) = some l
  apply mapM_of_forall₂
  induction hes with
  | nil => exact .nil
  | cons ha _ ih =>
    rw [List.forall_mem_cons] at hread
    exact .cons (hread.1 _ ha) (ih hread.2)

end

/-! ## Lemmas: fields -/

/-- The field is there with its value, or it may be left out and is not there. -/
def Found (fs : Fields) (f : Field) : Prop :=
  (∃ v, f.Writes v ∧ fs.lookup f.name = some v) ∨ f.omissible ∧ fs.lookup f.name = none

section

variable {fs : Fields} {name : String} {α : Type} {a : α} {writes : Json → Prop}
  {read : Json → Option α}

theorem Found.required_eq (h : Found fs (.required name writes))
    (hread : ∀ v, writes v → read v = some a) : fs.required name read = some a := by
  rcases h with ⟨v, hv, hlookup⟩ | ⟨hfalse, -⟩
  · have hlookup : fs.lookup name = some v := hlookup
    rw [Fields.required, hlookup, Option.bind_some, hread v hv]
  · exact hfalse.elim

theorem Found.optional_eq {omissible : Prop} {default : α} (h : Found fs ⟨name, omissible, writes⟩)
    (hdefault : omissible → a = default) (hread : ∀ v, writes v → read v = some a) :
    fs.optional name default read = some a := by
  unfold Fields.optional
  rcases h with ⟨v, hv, hlookup⟩ | ⟨homissible, hlookup⟩
  · rw [hlookup]
    exact hread v hv
  · rw [hlookup, hdefault homissible]

end

section

variable {members : List (String × Json)} {name : String} {v : Json}

theorem lookup_of_filter (h : members.filter (fun m => m.1 == name) = [(name, v)]) :
    members.lookup name = some v := by
  induction members with
  | nil => cases h
  | cons m rest ih =>
    obtain ⟨key, w⟩ := m
    by_cases hkey : key = name
    · subst hkey
      have hself : ((key, w).1 == key) = true := beq_self_eq_true key
      rw [List.filter_cons, if_pos hself] at h
      obtain ⟨hm, -⟩ := List.cons.inj h
      rw [List.lookup_cons_self]
      exact congrArg some (congrArg Prod.snd hm)
    · rw [List.filter_cons_of_neg (by simpa using hkey)] at h
      rw [List.lookup_cons, beq_false_of_ne (Ne.symm hkey)]
      exact ih h

theorem lookup_eq_none (h : ∀ m ∈ members, m.1 ≠ name) : members.lookup name = none := by
  rw [List.lookup_eq_none_iff]
  intro m hm
  exact bne_iff_ne.2 (h m hm).symm

/-- The members under one of the names are among those under the names. -/
theorem filter_known {names : List String} (h : name ∈ names) :
    (members.filter fun m => names.contains m.1).filter (fun m => m.1 == name) =
      members.filter fun m => m.1 == name := by
  rw [List.filter_filter]
  apply List.filter_congr
  intro m _
  by_cases hm : m.1 = name
  · simp [hm, h]
  · simp [hm]

theorem Holds.length_le_one {f : Field} (h : Holds members f) :
    (members.filter fun m => m.1 == f.name).length ≤ 1 := by
  rcases h with ⟨v, -, hfilter⟩ | ⟨-, hne⟩
  · rw [hfilter]
    exact Nat.le_refl 1
  · rw [List.filter_eq_nil_iff.2 fun m hm => by simpa using hne m hm]
    exact Nat.zero_le 1

/-- The members under the names of the fields have different keys. -/
theorem nodup_known {fields : List Field} (h : ∀ f ∈ fields, Holds members f) :
    ((members.filter fun m => (fields.map Field.name).contains m.1).map (·.1)).Nodup := by
  rw [List.nodup_iff_count_le_one]
  intro key
  rw [List.count_eq_countP, List.countP_map, List.countP_eq_length_filter]
  by_cases hkey : key ∈ fields.map Field.name
  · obtain ⟨f, hf, rfl⟩ := List.mem_map.1 hkey
    have hone := (h f hf).length_le_one
    rw [← filter_known hkey] at hone
    exact hone
  · have hnone : (members.filter fun m => (fields.map Field.name).contains m.1).filter
        ((· == key) ∘ (·.1)) = [] := by
      rw [List.filter_eq_nil_iff]
      intro m hm
      have hm := (List.mem_filter.1 hm).2
      simp only [Function.comp_apply, beq_iff_eq]
      rintro rfl
      exact hkey (List.contains_iff_mem.1 hm)
    rw [hnone]
    exact Nat.zero_le 1

end

/-- The fields of a record that was written are found under their names. -/
theorem WritesRecord.exists_fields? {fields : List Field} {v : Json} (h : WritesRecord fields v) :
    ∃ fs, v.fields? (fields.map Field.name) = some fs ∧ ∀ f ∈ fields, Found fs f := by
  obtain ⟨ms, members, rfl, hkeys, hholds⟩ := h
  have hread : ms.mapM (fun m => (unescape m.1).map fun key => (key, m.2)) = some members := by
    apply mapM_of_forall₂
    refine hkeys.imp fun m n ⟨htext, hvalue⟩ => ?_
    rw [unescape, htext.unescapeChars_eq, Option.map_some, Option.map_some, String.ofList_toList,
      hvalue]
  refine ⟨members.filter fun m => (fields.map Field.name).contains m.1, ?_, fun f hf => ?_⟩
  · show Option.bind (ms.mapM fun m => (unescape m.1).map fun key => (key, m.2)) _ = _
    rw [hread]
    exact if_pos (nodup_known hholds)
  · have hname : f.name ∈ fields.map Field.name := List.mem_map_of_mem hf
    rcases hholds f hf with ⟨v, hv, hfilter⟩ | ⟨homissible, hne⟩
    · rw [← filter_known hname] at hfilter
      exact .inl ⟨v, hv, lookup_of_filter hfilter⟩
    · exact .inr ⟨homissible, lookup_eq_none fun m hm => hne m (List.mem_filter.1 hm).1⟩

/-! ## Lemmas: values that are built -/

theorem writesText_ofText (s : String) : WritesText s (ofText s) := by
  refine ⟨escape s, rfl, ?_⟩
  rw [toList_escape]
  exact says_escape s.toList

theorem writesOption_ofOption {α : Type} {writes : α → Json → Prop} {build : α → Json}
    (h : ∀ a, writes a (build a)) (o : Option α) : WritesOption writes o (ofOption build o) := by
  cases o with
  | none => rfl
  | some a => exact h a

theorem writesList_ofList {α : Type} {writes : α → Json → Prop} {build : α → Json} {l : List α}
    (h : ∀ a ∈ l, writes a (build a)) : WritesList writes l (ofList build l) := by
  refine ⟨_, rfl, ?_⟩
  rw [List.forall₂_map_right_iff]
  exact List.forall₂_same.2 h

/-- An object of all fields in their order writes the record. -/
theorem writesRecord_ofMembers {fields : List Field} {values : List Json} (names : List String)
    (hfields : fields.map Field.name = names) (hnames : names.Nodup)
    (h : List.Forall₂ Field.Writes fields values) :
    WritesRecord fields (ofMembers (names.zip values)) := by
  subst hfields
  refine ⟨_, (fields.map Field.name).zip values, rfl, ?_, ?_⟩
  · rw [List.forall₂_map_left_iff]
    refine List.forall₂_same.2 fun m _ => ⟨?_, rfl⟩
    rw [toList_escape]
    exact says_escape m.1.toList
  · intro f hf
    refine .inl ?_
    induction h with
    | nil => cases hf
    | @cons g v fields values hv _ ih =>
      rw [List.map_cons, List.nodup_cons] at hnames
      obtain ⟨hfresh, hnames⟩ := hnames
      rw [List.map_cons, List.zip_cons_cons]
      rcases List.mem_cons.1 hf with rfl | hf
      · refine ⟨v, hv, ?_⟩
        have hself : (((f.name, v) : String × Json).1 == f.name) = true := beq_self_eq_true f.name
        rw [List.filter_cons, if_pos hself, List.filter_eq_nil_iff.2]
        rintro ⟨key, w⟩ hm hkey
        obtain rfl : key = f.name := beq_iff_eq.1 hkey
        exact hfresh (List.of_mem_zip hm).1
      · obtain ⟨w, hw, hfilter⟩ := ih hnames hf
        refine ⟨w, hw, ?_⟩
        rw [List.filter_cons_of_neg, hfilter]
        rw [beq_iff_eq]
        intro heq
        exact hfresh (List.mem_map.2 ⟨f, hf, heq.symm⟩)

end PictureSearch.Json
