import PictureSearch.Proofs.Search.Comparing
import PictureSearch.Proofs.Search.Order
import PictureSearch.Proofs.Search.Typing

/-!
# The blocks that a value cuts a result into

A result in the ascending order of an attribute is cut by any value of that attribute into the
pictures below it, those level with it and those above it, in this order.  The comparisons of the
attribute with the value find the blocks that their operators name:

    c.ids ⟨p, key, .ascending, 0, none⟩ = below ++ level ++ above
    c.ids ⟨s, key, .ascending, 0, none⟩ = op.pick below level above                (ids_eq_blocks)

where `s` is the query of `p` with the comparison put behind it.
-/

namespace PictureSearch

open Query

/-! ## Statements -/

/-- The attribute that a key orders by. -/
def OrderKey.attribute? : OrderKey → Option Attribute
  | .name => some .name
  | .rating => some .rating
  | .width => some .width
  | .height => some .height
  | .size => some .size
  | .id => none

/-- The blocks of a result that an operator names, when a value cuts it into three. -/
def Query.Op.pick {α : Type} (op : Op) (below level above : List α) : List α :=
  match op with
  | .lt => below
  | .eq => level
  | .gt => above
  | .lte => below ++ level
  | .gte => level ++ above
  | .neq => below ++ above
  | .like | .has => []

/-! ## Algorithm: where a picture stands -/

/-- How the value of a picture for an attribute stands to another one.  A picture without a value
counts as level, which is not asked for. -/
def Catalog.standing (c : Catalog) (item : Item) (attr : Attribute) : Value → Ordering
  | .integer n => (c.integerValue? item attr).elim .eq fun value => compare value n.toInt
  | .text s => (item.textValue? attr).elim .eq fun value => compare value s

/-- How the picture of a number stands to a value. -/
def Catalog.idStanding (c : Catalog) (attr : Attribute) (v : Value) (id : ItemId) : Ordering :=
  (c.item? id).elim .eq fun item => c.standing item attr v

/-! ## Lemmas: lists along which a standing only rises -/

/-- The standing of the first element is at most that of the second. -/
def Rises {α : Type} (f : α → Ordering) (a b : α) : Prop :=
  (f b = .lt → f a = .lt) ∧ (f a = .gt → f b = .gt)

section Rising

variable {α : Type} {f : α → Ordering} {l : List α}

theorem filter_append_filter_append_filter (h : l.Pairwise (Rises f)) :
    l.filter (f · == .lt) ++ l.filter (f · == .eq) ++ l.filter (f · == .gt) = l := by
  induction l with
  | nil => rfl
  | cons a rest ih =>
    obtain ⟨ha, hrest⟩ := List.pairwise_cons.1 h
    cases hf : f a with
    | lt => simpa [hf] using ih hrest
    | eq =>
      -- nothing behind stands lower, so that the first block is empty
      have hlow : rest.filter (f · == .lt) = [] := by
        rw [List.filter_eq_nil_iff]
        intro b hb hlt
        have := (ha b hb).1 (eq_of_beq hlt)
        rw [hf] at this
        cases this
      simpa [hf, hlow] using ih hrest
    | gt =>
      have hhigh : ∀ b ∈ rest, f b = .gt := fun b hb => (ha b hb).2 hf
      have hlow : rest.filter (f · == .lt) = [] :=
        List.filter_eq_nil_iff.2 fun b hb => by simp [hhigh b hb]
      have hlevel : rest.filter (f · == .eq) = [] :=
        List.filter_eq_nil_iff.2 fun b hb => by simp [hhigh b hb]
      have hall : rest.filter (f · == .gt) = rest :=
        List.filter_eq_self.2 fun b hb => by simp [hhigh b hb]
      simp [hf, hlow, hlevel, hall]

/-- Of the elements of one standing an operator allows all or none. -/
theorem filter_allows_of_standing (l : List α) (op : Op) (o : Ordering) :
    (l.filter (f · == o)).filter (fun a => op.allows (f a)) =
      if op.allows o then l.filter (f · == o) else [] := by
  have hstanding : ∀ a ∈ l.filter (f · == o), f a = o :=
    fun a ha => eq_of_beq (List.mem_filter.1 ha).2
  split
  case isTrue ho => exact List.filter_eq_self.2 fun a ha => by rwa [hstanding a ha]
  case isFalse ho => exact List.filter_eq_nil_iff.2 fun a ha => by rwa [hstanding a ha]

/-- What an operator allows is found in the blocks that it names. -/
theorem filter_allows_eq_pick (h : l.Pairwise (Rises f)) (op : Op) :
    (l.filter fun a => op.allows (f a)) =
      op.pick (l.filter (f · == .lt)) (l.filter (f · == .eq)) (l.filter (f · == .gt)) := by
  conv_lhs => rw [← filter_append_filter_append_filter h]
  simp only [List.filter_append, filter_allows_of_standing]
  cases op <;> simp [Op.allows, Op.pick]

end Rising

/-- A greater value stands no lower to a third one. -/
theorem rises_compare {α β : Type} [Ord β] [Std.TransOrd β] {g : α → β} {a b : α}
    (h : (compare (g a) (g b)).isLE = true) (k : β) : Rises (fun x => compare (g x) k) a b := by
  refine ⟨fun hb => Std.TransCmp.lt_of_isLE_of_lt h hb, fun ha => ?_⟩
  rw [Std.OrientedCmp.gt_iff_lt] at ha ⊢
  exact Std.TransCmp.lt_of_lt_of_isLE ha h

/-! ## Lemmas: keys and values -/

theorem OrderKey.eq_name_of_kind {key : OrderKey} {attr : Attribute}
    (hk : key.attribute? = some attr) (ht : attr.kind = .text) : key = .name ∧ attr = .name := by
  cases key <;> cases hk <;> first | exact ⟨rfl, rfl⟩ | cases ht

theorem OrderKey.kind_ne_set {key : OrderKey} {attr : Attribute}
    (hk : key.attribute? = some attr) : attr.kind ≠ .set := by
  cases key <;> cases hk <;> decide

/-- A literal that an attribute takes is one and the same value for every operator that compares. -/
theorem exists_asks_compare {attr : Attribute} {value : Literal} (hk : attr.kind ≠ .set)
    (hv : attr.kind = .integer → ∃ n, value = .integer n) :
    ∃ v, ∀ op : Op, op.IsScalar → Asks attr op value (.compare attr op v) := by
  cases hkind : attr.kind with
  | text => exact ⟨.text value.operandText, fun _ => .text hkind⟩
  | integer =>
    obtain ⟨n, rfl⟩ := hv hkind
    exact ⟨.integer n, fun _ => .integer hkind⟩
  | set => exact absurd hkind hk

namespace Catalog

variable {c : Catalog} {key : OrderKey} {attr : Attribute} (hk : key.attribute? = some attr)

include hk

/-- By a key of numbers, a picture does not come before one with a smaller number. -/
theorem integerValue?_le {x y : Item} (hi : attr.kind = .integer)
    (hxy : key.Before x y ∨ key.Alike x y) :
    ∃ m n, c.integerValue? x attr = some m ∧ c.integerValue? y attr = some n ∧ m ≤ n := by
  cases key <;> cases hk
  case name => cases hi
  case size =>
    have hle : x.size.toNat ≤ y.size.toNat := hxy.elim Nat.le_of_lt fun h => (congrArg _ h).le
    exact ⟨_, _, rfl, rfl, by omega⟩
  case rating | width | height =>
    exact ⟨_, _, rfl, rfl, Int.ofNat_le.2 (hxy.elim Nat.le_of_lt fun h => (congrArg _ h).le)⟩

variable {op : Op} {v : Value} (ht : (Test.compare attr op v).WellTyped)

include ht

theorem passes_compare_eq_allows (item : Item) :
    c.passes item (.compare attr op v) = op.allows (c.standing item attr v) := by
  cases ht with
  | integer hi _ =>
    obtain ⟨value, hvalue⟩ := exists_integerValue? (c := c) hi item
    rw [passes, standing, hvalue]
    rfl
  | text htext _ =>
    obtain ⟨rfl, rfl⟩ := OrderKey.eq_name_of_kind hk htext
    rfl

/-- Along the order of a key, the standing to a value only rises. -/
theorem rises_standing {x y : Item} (hxy : key.Before x y ∨ key.Alike x y) :
    Rises (fun item => c.standing item attr v) x y := by
  cases ht with
  | integer hi _ =>
    obtain ⟨m, n, hm, hn, hle⟩ := integerValue?_le (c := c) hk hi hxy
    have hrises := rises_compare (g := fun i : Int => i) (Int.isLE_compare.2 hle)
    simpa [Rises, standing, hm, hn] using hrises _
  | text htext _ =>
    obtain ⟨rfl, rfl⟩ := OrderKey.eq_name_of_kind hk htext
    refine rises_compare (g := Item.name) ?_ _
    rcases hxy with h | h
    · rw [(compare_text_eq_lt_iff _ _).2 h]
      rfl
    · rw [Std.compare_eq_iff_eq.2 h]
      rfl

omit hk ht

/-! ## Lemmas: results -/

/-- What narrows the pictures found narrows the result in its order. -/
theorem ids_eq_filter {p s : Predicate} {f : ItemId → Bool}
    (hs : c.matching s = (c.matching p).filter f) (direction : Direction) :
    c.ids ⟨s, key, direction, 0, none⟩ = (c.ids ⟨p, key, direction, 0, none⟩).filter f := by
  have hperm : ((c.ids ⟨p, key, direction, 0, none⟩).filter f).Perm (c.matching s) := by
    rw [hs]
    exact (c.ids_perm_matching p key direction).filter f
  exact (c.strictTotalOn_goes s key direction).eq_of_perm (c.ids_perm_matching s key direction)
    hperm (c.ids_pairwise_goes s key direction) ((c.ids_pairwise_goes p key direction).filter f)

include hk ht

theorem admits_compare_eq_allows {id : ItemId} {item : Item} (hi : c.item? id = some item) :
    c.admits (.test (.compare attr op v)) id = op.allows (c.idStanding attr v id) := by
  rw [idStanding, admits, hi]
  exact passes_compare_eq_allows hk ht item

theorem pairwise_rises_ids (p : Predicate) :
    (c.ids ⟨p, key, .ascending, 0, none⟩).Pairwise (Rises (c.idStanding attr v)) := by
  refine (c.ids_pairwise_goes p key .ascending).imp fun {a b} hab => ?_
  obtain ⟨x, y, hx, hy, hxy⟩ := hab
  have hrises := rises_standing (c := c) hk ht (hxy.imp_right And.left)
  simpa [Rises, idStanding, hx, hy] using hrises

omit hk ht

/-! ## Top theorem -/

/-- **Filtering and ordering agree.** In the ascending order of an attribute, any value of the
attribute cuts the result of any query into three blocks, the pictures below it, level with it and
above it.  Every picture of the result lies in one of them and in one place.  What matches a
comparison with the value is what lies in the blocks that its operator names, and these blocks are
the result of the query with the comparison put behind it. -/
theorem ids_eq_blocks (c : Catalog) {exposed : List Attribute} {root : Group} {viewer : ViewerId}
    {p : Predicate} (h : compile exposed root viewer = .ok p)
    {key : OrderKey} {attr : Attribute} (hk : key.attribute? = some attr) (hm : attr ∈ exposed)
    {value : Literal} (hv : attr.kind = .integer → ∃ n, value = .integer n) :
    ∃ below level above,
      c.ids ⟨p, key, .ascending, 0, none⟩ = below ++ level ++ above ∧
      (below ++ level ++ above).Nodup ∧
      ∀ op : Op, op.IsScalar →
        ∃ r s, compile exposed (.ofNode (.compare ⟨attr.text, op, value⟩)) viewer = .ok r ∧
          compile exposed ⟨.and, [root.toNode, .compare ⟨attr.text, op, value⟩]⟩ viewer = .ok s ∧
          (∀ id ∈ c.ids ⟨p, key, .ascending, 0, none⟩,
            id ∈ c.matching r ↔ id ∈ op.pick below level above) ∧
          c.ids ⟨s, key, .ascending, 0, none⟩ = op.pick below level above := by
  obtain ⟨q, hq, rfl⟩ := map_eq_ok_iff.1 h
  obtain ⟨v, ha⟩ := exists_asks_compare (OrderKey.kind_ne_set hk) hv
  have hrises := pairwise_rises_ids (c := c) hk (ha .eq ⟨by decide, by decide⟩).wellTyped
    (.and [.test (.visible viewer), q])
  have hblocks := filter_append_filter_append_filter hrises
  refine ⟨_, _, _, hblocks.symm, ?_, fun op hop => ?_⟩
  · rw [hblocks]
    exact c.nodup_sorted ⟨_, key, .ascending, 0, none⟩
  have hask := ha op hop
  have hallows {id : ItemId} {item : Item} (hi : c.item? id = some item) :
      c.admits (.test (.compare attr op v)) id = op.allows (c.idStanding attr v id) :=
    admits_compare_eq_allows hk hask.wellTyped hi
  refine ⟨_, _, compile_of_asks hm hask viewer, compile_narrowed hm hask hq viewer, ?_, ?_⟩
  · intro id hid
    obtain ⟨item, hi, hscope, _⟩ :=
      (mem_matching_visible_iff c viewer q id).1 (mem_matching_of_mem_ids hid)
    rw [mem_matching_asking_iff c hi hscope, ← filter_allows_eq_pick hrises, List.mem_filter,
      ← hallows hi, admits, hi, Option.any_some]
    exact (and_iff_right hid).symm
  · rw [ids_eq_filter (c.matching_narrowed viewer q _), ← filter_allows_eq_pick hrises]
    refine List.filter_congr fun id hid => ?_
    obtain ⟨item, hi, _⟩ :=
      (mem_matching_visible_iff c viewer q id).1 (mem_matching_of_mem_ids hid)
    exact hallows hi

/-- Five stands between the ratings of the two pictures, and no picture has it. -/
theorem ids_eq_blocks_rated :
    ∃ p below level above, compile Attribute.all ⟨.and, []⟩ ⟨2⟩ = .ok p ∧
      OrderKey.rating.attribute? = some .rating ∧ Attribute.rating ∈ Attribute.all ∧
      withRated.ids ⟨p, .rating, .ascending, 0, none⟩ = below ++ level ++ above ∧
      below = [⟨0⟩] ∧ level = [] ∧ above = [⟨1⟩] := by
  have h : compile Attribute.all ⟨.and, []⟩ ⟨2⟩ = .ok _ := rfl
  have hk : OrderKey.rating.attribute? = some .rating := rfl
  have hm : .rating ∈ Attribute.all := by decide
  have hv : Attribute.rating.kind = .integer → ∃ n, Literal.integer 5 = .integer n :=
    fun _ => ⟨5, rfl⟩
  obtain ⟨below, level, above, hsplit, _, hops⟩ := ids_eq_blocks withRated h hk hm hv
  obtain ⟨_, lower, _, hlower, _, hbelow⟩ := hops .lt ⟨by decide, by decide⟩
  obtain ⟨_, equal, _, hequal, _, hlevel⟩ := hops .eq ⟨by decide, by decide⟩
  obtain ⟨_, higher, _, hhigher, _, habove⟩ := hops .gt ⟨by decide, by decide⟩
  obtain rfl := Except.ok.inj hlower
  obtain rfl := Except.ok.inj hequal
  obtain rfl := Except.ok.inj hhigher
  refine ⟨_, below, level, above, h, hk, hm, hsplit, ?_, ?_, ?_⟩
  · exact hbelow.symm.trans (by decide +kernel)
  · exact hlevel.symm.trans (by decide +kernel)
  · exact habove.symm.trans (by decide +kernel)

end Catalog

end PictureSearch
