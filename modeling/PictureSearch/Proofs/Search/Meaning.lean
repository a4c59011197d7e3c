import PictureSearch.Proofs.Catalog.Built
import PictureSearch.Proofs.Search.Compiling
import PictureSearch.Proofs.Search.Pattern
import PictureSearch.Proofs.Search.Selection

/-!
# What a query means

`Satisfies` reads a tree off one picture: And asks for all children, Or for some child, Not that
not all children hold, and a comparison relates the value of the picture to the one that is
written.  A compiled query finds the pictures in the viewer's libraries that satisfy its tree, each
once and in the order of their numbers:

    compile exposed root viewer = .ok p →
      (c.matching p).Pairwise (fun a b => a.index < b.index) ∧
      ∀ id, id ∈ c.matching p ↔
        ∃ item, c.item? id = some item ∧ c.InScope item viewer ∧ c.Satisfies item root.toNode
                                                                        (matching_of_compile)
-/

namespace PictureSearch

open Query

/-! ## Values -/

/-- One text comes before another: the code points at the first difference decide, and an end of
text comes before any code point. -/
def Text.Precedes (s t : String) : Prop :=
  List.Lex (fun a b : Char => a.toNat < b.toNat) s.toList t.toList

/-- The relation that an operator names on values that `lt` puts in order.  A pattern and a
membership test relate no two values. -/
def Query.Op.Relates {α : Type} (lt : α → α → Prop) (op : Op) (a b : α) : Prop :=
  match op with
  | .eq => a = b
  | .neq => a ≠ b
  | .gt => lt b a
  | .lt => lt a b
  | .gte => lt b a ∨ a = b
  | .lte => lt a b ∨ a = b
  | .like | .has => False

/-- The text that a picture has for an attribute. -/
inductive Item.HasText (item : Item) : Attribute → String → Prop
  | name : HasText item .name item.name
  | comment {s : String} : item.comment = some s → HasText item .comment s
  | filetype : HasText item .filetype (filetype item.name)

theorem Item.HasText.kind {item : Item} {attr : Attribute} {s : String}
    (h : item.HasText attr s) : attr.kind = .text := by
  cases h <;> rfl

theorem Query.Op.Relates.isScalar {α : Type} {lt : α → α → Prop} {op : Op} {a b : α}
    (h : op.Relates lt a b) : op.IsScalar := by
  constructor
  · rintro rfl
    exact h
  · rintro rfl
    exact h

namespace Catalog

variable (c : Catalog) (item : Item)

/-- The library is that of the picture's folder. -/
def LiesIn (l : Library) : Prop :=
  ∃ f, c.folder? item.folder = some f ∧ c.library? f.library = some l

/-- The picture lies in a library without owner or in one of the viewer. -/
def InScope (viewer : ViewerId) : Prop :=
  ∃ l, c.LiesIn item l ∧ (l.owner = none ∨ l.owner = some viewer)

/-- The picture or its library is flagged. -/
def Flagged : Prop := item.nsfw = true ∨ ∃ l, c.LiesIn item l ∧ l.nsfw = true

/-- A tag of the picture that exists has the name. -/
def HasTag (name : String) : Prop := ∃ id ∈ item.tags, ∃ t, c.tag? id = some t ∧ t.name = name

/-- The number that a picture has for an attribute. -/
inductive HasInteger : Attribute → Int → Prop
  | width : HasInteger .width item.width.toNat
  | height : HasInteger .height item.height.toNat
  | aspect : HasInteger .aspect (aspectClass item.width item.height)
  | rating : HasInteger .rating item.rating.toNat
  | flagged : c.Flagged item → HasInteger .nsfw 1
  | unflagged : ¬ c.Flagged item → HasInteger .nsfw 0
  | size : item.size.toNat ≤ Int64.maxValue.toInt → HasInteger .size item.size.toNat
  | largeSize : Int64.maxValue.toInt < item.size.toNat → HasInteger .size Int64.maxValue.toInt

/-! ## Trees -/

/-- What a comparison says of a picture. -/
inductive Meets (cmp : Compare) : Prop
  | integer {attr : Attribute} {n : Int64} {value : Int} :
      attr.text = cmp.attr → cmp.value = .integer n → c.HasInteger item attr value →
        cmp.op.Relates (· < ·) value n.toInt → Meets cmp
  | text {attr : Attribute} {value : String} :
      attr.text = cmp.attr → item.HasText attr value →
        cmp.op.Relates Text.Precedes value cmp.value.operandText → Meets cmp
  | like {attr : Attribute} {value : String} :
      attr.text = cmp.attr → cmp.op = .like → item.HasText attr value →
        Pattern.Matches cmp.value.operandText.toList value.toList → Meets cmp
  | has :
      Attribute.tags.text = cmp.attr → cmp.op = .has → c.HasTag item cmp.value.operandText →
        Meets cmp

mutual

/-- Whether a picture satisfies a tree. -/
def Satisfies : Node → Prop
  | .compare cmp => c.Meets item cmp
  | .group .and children => SatisfiesAll children
  | .group .or children => SatisfiesAny children
  | .group .not children => ¬ SatisfiesAll children

/-- Whether it satisfies every child. -/
def SatisfiesAll : List Node → Prop
  | [] => True
  | n :: rest => Satisfies n ∧ SatisfiesAll rest

/-- Whether it satisfies some child. -/
def SatisfiesAny : List Node → Prop
  | [] => False
  | n :: rest => Satisfies n ∨ SatisfiesAny rest

end

/-! ## Lemmas: values -/

variable {c item} in
theorem HasInteger.kind {attr : Attribute} {n : Int} (h : c.HasInteger item attr n) :
    attr.kind = .integer := by
  cases h <;> rfl

theorem libraryOf?_eq_some_iff {l : Library} : c.libraryOf? item = some l ↔ c.LiesIn item l := by
  rw [libraryOf?, Option.bind_eq_some_iff]
  rfl

theorem visibleTo_iff (viewer : ViewerId) :
    c.visibleTo item viewer = true ↔ c.InScope item viewer := by
  rw [visibleTo, Option.any_eq_true]
  constructor
  · rintro ⟨l, hl, hv⟩
    refine ⟨l, (c.libraryOf?_eq_some_iff item).1 hl, ?_⟩
    unfold Library.visibleTo at hv
    cases ho : l.owner with
    | none => exact Or.inl rfl
    | some owner =>
      rw [ho] at hv
      exact Or.inr (congrArg some (eq_of_beq hv))
  · rintro ⟨l, hl, ho | ho⟩
    · exact ⟨l, (c.libraryOf?_eq_some_iff item).2 hl, by simp [Library.visibleTo, ho]⟩
    · exact ⟨l, (c.libraryOf?_eq_some_iff item).2 hl, by simp [Library.visibleTo, ho]⟩

theorem isNsfw_iff : c.isNsfw item = true ↔ c.Flagged item := by
  simp only [isNsfw, Flagged, Bool.or_eq_true, Option.any_eq_true, libraryOf?_eq_some_iff]

theorem contains_tagNames_iff (name : String) :
    (c.tagNames item).contains name = true ↔ c.HasTag item name := by
  simp only [tagNames, HasTag, List.contains_iff_mem, List.mem_filterMap, Option.map_eq_some_iff]

theorem textValue?_eq_some_iff {attr : Attribute} {s : String} :
    item.textValue? attr = some s ↔ item.HasText attr s := by
  constructor
  · intro h
    cases attr with
    | name => cases h; exact .name
    | comment => exact .comment h
    | filetype => cases h; exact .filetype
    | width | height | aspect | rating | nsfw | size | tags => cases h
  · rintro (_ | h | _)
    · rfl
    · exact h
    · rfl

theorem integerValue?_eq_some_iff {attr : Attribute} {n : Int} :
    c.integerValue? item attr = some n ↔ c.HasInteger item attr n := by
  constructor
  · intro h
    cases attr <;> simp only [integerValue?, Option.some.injEq, reduceCtorEq] at h <;> subst h
    · exact .width
    · exact .height
    · exact .aspect
    · exact .rating
    · by_cases hf : c.Flagged item
      · rw [if_pos ((c.isNsfw_iff item).2 hf)]
        exact .flagged hf
      · rw [if_neg (mt (c.isNsfw_iff item).1 hf)]
        exact .unflagged hf
    · by_cases hs : item.size.toNat ≤ Int64.maxValue.toInt
      · rw [Int.min_eq_left hs]
        exact .size hs
      · rw [Int.min_eq_right (by omega)]
        exact .largeSize (by omega)
  · intro h
    cases h with
    | flagged hf => simp [integerValue?, (c.isNsfw_iff item).2 hf]
    | unflagged hf => simp [integerValue?, mt (c.isNsfw_iff item).1 hf]
    | size hs =>
      rw [integerValue?, Int.min_eq_left hs]
    | largeSize hs =>
      rw [integerValue?, Int.min_eq_right (by omega)]
    | width | height | aspect | rating => rfl

/-! ## Lemmas: comparisons -/

theorem allows_compare_iff {α : Type} [Ord α] [Std.OrientedOrd α] [Std.LawfulEqOrd α]
    {lt : α → α → Prop} (hlt : ∀ a b : α, compare a b = .lt ↔ lt a b) (op : Op) (a b : α) :
    op.allows (compare a b) = true ↔ op.Relates lt a b := by
  have heq : compare a b = .eq ↔ a = b := Std.LawfulEqOrd.compare_eq_iff_eq
  have hgt : compare a b = .gt ↔ lt b a := Std.OrientedCmp.gt_iff_lt.trans (hlt b a)
  cases op <;> simp only [Op.allows, Op.Relates, ne_eq, ← heq, ← hgt, ← hlt a b] <;>
    cases compare a b <;> decide

theorem compare_text_eq_lt_iff (s t : String) : compare s t = .lt ↔ Text.Precedes s t :=
  compareOfLessAndEq_eq_lt

/-- Of a picture, a compiled comparison says what the comparison says. -/
theorem passes_iff_meets {attr : Attribute} {cmp : Compare} {t : Test}
    (hn : attr.text = cmp.attr) (ha : Asks attr cmp.op cmp.value t) :
    c.passes item t = true ↔ c.Meets item cmp := by
  obtain ⟨name, op, value⟩ := cmp
  simp only at hn ha
  have same {a : Attribute} (h : a.text = name) : a = attr := Attribute.text_inj (h.trans hn.symm)
  cases ha with
  | contains hk =>
    have htags : attr = .tags := by cases attr <;> first | rfl | cases hk
    rw [passes, contains_tagNames_iff]
    constructor
    · intro h
      exact .has (htags ▸ hn) rfl h
    · rintro (⟨_, _, _, hr⟩ | ⟨_, _, hr⟩ | ⟨_, ho, _, _⟩ | ⟨_, _, h⟩)
      · exact absurd rfl hr.isScalar.2
      · exact absurd rfl hr.isScalar.2
      · cases ho
      · exact h
  | like hk hp =>
    simp only [passes, Option.any_eq_true, textValue?_eq_some_iff, Pattern.matchesText_iff]
    constructor
    · rintro ⟨s, hs, hm⟩
      exact .like hn rfl hs hm
    · rintro (⟨_, _, _, hr⟩ | ⟨_, _, hr⟩ | ⟨ha, _, hs, hm⟩ | ⟨_, ho, _⟩)
      · exact absurd rfl hr.isScalar.1
      · exact absurd rfl hr.isScalar.1
      · exact ⟨_, same ha ▸ hs, hm⟩
      · cases ho
  | integer hk hs =>
    simp only [passes, Option.any_eq_true, integerValue?_eq_some_iff,
      allows_compare_iff (fun a b : Int => Int.compare_eq_lt)]
    constructor
    · rintro ⟨n, hv, hr⟩
      exact .integer hn rfl hv hr
    · rintro (⟨ha, hv, hi, hr⟩ | ⟨ha, ht, _⟩ | ⟨_, ho, _, _⟩ | ⟨_, ho, _⟩)
      · cases hv
        exact ⟨_, same ha ▸ hi, hr⟩
      · have := ht.kind
        rw [same ha, hk] at this
        cases this
      · exact absurd ho hs.1
      · exact absurd ho hs.2
  | text hk hs =>
    simp only [passes, Option.any_eq_true, textValue?_eq_some_iff,
      allows_compare_iff compare_text_eq_lt_iff]
    constructor
    · rintro ⟨s, ht, hr⟩
      exact .text hn ht hr
    · rintro (⟨ha, _, hi, _⟩ | ⟨ha, ht, hr⟩ | ⟨_, ho, _, _⟩ | ⟨_, ho, _⟩)
      · have := hi.kind
        rw [same ha, hk] at this
        cases this
      · exact ⟨_, same ha ▸ ht, hr⟩
      · exact absurd ho hs.1
      · exact absurd ho hs.2

/-! ## Lemmas: trees -/

theorem satisfiesAll_iff (children : List Node) :
    c.SatisfiesAll item children ↔ ∀ n ∈ children, c.Satisfies item n := by
  induction children with
  | nil => simp [SatisfiesAll]
  | cons n rest ih => rw [SatisfiesAll, ih, List.forall_mem_cons]

theorem satisfiesAny_iff (children : List Node) :
    c.SatisfiesAny item children ↔ ∃ n ∈ children, c.Satisfies item n := by
  induction children with
  | nil => simp [SatisfiesAny]
  | cons n rest ih => simp [SatisfiesAny, ih]

theorem admits_conjunction (parts : List Predicate) (id : ItemId) :
    c.admits (.conjunction parts) id = c.admitsAll parts id := by
  cases parts <;> rfl

/-- A denial with one part denies the part, any other the conjunction of its parts. -/
theorem admits_ofGroup_not (parts : List Predicate) (id : ItemId) :
    c.admits (.ofGroup .not parts) id = !c.admitsAll parts id := by
  match parts with
  | [] => rfl
  | [p] => simp [Predicate.ofGroup, admits, admitsAll]
  | p :: q :: rest => rfl

variable {c item}

mutual

/-- What compiling a node yields holds of a picture that satisfies the node, and of no other. -/
theorem admits_iff_satisfies {exposed : List Attribute} {id : ItemId} {n : Node} {p : Predicate}
    (hi : c.item? id = some item) (h : compileNode exposed n = .ok p) :
    c.admits p id = true ↔ c.Satisfies item n := by
  match n with
  | .compare cmp =>
    obtain ⟨attr, t, _, hn, ha, rfl⟩ := compileCompare_eq_ok_iff.1 h
    rw [admits, hi, Satisfies, ← c.passes_iff_meets item hn ha]
    rfl
  | .group kind children =>
    obtain ⟨parts, hparts, rfl⟩ := compileNode_group_eq_ok_iff.1 h
    have hall := admitsAll_iff_satisfiesAll hi hparts
    have hany := admitsAny_iff_satisfiesAny hi hparts
    cases kind with
    | and => rw [Predicate.ofGroup, admits_conjunction, hall, Satisfies]
    | or => rw [Predicate.ofGroup, admits, hany, Satisfies]
    | not => rw [admits_ofGroup_not, Bool.not_eq_true', ← Bool.not_eq_true, hall, Satisfies]

theorem admitsAll_iff_satisfiesAll {exposed : List Attribute} {id : ItemId} {children : List Node}
    {parts : List Predicate} (hi : c.item? id = some item)
    (h : compileNodes exposed children = .ok parts) :
    c.admitsAll parts id = true ↔ c.SatisfiesAll item children := by
  match children with
  | [] =>
    cases h
    simp [admitsAll, SatisfiesAll]
  | n :: rest =>
    obtain ⟨p, ps, hp, hps, rfl⟩ := compileNodes_cons_eq_ok_iff.1 h
    rw [admitsAll, Bool.and_eq_true, SatisfiesAll, admits_iff_satisfies hi hp,
      admitsAll_iff_satisfiesAll hi hps]

theorem admitsAny_iff_satisfiesAny {exposed : List Attribute} {id : ItemId} {children : List Node}
    {parts : List Predicate} (hi : c.item? id = some item)
    (h : compileNodes exposed children = .ok parts) :
    c.admitsAny parts id = true ↔ c.SatisfiesAny item children := by
  match children with
  | [] =>
    cases h
    simp [admitsAny, SatisfiesAny]
  | n :: rest =>
    obtain ⟨p, ps, hp, hps, rfl⟩ := compileNodes_cons_eq_ok_iff.1 h
    rw [admitsAny, Bool.or_eq_true, SatisfiesAny, admits_iff_satisfies hi hp,
      admitsAny_iff_satisfiesAny hi hps]

end

/-- A predicate confined to a viewer finds only what the viewer may see. -/
theorem mem_matching_visible_iff (c : Catalog) (viewer : ViewerId) (p : Predicate) (id : ItemId) :
    id ∈ c.matching (.and [.test (.visible viewer), p]) ↔
      ∃ item, c.item? id = some item ∧ c.InScope item viewer ∧ c.admits p id = true := by
  rw [mem_matching_iff]
  constructor
  · rintro ⟨⟨item, hi⟩, ha⟩
    simp only [admits, admitsAll, hi, Option.any_some, Bool.and_true, Bool.and_eq_true] at ha
    exact ⟨item, hi, (c.visibleTo_iff item viewer).1 ha.1, ha.2⟩
  · rintro ⟨item, hi, hv, ha⟩
    refine ⟨⟨item, hi⟩, ?_⟩
    simp only [admits, admitsAll, hi, Option.any_some, Bool.and_true, Bool.and_eq_true]
    exact ⟨(c.visibleTo_iff item viewer).2 hv, ha⟩

/-! ## Top theorem -/

/-- A compiled query finds what its tree means, within the viewer's libraries. -/
theorem matching_of_compile (c : Catalog) {exposed : List Attribute} {root : Group}
    {viewer : ViewerId} {p : Predicate} (h : compile exposed root viewer = .ok p) :
    ((c.matching p).Pairwise fun a b => a.index < b.index) ∧
      ∀ id, id ∈ c.matching p ↔
        ∃ item, c.item? id = some item ∧ c.InScope item viewer ∧
          c.Satisfies item root.toNode := by
  refine ⟨c.matching_pairwise p, fun id => ?_⟩
  obtain ⟨q, hq, rfl⟩ := map_eq_ok_iff.1 h
  rw [mem_matching_visible_iff]
  refine exists_congr fun item => and_congr_right fun hi => and_congr_right fun _ => ?_
  exact admits_iff_satisfies hi hq

/-- A denial of several children, which no text of a query gives. -/
def severalDenied : Group :=
  ⟨.and, [.group .not [.compare ⟨"width", .gt, .integer 100⟩,
    .group .or [.compare ⟨"tags", .has, .text "IFDY"⟩, .compare ⟨"comment", .neq, .integer 5⟩]]]⟩

theorem matching_of_compile_severalDenied :
    ∃ p, compile Attribute.all severalDenied ⟨2⟩ = .ok p ∧
      ((withSmall.matching p).Pairwise fun a b => a.index < b.index) ∧
      ∀ id, id ∈ withSmall.matching p ↔
        ∃ item, withSmall.item? id = some item ∧ withSmall.InScope item ⟨2⟩ ∧
          withSmall.Satisfies item severalDenied.toNode := by
  have h : compile Attribute.all severalDenied ⟨2⟩ = .ok _ := rfl
  exact ⟨_, h, matching_of_compile _ h⟩

end Catalog

end PictureSearch
