import PictureSearch.Proofs.Search.Meaning

/-!
# Compiled predicates are well typed

The evaluator answers every test: an attribute that has no number, or no text, is no match, and
neither is an operator that does not compare.  What a tree compiles to never comes to that.  Its
comparisons and patterns are on attributes of their kind, no conjunction in it is empty, and the
viewer is asked for once, in front.

`select?` is evaluation that gets stuck where the evaluator would help itself with such an answer.
On what was compiled it goes through, with the same result in every catalog:

    compileNode exposed n = .ok p → p.WellTyped                         (wellTyped_of_compileNode)
    p.WellTyped → (∀ id ∈ base, ∃ item, c.item? id = some item) →
      c.select? p base = some (c.select p base)                             (select?_of_wellTyped)
-/

namespace PictureSearch

open Query

/-! ## Statements -/

/-- The attribute of a test is of the kind that the test is about. -/
inductive Test.WellTyped : Test → Prop
  | integer {attr : Attribute} {op : Op} {n : Int64} :
      attr.kind = .integer → op.IsScalar → WellTyped (.compare attr op (.integer n))
  | text {attr : Attribute} {op : Op} {s : String} :
      attr.kind = .text → op.IsScalar → WellTyped (.compare attr op (.text s))
  | like {attr : Attribute} {pattern : String} : attr.kind = .text → WellTyped (.like attr pattern)
  | contains {attr : Attribute} {s : String} : attr.kind = .set → WellTyped (.contains attr s)

/-- The test reads the text that a picture has for an attribute. -/
inductive Test.ReadsText : Test → Attribute → Prop
  | compare {attr : Attribute} {op : Op} {s : String} : ReadsText (.compare attr op (.text s)) attr
  | like {attr : Attribute} {pattern : String} : ReadsText (.like attr pattern) attr

namespace Predicate

/-- All tests are well typed, none is for a viewer, and no conjunction is empty. -/
inductive WellTyped : Predicate → Prop
  | all : WellTyped .all
  | test {t : Test} : t.WellTyped → WellTyped (.test t)
  | and {parts : List Predicate} :
      parts ≠ [] → (∀ part ∈ parts, WellTyped part) → WellTyped (.and parts)
  | or {parts : List Predicate} : (∀ part ∈ parts, WellTyped part) → WellTyped (.or parts)
  | not {inner : Predicate} : WellTyped inner → WellTyped (.not inner)

/-- The first predicate is the second one or stands somewhere inside it. -/
inductive Within (p : Predicate) : Predicate → Prop
  | self : Within p p
  | and {part : Predicate} {parts : List Predicate} :
      part ∈ parts → Within p part → Within p (.and parts)
  | or {part : Predicate} {parts : List Predicate} :
      part ∈ parts → Within p part → Within p (.or parts)
  | not {inner : Predicate} : Within p inner → Within p (.not inner)

end Predicate

/-! ## Algorithm: evaluation that gets stuck -/

/-- Whether an operator allows an order.  A pattern and a membership test have no answer. -/
def Query.Op.allows? (op : Op) (o : Ordering) : Option Bool :=
  match op with
  | .like | .has => none
  | op => some (op.allows o)

/-- What is answered of the text of an attribute.  A picture may be without a comment, which is
answered with no; any other text has to be there. -/
def Item.answer? (item : Item) (attr : Attribute) (answer : String → Option Bool) : Option Bool :=
  match item.textValue? attr with
  | some s => answer s
  | none => if attr = .comment then some false else none

namespace Catalog

/-- The elements that pass, if there is an answer for each. -/
def keep? {α : Type} (test : α → Option Bool) : List α → Option (List α)
  | [] => some []
  | a :: rest =>
    match test a, keep? test rest with
    | some passed, some kept => some (if passed then a :: kept else kept)
    | _, _ => none

variable (c : Catalog)

/-- Whether a picture passes a test that asks for nothing of the wrong kind. -/
def passes? (item : Item) : Test → Option Bool
  | .visible viewer => some (c.visibleTo item viewer)
  | .compare attr op (.integer n) =>
    (c.integerValue? item attr).bind fun value => op.allows? (compare value n.toInt)
  | .compare attr op (.text s) => item.answer? attr fun value => op.allows? (compare value s)
  | .like attr pattern => item.answer? attr fun value => some (Pattern.matchesText pattern value)
  | .contains attr value => if attr = .tags then some ((c.tagNames item).contains value) else none

mutual

/-- The pictures of `base` that satisfy a predicate, if no test gets stuck on its way. -/
def select? : Predicate → (base : List ItemId) → Option (List ItemId)
  | .all, base => some base
  | .test t, base => keep? (fun id => (c.item? id).bind fun item => c.passes? item t) base
  | .and parts, base => selectAll? parts base
  | .or parts, base =>
    (selectAny? parts base).map fun found => base.filter fun id => found.contains id
  | .not inner, base =>
    (select? inner base).map fun found => base.filter fun id => !found.contains id

/-- What all parts keep, each narrowing what the one before it has left. -/
def selectAll? : List Predicate → (base : List ItemId) → Option (List ItemId)
  | [], base => some base
  | p :: rest, base => (select? p base).bind fun kept => selectAll? rest kept

/-- What some part keeps. -/
def selectAny? : List Predicate → (base : List ItemId) → Option (List ItemId)
  | [], _ => some []
  | p :: rest, base =>
    (select? p base).bind fun found => (selectAny? rest base).map fun others => found ++ others

end

end Catalog

/-! ## Lemmas: what is compiled -/

theorem Asks.wellTyped {attr : Attribute} {op : Op} {value : Literal} {t : Test}
    (h : Asks attr op value t) : t.WellTyped := by
  cases h with
  | contains hk => exact .contains hk
  | like hk _ => exact .like hk
  | integer hk hs => exact .integer hk hs
  | text hk hs => exact .text hk hs

namespace Predicate

theorem wellTyped_conjunction {parts : List Predicate} (h : ∀ part ∈ parts, part.WellTyped) :
    (conjunction parts).WellTyped := by
  cases parts with
  | nil => exact .all
  | cons p rest => exact .and (List.cons_ne_nil p rest) h

theorem wellTyped_ofGroup (kind : GroupKind) {parts : List Predicate}
    (h : ∀ part ∈ parts, part.WellTyped) : (ofGroup kind parts).WellTyped := by
  cases kind with
  | and => exact wellTyped_conjunction h
  | or => exact .or h
  | not =>
    match parts with
    | [] => exact .not (wellTyped_conjunction h)
    | [p] => exact .not (h p (List.mem_singleton_self p))
    | p :: q :: rest => exact .not (wellTyped_conjunction h)

/-- Whatever stands inside a well-typed predicate is well typed. -/
theorem WellTyped.of_within {p q : Predicate} (hq : q.WellTyped) (hp : p.Within q) :
    p.WellTyped := by
  induction hp with
  | self => exact hq
  | and hm _ ih =>
    cases hq with
    | and _ hall => exact ih (hall _ hm)
  | or hm _ ih =>
    cases hq with
    | or hall => exact ih (hall _ hm)
  | not _ ih =>
    cases hq with
    | not hinner => exact ih hinner

theorem WellTyped.not_within_empty {q : Predicate} (hq : q.WellTyped) :
    ¬ (Predicate.and []).Within q := by
  intro hp
  cases hq.of_within hp with
  | and hne _ => exact hne rfl

theorem WellTyped.of_test_within {q : Predicate} {t : Test} (hq : q.WellTyped)
    (ht : (Predicate.test t).Within q) : t.WellTyped := by
  cases hq.of_within ht with
  | test h => exact h

end Predicate

mutual

theorem wellTyped_of_compileNode {exposed : List Attribute} {n : Node} {p : Predicate}
    (h : compileNode exposed n = .ok p) : p.WellTyped := by
  match n with
  | .compare cmp =>
    obtain ⟨attr, t, _, _, ha, rfl⟩ := compileCompare_eq_ok_iff.1 h
    exact .test ha.wellTyped
  | .group kind children =>
    obtain ⟨parts, hparts, rfl⟩ := compileNode_group_eq_ok_iff.1 h
    exact Predicate.wellTyped_ofGroup kind (wellTyped_of_compileNodes hparts)

theorem wellTyped_of_compileNodes {exposed : List Attribute} {children : List Node}
    {parts : List Predicate} (h : compileNodes exposed children = .ok parts) :
    ∀ part ∈ parts, part.WellTyped := by
  match children with
  | [] =>
    cases h
    exact nofun
  | n :: rest =>
    obtain ⟨p, ps, hp, hps, rfl⟩ := compileNodes_cons_eq_ok_iff.1 h
    exact List.forall_mem_cons.2 ⟨wellTyped_of_compileNode hp, wellTyped_of_compileNodes hps⟩

end

/-! ## Lemmas: values and answers -/

theorem Item.textValue?_eq_none_iff {item : Item} {attr : Attribute} (hk : attr.kind = .text) :
    item.textValue? attr = none ↔ attr = .comment ∧ item.comment = none := by
  cases attr with
  | name | comment | filetype => simp [textValue?]
  | width | height | aspect | rating | nsfw | size | tags => cases hk

theorem Query.Op.IsScalar.allows?_eq {op : Op} (hs : op.IsScalar) (o : Ordering) :
    op.allows? o = some (op.allows o) := by
  obtain ⟨hl, hh⟩ := hs
  cases op <;> first | rfl | contradiction

/-- Where each text has an answer there is an answer, and for an absent comment it is no. -/
theorem Item.answer?_eq_some {item : Item} {attr : Attribute} (hk : attr.kind = .text)
    (answer : String → Bool) :
    item.answer? attr (fun s => some (answer s)) = some ((item.textValue? attr).any answer) := by
  unfold answer?
  cases hv : item.textValue? attr with
  | some s => rfl
  | none => exact if_pos ((textValue?_eq_none_iff hk).1 hv).1

theorem Attribute.eq_tags_of_kind {attr : Attribute} (hk : attr.kind = .set) : attr = .tags := by
  cases attr <;> first | rfl | cases hk

namespace Catalog

variable {c : Catalog}

theorem exists_integerValue? {attr : Attribute} (hk : attr.kind = .integer) (item : Item) :
    ∃ value, c.integerValue? item attr = some value := by
  cases attr <;> first | exact ⟨_, rfl⟩ | cases hk

theorem passes?_of_wellTyped {t : Test} (ht : t.WellTyped) (item : Item) :
    c.passes? item t = some (c.passes item t) := by
  cases ht with
  | integer hk hs =>
    obtain ⟨value, hv⟩ := exists_integerValue? (c := c) hk item
    rw [passes?, passes, hv, Option.bind_some, hs.allows?_eq, Option.any_some]
  | text hk hs =>
    simp only [passes?, passes, hs.allows?_eq]
    exact Item.answer?_eq_some hk _
  | like hk => exact Item.answer?_eq_some hk _
  | contains hk => rw [passes?, if_pos (Attribute.eq_tags_of_kind hk), passes]

theorem keep?_eq_filter {α : Type} {test : α → Option Bool} {f : α → Bool} {l : List α}
    (h : ∀ a ∈ l, test a = some (f a)) : keep? test l = some (l.filter f) := by
  induction l with
  | nil => rfl
  | cons a rest ih =>
    obtain ⟨ha, hrest⟩ := List.forall_mem_cons.1 h
    rw [keep?, ha, ih hrest, List.filter_cons]

/-- A test that is answered for every picture narrows a list of pictures. -/
theorem select?_test {t : Test} (ht : ∀ item, c.passes? item t = some (c.passes item t))
    {base : List ItemId} (hb : ∀ id ∈ base, ∃ item, c.item? id = some item) :
    c.select? (.test t) base = some (c.select (.test t) base) := by
  rw [select?, select]
  refine keep?_eq_filter fun id hid => ?_
  obtain ⟨item, hi⟩ := hb id hid
  rw [hi, Option.bind_some, ht, Option.any_some]

theorem exists_item_of_mem_select {p : Predicate} {base : List ItemId}
    (hb : ∀ id ∈ base, ∃ item, c.item? id = some item) :
    ∀ id ∈ c.select p base, ∃ item, c.item? id = some item := by
  intro id hid
  rw [select_eq_filter] at hid
  exact hb id (List.mem_filter.1 hid).1

mutual

/-- Evaluation of a well-typed predicate never gets stuck. -/
theorem select?_of_wellTyped {p : Predicate} (hp : p.WellTyped) {base : List ItemId}
    (hb : ∀ id ∈ base, ∃ item, c.item? id = some item) :
    c.select? p base = some (c.select p base) := by
  match p with
  | .all => rfl
  | .test t =>
    cases hp with
    | test ht => exact select?_test (passes?_of_wellTyped ht) hb
  | .and parts =>
    cases hp with
    | and _ hall =>
      rw [select?, select]
      exact selectAll?_of_wellTyped hall hb
  | .or parts =>
    cases hp with
    | or hall =>
      rw [select?, select, selectAny?_of_wellTyped hall hb]
      rfl
  | .not inner =>
    cases hp with
    | not hinner =>
      rw [select?, select, select?_of_wellTyped hinner hb]
      rfl

theorem selectAll?_of_wellTyped {parts : List Predicate} (hp : ∀ part ∈ parts, part.WellTyped)
    {base : List ItemId} (hb : ∀ id ∈ base, ∃ item, c.item? id = some item) :
    c.selectAll? parts base = some (c.selectAll parts base) := by
  match parts with
  | [] => rfl
  | p :: rest =>
    obtain ⟨hp, hrest⟩ := List.forall_mem_cons.1 hp
    rw [selectAll?, selectAll, select?_of_wellTyped hp hb, Option.bind_some]
    exact selectAll?_of_wellTyped hrest (exists_item_of_mem_select hb)

theorem selectAny?_of_wellTyped {parts : List Predicate} (hp : ∀ part ∈ parts, part.WellTyped)
    {base : List ItemId} (hb : ∀ id ∈ base, ∃ item, c.item? id = some item) :
    c.selectAny? parts base = some (c.selectAny parts base) := by
  match parts with
  | [] => rfl
  | p :: rest =>
    obtain ⟨hp, hrest⟩ := List.forall_mem_cons.1 hp
    rw [selectAny?, selectAny, select?_of_wellTyped hp hb, selectAny?_of_wellTyped hrest hb]
    rfl

end

/-- Asking for the viewer first changes nothing about that. -/
theorem select?_confined {q : Predicate} (hq : q.WellTyped) (viewer : ViewerId)
    {base : List ItemId} (hb : ∀ id ∈ base, ∃ item, c.item? id = some item) :
    c.select? (.and [.test (.visible viewer), q]) base =
      some (c.select (.and [.test (.visible viewer), q]) base) := by
  have hfirst := select?_test (c := c) (t := .visible viewer) (fun _ => rfl) hb
  have hseen := exists_item_of_mem_select (p := .test (.visible viewer)) hb
  have hsecond := select?_of_wellTyped hq hseen
  simp only [select?, selectAll?, select, selectAll] at hfirst hsecond ⊢
  rw [hfirst, Option.bind_some, hsecond, Option.bind_some]

end Catalog

/-! ## Top theorem -/

/-- **Compiled predicates are well typed.** What a tree compiles to asks for the viewer first and
nowhere else, and then for tests of the right kinds.  So in every catalog the numbers that it
compares are there, the only text that may be absent is a comment, and evaluation never gets
stuck. -/
theorem compile_wellTyped {exposed : List Attribute} {root : Group} {viewer : ViewerId}
    {p : Predicate} (h : compile exposed root viewer = .ok p) :
    ∃ q, compileNode exposed root.toNode = .ok q ∧ p = .and [.test (.visible viewer), q] ∧
      ¬ (Predicate.and []).Within q ∧ (∀ t, (Predicate.test t).Within q → t.WellTyped) ∧
      ∀ c : Catalog,
        (∀ item t, (Predicate.test t).Within q →
          (∀ attr op n, t = .compare attr op (.integer n) →
            ∃ value, c.integerValue? item attr = some value) ∧
          ∀ attr, t.ReadsText attr →
            (item.textValue? attr = none ↔ attr = .comment ∧ item.comment = none)) ∧
        ∀ base, (∀ id ∈ base, ∃ item, c.item? id = some item) →
          c.select? p base = some (c.select p base) := by
  obtain ⟨q, hq, rfl⟩ := map_eq_ok_iff.1 h
  have htyped := wellTyped_of_compileNode hq
  refine ⟨q, hq, rfl, htyped.not_within_empty, fun t => htyped.of_test_within, fun c => ⟨?_, ?_⟩⟩
  · intro item t ht
    have ht := htyped.of_test_within ht
    refine ⟨?_, fun attr hr => ?_⟩
    · rintro attr op n rfl
      cases ht with
      | integer hk _ => exact Catalog.exists_integerValue? hk item
    · cases hr with
      | compare =>
        cases ht with
        | text hk _ => exact Item.textValue?_eq_none_iff hk
      | like =>
        cases ht with
        | like hk => exact Item.textValue?_eq_none_iff hk
  · exact fun base => Catalog.select?_confined htyped viewer

/-- A tree with tests of all kinds and, behind a denial, an empty group. -/
def everyKind : Group :=
  ⟨.and, [.group .or [.compare ⟨"rating", .gte, .integer 3⟩, .group .not [],
    .compare ⟨"comment", .neq, .integer 5⟩], .compare ⟨"name", .like, .text "%.png"⟩,
    .compare ⟨"tags", .has, .text "IFDY"⟩]⟩

/-- Neither picture has a comment, and evaluation does not get stuck on that. -/
theorem compile_wellTyped_everyKind :
    ∃ p q item, compile Attribute.all everyKind ⟨2⟩ = .ok p ∧
      p = .and [.test (.visible ⟨2⟩), q] ∧ ¬ (Predicate.and []).Within q ∧
      (Predicate.test (.compare .comment .neq (.text "5"))).Within q ∧
      (Test.compare .comment .neq (.text "5")).WellTyped ∧
      Catalog.withSmall.item? ⟨1⟩ = some item ∧ item.textValue? .comment = none ∧
      Catalog.withSmall.select? p Catalog.withSmall.itemIds =
        some (Catalog.withSmall.matching p) := by
  have h : compile Attribute.all everyKind ⟨2⟩ = .ok _ := rfl
  obtain ⟨q, hq, hp, hempty, htyped, hall⟩ := compile_wellTyped h
  obtain ⟨hvalues, hselect⟩ := hall Catalog.withSmall
  have hcompiled : compileNode Attribute.all everyKind.toNode = .ok (.and
      [.or [.test (.compare .rating .gte (.integer 3)), .not .all,
        .test (.compare .comment .neq (.text "5"))],
        .test (.like .name "%.png"), .test (.contains .tags "IFDY")]) := rfl
  have hwithin : (Predicate.test (.compare .comment .neq (.text "5"))).Within q := by
    obtain rfl := Except.ok.inj (hcompiled.symm.trans hq)
    exact .and (List.mem_cons_self ..) (.or (by simp) .self)
  refine ⟨_, q, _, h, hp, hempty, hwithin, htyped _ hwithin, rfl, ?_, ?_⟩
  · exact ((hvalues _ _ hwithin).2 .comment .compare).2 ⟨rfl, rfl⟩
  · exact hselect _ fun id => (Catalog.withSmall.mem_itemIds_iff id).1

/-- A comparison of a name with a number gets stuck where the evaluator answers no. -/
example : Catalog.withSmall.select? (.test (.compare .name .eq (.integer 3))) [⟨0⟩] = none ∧
    Catalog.withSmall.select (.test (.compare .name .eq (.integer 3))) [⟨0⟩] = [] := ⟨rfl, rfl⟩

end PictureSearch
