import PictureSearch.Proofs.Search.Typing
import PictureSearch.Proofs.Text.Quoting

/-!
# Predicates are told by their text

The text of a predicate has no brackets around tests and denials, and what users write stands in it
between quotes.  Still it says what it is the text of: a test, a denial and a group begin
differently, and each of them says where it ends.  Only a group of one part does not tell which
group it is:

    p.singlesAsOr.display = p.display                                          (display_singlesAsOr)
    p.display.toList ++ u = q.display.toList ++ v →
      p.singlesAsOr = q.singlesAsOr ∧ u = v                                         (display_cancel)

That makes no difference to what is found, so predicates with the same text find the same pictures.
-/

namespace PictureSearch

open Query Text

/-! ## Statements -/

namespace Predicate

/-- The conjunction of several parts; one part alone stands in a disjunction. -/
def joined : List Predicate → Predicate
  | [part] => .or [part]
  | parts => .and parts

mutual

/-- The predicate with a disjunction in place of each conjunction of one part. -/
def singlesAsOr : Predicate → Predicate
  | .all => .all
  | .test t => .test t
  | .and parts => joined (singlesAsOrAll parts)
  | .or parts => .or (singlesAsOrAll parts)
  | .not inner => .not inner.singlesAsOr

def singlesAsOrAll : List Predicate → List Predicate
  | [] => []
  | p :: rest => p.singlesAsOr :: singlesAsOrAll rest

end

/-- What the text of a predicate shows at its beginning; `ended` stands for the end of a group. -/
inductive Shape
  | all | test | group | not | ended
  deriving DecidableEq

def shape : Predicate → Shape
  | .all => .all
  | .test _ => .test
  | .and _ | .or _ => .group
  | .not _ => .not

/-- Two letters are enough: no attribute begins as `true` or `not` do. -/
def shapeOf : List Char → Shape
  | '(' :: _ => .group
  | ')' :: _ => .ended
  | 't' :: 'r' :: _ => .all
  | 'n' :: 'o' :: _ => .not
  | _ => .test

end Predicate

/-- A test of the value of an attribute: how the two are related, and to what. -/
inductive Test.Relates : Test → Attribute → String → Value → Prop
  | compare {attr : Attribute} {op : Op} {value : Value} :
      op.IsScalar → Relates (.compare attr op value) attr op.symbol value
  | like {attr : Attribute} {pattern : String} :
      Relates (.like attr pattern) attr "like" (.text pattern)

/-! ## Lemmas: words and numbers -/

/-- What stands bare in a text has no blank, end of a group or quote in it. -/
def isBareChar (c : Char) : Bool := c != ' ' && c != ')' && c != '"'

def IsBare (s : String) : Prop := ∀ c ∈ s.toList, isBareChar c = true

/-- The text ends what stands bare before it. -/
def EndsBare (u : List Char) : Prop := ∀ c ∈ u.head?, c = ' ' ∨ c = ')'

theorem endsBare_blank (u : List Char) : EndsBare (' ' :: u) := by
  intro c hc
  exact .inl (Option.some.inj hc).symm

theorem endsBare_close (u : List Char) : EndsBare (')' :: u) := by
  intro c hc
  exact .inr (Option.some.inj hc).symm

section

variable {s t : String} {u v : List Char}

theorem EndsBare.not_isBareChar (hu : EndsBare u) : ∀ c ∈ u.head?, isBareChar c = false := by
  intro c hc
  rcases hu c hc with rfl | rfl <;> rfl

theorem bare_cancel (hs : IsBare s) (ht : IsBare t) (hu : EndsBare u) (hv : EndsBare v)
    (h : s.toList ++ u = t.toList ++ v) : s = t ∧ u = v := by
  obtain ⟨hst, huv⟩ := stretch_cancel hs ht hu.not_isBareChar hv.not_isBareChar h
  exact ⟨String.toList_inj.1 hst, huv⟩

theorem bare_ne_quoted (hs : IsBare s) (hu : EndsBare u) :
    s.toList ++ u ≠ (quoted t).toList ++ v := by
  intro h
  have hquote : (s.toList ++ u).head? = some '"' := by
    rw [h, quoted, String.toList_ofList]
    rfl
  cases hchars : s.toList with
  | nil =>
    rw [hchars] at hquote
    rcases hu _ hquote with hc | hc <;> exact absurd hc (by decide)
  | cons c cs =>
    rw [hchars] at hquote
    obtain rfl := Option.some.inj hquote
    exact absurd (hs '"' (hchars ▸ List.mem_cons_self)) (by decide)

end

theorem isBare_attribute (attr : Attribute) : IsBare attr.text := by
  apply List.all_eq_true.1
  cases attr <;> rfl

theorem isBare_symbol (op : Op) : IsBare op.symbol := by
  apply List.all_eq_true.1
  cases op <;> rfl

theorem isDigit_of_mem_natural {n : Nat} {c : Char} (hc : c ∈ (toString n).toList) :
    c.isDigit = true :=
  Nat.isDigit_of_mem_toDigits (by decide) (by decide) (Nat.toList_repr ▸ hc)

theorem isBare_natural (n : Nat) : IsBare (toString n) := by
  intro c hc
  have hdigit := isDigit_of_mem_natural hc
  unfold isBareChar
  by_contra hne
  simp only [Bool.and_eq_true, bne_iff_ne, not_and_or, not_not] at hne
  rcases hne with (rfl | rfl) | rfl <;> cases hdigit

theorem toList_negative (n : Nat) :
    (toString (Int.negSucc n)).toList = '-' :: (toString (n + 1)).toList := String.toList_append

theorem isBare_integer (n : Int) : IsBare (toString n) := by
  cases n with
  | ofNat n => exact isBare_natural n
  | negSucc n =>
    intro c hc
    rw [toList_negative] at hc
    rcases List.mem_cons.1 hc with rfl | hc
    · rfl
    · exact isBare_natural (n + 1) c hc

theorem natural_inj {m n : Nat} (h : toString m = toString n) : m = n := by
  have hread (k : Nat) : Nat.ofDigitChars 10 (toString k).toList 0 = k := by
    rw [Nat.toString_eq_repr, Nat.toList_repr, Nat.ofDigitChars_ten_toDigits]
  rw [← hread m, h, hread n]

/-- The sign tells the negative numbers from the others. -/
theorem integer_inj {m n : Int} (h : toString m = toString n) : m = n := by
  have hsign (k l : Nat) : toString (Int.ofNat k) ≠ toString (Int.negSucc l) := by
    intro hkl
    have hminus : '-' ∈ (toString k).toList := by
      show '-' ∈ (toString (Int.ofNat k)).toList
      rw [hkl, toList_negative]
      exact List.mem_cons_self
    exact absurd (isDigit_of_mem_natural hminus) (by decide)
  cases m with
  | ofNat m =>
    cases n with
    | ofNat n => exact congrArg Int.ofNat (natural_inj h)
    | negSucc n => exact absurd h (hsign m n)
  | negSucc m =>
    cases n with
    | ofNat n => exact absurd h.symm (hsign n m)
    | negSucc n =>
      have hchars := congrArg String.toList h
      rw [toList_negative, toList_negative] at hchars
      have hdigits := String.toList_inj.1 (List.cons.inj hchars).2
      exact congrArg Int.negSucc (Nat.succ_inj.1 (natural_inj hdigits))

/-! ## Lemmas: tests -/

section

variable {u v : List Char}

theorem Value.display_cancel {a b : Value} (hu : EndsBare u) (hv : EndsBare v)
    (h : a.display.toList ++ u = b.display.toList ++ v) : a = b ∧ u = v := by
  cases a with
  | integer m =>
    cases b with
    | integer n =>
      obtain ⟨hmn, huv⟩ := bare_cancel (isBare_integer _) (isBare_integer _) hu hv h
      exact ⟨congrArg Value.integer (Int64.toInt_inj.1 (integer_inj hmn)), huv⟩
    | text s => exact absurd h (bare_ne_quoted (isBare_integer _) hu)
  | text s =>
    cases b with
    | integer n => exact absurd h.symm (bare_ne_quoted (isBare_integer _) hv)
    | text t =>
      obtain ⟨rfl, huv⟩ := quoted_cancel h
      exact ⟨rfl, huv⟩

namespace Test

variable {t t' : Test} {attr attr' : Attribute} {r r' : String} {a b : Value}

theorem Relates.isBare (h : t.Relates attr r a) : IsBare r := by
  cases h with
  | compare _ => exact isBare_symbol _
  | like => exact List.all_eq_true.1 rfl

theorem Relates.toList_display (h : t.Relates attr r a) (u : List Char) :
    t.display.toList ++ u =
      attr.text.toList ++ ' ' :: (r.toList ++ ' ' :: (a.display.toList ++ u)) := by
  cases h with
  | compare _ => simp [display]
  | like => simp [display, Value.display]

theorem Relates.unique (h : t.Relates attr r a) (h' : t'.Relates attr r a) : t = t' := by
  cases h with
  | @compare _ op _ hop =>
    generalize hr : op.symbol = r at h'
    cases h' with
    | @compare _ op' _ hop' =>
      obtain ⟨hl, hh⟩ := hop
      obtain ⟨hl', hh'⟩ := hop'
      have : op = op' := by
        cases op <;> cases op' <;> first | rfl | contradiction
      rw [this]
    | like => cases op <;> exact absurd hr (by decide)
  | like =>
    generalize hr : "like" = r at h'
    cases h' with
    | @compare _ op' _ _ => cases op' <;> exact absurd hr (by decide)
    | like => rfl

/-- A well-typed test relates the value of an attribute, or it asks for a member. -/
theorem WellTyped.relates_or_contains (h : t.WellTyped) :
    (∃ attr r a, t.Relates attr r a) ∨ ∃ attr s, t = .contains attr s := by
  cases h with
  | integer _ hop => exact .inl ⟨_, _, _, .compare hop⟩
  | text _ hop => exact .inl ⟨_, _, _, .compare hop⟩
  | like _ => exact .inl ⟨_, _, _, .like⟩
  | contains _ => exact .inr ⟨_, _, rfl⟩

theorem Relates.display_cancel (h : t.Relates attr r a) (h' : t'.Relates attr' r' b)
    (hu : EndsBare u) (hv : EndsBare v) (heq : t.display.toList ++ u = t'.display.toList ++ v) :
    t = t' ∧ u = v := by
  rw [h.toList_display, h'.toList_display] at heq
  obtain ⟨hattr, hrest⟩ := bare_cancel (isBare_attribute _) (isBare_attribute _)
    (endsBare_blank _) (endsBare_blank _) heq
  obtain ⟨rfl, hvalue⟩ := bare_cancel h.isBare h'.isBare (endsBare_blank _) (endsBare_blank _)
    (List.cons.inj hrest).2
  obtain ⟨rfl, huv⟩ := Value.display_cancel hu hv (List.cons.inj hvalue).2
  obtain rfl := Attribute.text_inj hattr
  exact ⟨h.unique h', huv⟩

theorem toList_display_contains (attr : Attribute) (s : String) (u : List Char) :
    (contains attr s).display.toList ++ u =
      (quoted s).toList ++ (" in ".toList ++ (attr.text.toList ++ u)) := by
  simp [display]

theorem Relates.display_ne_contains (h : t.Relates attr r a) {s : String} :
    t.display.toList ++ u ≠ (contains attr' s).display.toList ++ v := by
  rw [h.toList_display, toList_display_contains]
  exact bare_ne_quoted (isBare_attribute _) (endsBare_blank _)

theorem WellTyped.display_cancel (h : t.WellTyped) (h' : t'.WellTyped) (hu : EndsBare u)
    (hv : EndsBare v) (heq : t.display.toList ++ u = t'.display.toList ++ v) :
    t = t' ∧ u = v := by
  rcases h.relates_or_contains with ⟨_, _, _, ht⟩ | ⟨attr, s, rfl⟩
  · rcases h'.relates_or_contains with ⟨_, _, _, ht'⟩ | ⟨attr', s', rfl⟩
    · exact ht.display_cancel ht' hu hv heq
    · exact absurd heq ht.display_ne_contains
  · rcases h'.relates_or_contains with ⟨_, _, _, ht'⟩ | ⟨attr', s', rfl⟩
    · exact absurd heq.symm ht'.display_ne_contains
    · rw [toList_display_contains, toList_display_contains] at heq
      obtain ⟨rfl, hrest⟩ := quoted_cancel heq
      obtain ⟨hattr, huv⟩ := bare_cancel (isBare_attribute _) (isBare_attribute _) hu hv
        (List.append_cancel_left hrest)
      obtain rfl := Attribute.text_inj hattr
      exact ⟨rfl, huv⟩

end Test

end

namespace Predicate

/-! ## Lemmas: groups -/

theorem shapeOf_display (p : Predicate) (u : List Char) :
    shapeOf (p.display.toList ++ u) = p.shape := by
  cases p with
  | all => rfl
  | test t =>
    rw [display]
    cases t with
    | visible viewer => rw [Test.display, String.append_assoc, String.toList_append]; rfl
    | compare attr op value =>
      simp only [Test.display, String.toList_append, List.append_assoc]
      cases attr <;> rfl
    | like attr pattern =>
      simp only [Test.display, String.toList_append, List.append_assoc]
      cases attr <;> rfl
    | contains attr value =>
      rw [Test.toList_display_contains, quoted, String.toList_ofList]
      rfl
  | and parts => rw [display, String.append_assoc, String.toList_append]; rfl
  | or parts => rw [display, String.append_assoc, String.toList_append]; rfl
  | not inner => rw [display, String.toList_append]; rfl

/-- What stands behind the first part of a group, with `u` behind the group. -/
def behind (separator : String) (rest : List Predicate) (u : List Char) : List Char :=
  match rest with
  | [] => ')' :: u
  | _ :: _ => separator.toList ++ ((displayAll separator rest).toList ++ ')' :: u)

section

variable {s s' : String} {p q : Predicate} {parts rest rest' : List Predicate} {u v : List Char}

theorem toList_displayAll_cons :
    (displayAll s (p :: rest)).toList ++ ')' :: u = p.display.toList ++ behind s rest u := by
  cases rest with
  | nil => rw [displayAll, behind]
  | cons q rest =>
    rw [displayAll, behind]
    · simp
    · exact nofun

theorem toList_display_and : (and parts).display.toList ++ u =
    '(' :: ((displayAll " and " parts).toList ++ ')' :: u) := by
  simp [display]

theorem toList_display_or : (or parts).display.toList ++ u =
    '(' :: ((displayAll " or " parts).toList ++ ')' :: u) := by
  simp [display]

theorem toList_display_not :
    (not p).display.toList ++ u = "not ".toList ++ (p.display.toList ++ u) := by
  simp [display]

/-- The separators of groups. -/
def Joins (separator : String) : Prop := separator = " and " ∨ separator = " or "

theorem endsBare_behind (hs : Joins s) : EndsBare (behind s rest u) := by
  cases rest with
  | nil => exact endsBare_close u
  | cons q rest => rcases hs with rfl | rfl <;> exact endsBare_blank _

/-- The end of a group is told from more parts, and of one separator from the other. -/
theorem behind_cancel (hs : Joins s) (hs' : Joins s') (h : behind s rest u = behind s' rest' v) :
    (rest = [] ∧ rest' = [] ∧ u = v) ∨
      (rest ≠ [] ∧ rest' ≠ [] ∧ s = s' ∧ (displayAll s rest).toList ++ ')' :: u =
        (displayAll s' rest').toList ++ ')' :: v) := by
  cases rest with
  | nil =>
    cases rest' with
    | nil => exact .inl ⟨rfl, rfl, (List.cons.inj h).2⟩
    | cons _ _ => rcases hs' with rfl | rfl <;> cases h
  | cons p rest =>
    cases rest' with
    | nil => rcases hs with rfl | rfl <;> cases h
    | cons q rest' =>
      refine .inr ⟨nofun, nofun, ?_⟩
      rcases hs with rfl | rfl <;> rcases hs' with rfl | rfl
      · exact ⟨rfl, List.append_cancel_left h⟩
      · cases h
      · cases h
      · exact ⟨rfl, List.append_cancel_left h⟩

theorem wellTyped_test_iff {t : Test} : (test t).WellTyped ↔ t.WellTyped :=
  ⟨fun | .test h => h, .test⟩

theorem wellTyped_and_iff :
    (and parts).WellTyped ↔ parts ≠ [] ∧ ∀ part ∈ parts, part.WellTyped :=
  ⟨fun | .and hne h => ⟨hne, h⟩, fun ⟨hne, h⟩ => .and hne h⟩

theorem wellTyped_or_iff : (or parts).WellTyped ↔ ∀ part ∈ parts, part.WellTyped :=
  ⟨fun | .or h => h, .or⟩

theorem wellTyped_not_iff : (not p).WellTyped ↔ p.WellTyped := ⟨fun | .not h => h, .not⟩

theorem length_singlesAsOrAll (parts : List Predicate) :
    (singlesAsOrAll parts).length = parts.length := by
  induction parts with
  | nil => rfl
  | cons p rest ih => rw [singlesAsOrAll, List.length_cons, ih, List.length_cons]

theorem singlesAsOr_and_of_single (hne : parts ≠ []) (hlen : parts.length ≤ 1) :
    (and parts).singlesAsOr = (or parts).singlesAsOr := by
  match parts with
  | [] => exact absurd rfl hne
  | [p] => rfl
  | _ :: _ :: _ => simp at hlen

end

/-! ## Lemmas: predicates -/

mutual

/-- The text of a predicate ends where it does, whatever stands behind it. -/
theorem display_cancel {p q : Predicate} {u v : List Char} (hp : p.WellTyped) (hq : q.WellTyped)
    (hu : EndsBare u) (hv : EndsBare v) (h : p.display.toList ++ u = q.display.toList ++ v) :
    p.singlesAsOr = q.singlesAsOr ∧ u = v := by
  have hshape : p.shape = q.shape := by rw [← shapeOf_display p u, h, shapeOf_display]
  cases p with
  | all =>
    cases q with
    | all => exact ⟨rfl, List.append_cancel_left h⟩
    | test _ | and _ | or _ | not _ => cases hshape
  | test t =>
    cases q with
    | test t' =>
      rw [wellTyped_test_iff] at hp hq
      obtain ⟨rfl, huv⟩ := hp.display_cancel hq hu hv h
      exact ⟨rfl, huv⟩
    | all | and _ | or _ | not _ => cases hshape
  | not inner =>
    cases q with
    | not inner' =>
      rw [wellTyped_not_iff] at hp hq
      rw [toList_display_not, toList_display_not] at h
      obtain ⟨hsame, huv⟩ := display_cancel hp hq hu hv (List.append_cancel_left h)
      exact ⟨congrArg Predicate.not hsame, huv⟩
    | all | test _ | and _ | or _ => cases hshape
  | and parts =>
    obtain ⟨hne, hparts⟩ := wellTyped_and_iff.1 hp
    rw [toList_display_and] at h
    cases q with
    | and parts' =>
      obtain ⟨-, hparts'⟩ := wellTyped_and_iff.1 hq
      rw [toList_display_and] at h
      obtain ⟨hall, -, huv⟩ :=
        displayAll_cancel hparts hparts' (.inl rfl) (.inl rfl) (List.cons.inj h).2
      exact ⟨congrArg joined hall, huv⟩
    | or parts' =>
      have hparts' := wellTyped_or_iff.1 hq
      rw [toList_display_or] at h
      obtain ⟨hall, hsingle, huv⟩ :=
        displayAll_cancel hparts hparts' (.inl rfl) (.inr rfl) (List.cons.inj h).2
      rw [singlesAsOr_and_of_single hne (hsingle.resolve_left (by decide))]
      exact ⟨congrArg Predicate.or hall, huv⟩
    | all | test _ | not _ => cases hshape
  | or parts =>
    have hparts := wellTyped_or_iff.1 hp
    rw [toList_display_or] at h
    cases q with
    | and parts' =>
      obtain ⟨hne', hparts'⟩ := wellTyped_and_iff.1 hq
      rw [toList_display_and] at h
      obtain ⟨hall, hsingle, huv⟩ :=
        displayAll_cancel hparts hparts' (.inr rfl) (.inl rfl) (List.cons.inj h).2
      have hlength := congrArg List.length hall
      rw [length_singlesAsOrAll, length_singlesAsOrAll] at hlength
      rw [singlesAsOr_and_of_single hne' (hlength ▸ hsingle.resolve_left (by decide))]
      exact ⟨congrArg Predicate.or hall, huv⟩
    | or parts' =>
      have hparts' := wellTyped_or_iff.1 hq
      rw [toList_display_or] at h
      obtain ⟨hall, -, huv⟩ :=
        displayAll_cancel hparts hparts' (.inr rfl) (.inr rfl) (List.cons.inj h).2
      exact ⟨congrArg Predicate.or hall, huv⟩
    | all | test _ | not _ => cases hshape

/-- So does the text of the parts of a group; it tells the separator if there are several. -/
theorem displayAll_cancel {parts parts' : List Predicate} {s s' : String} {u v : List Char}
    (hp : ∀ part ∈ parts, part.WellTyped) (hp' : ∀ part ∈ parts', part.WellTyped)
    (hs : Joins s) (hs' : Joins s')
    (h : (displayAll s parts).toList ++ ')' :: u = (displayAll s' parts').toList ++ ')' :: v) :
    singlesAsOrAll parts = singlesAsOrAll parts' ∧ (s = s' ∨ parts.length ≤ 1) ∧ u = v := by
  match parts, parts' with
  | [], [] => exact ⟨rfl, .inr (Nat.zero_le 1), (List.cons.inj h).2⟩
  | [], q :: rest' =>
    rw [toList_displayAll_cons] at h
    have hshape : Shape.ended = q.shape := by rw [← shapeOf_display q (behind s' rest' v), ← h]; rfl
    cases q <;> cases hshape
  | p :: rest, [] =>
    rw [toList_displayAll_cons] at h
    have hshape : p.shape = Shape.ended := by rw [← shapeOf_display p (behind s rest u), h]; rfl
    cases p <;> cases hshape
  | p :: rest, q :: rest' =>
    obtain ⟨hp, hrest⟩ := List.forall_mem_cons.1 hp
    obtain ⟨hq, hrest'⟩ := List.forall_mem_cons.1 hp'
    rw [toList_displayAll_cons, toList_displayAll_cons] at h
    obtain ⟨hsame, hbehind⟩ := display_cancel hp hq (endsBare_behind hs) (endsBare_behind hs') h
    rw [singlesAsOrAll, singlesAsOrAll, hsame]
    rcases behind_cancel hs hs' hbehind with ⟨rfl, rfl, huv⟩ | ⟨-, -, rfl, htail⟩
    · exact ⟨rfl, .inr (Nat.le_refl 1), huv⟩
    · obtain ⟨hall, -, huv⟩ := displayAll_cancel hrest hrest' hs hs htail
      rw [hall]
      exact ⟨rfl, .inl rfl, huv⟩

end

/-! ## Lemmas: conjunctions of one part -/

theorem display_joined (parts : List Predicate) :
    (joined parts).display = (and parts).display := by
  match parts with
  | [] => rfl
  | [p] => simp [joined, display, displayAll]
  | _ :: _ :: _ => rfl

mutual

theorem display_singlesAsOr (p : Predicate) : p.singlesAsOr.display = p.display := by
  cases p with
  | all => rfl
  | test t => rfl
  | and parts =>
    rw [singlesAsOr, display_joined, display, display, displayAll_singlesAsOrAll]
  | or parts => rw [singlesAsOr, display, display, displayAll_singlesAsOrAll]
  | not inner => rw [singlesAsOr, display, display, display_singlesAsOr inner]

theorem displayAll_singlesAsOrAll (separator : String) (parts : List Predicate) :
    displayAll separator (singlesAsOrAll parts) = displayAll separator parts := by
  match parts with
  | [] => rfl
  | [p] => exact display_singlesAsOr p
  | p :: q :: rest =>
    show p.singlesAsOr.display ++ separator ++ displayAll separator (singlesAsOrAll (q :: rest)) =
      p.display ++ separator ++ displayAll separator (q :: rest)
    rw [display_singlesAsOr p, displayAll_singlesAsOrAll separator (q :: rest)]

end

end Predicate

namespace Catalog

variable (c : Catalog)

theorem admits_joined (parts : List Predicate) (id : ItemId) :
    c.admits (.joined parts) id = c.admitsAll parts id := by
  match parts with
  | [] => rfl
  | [p] => simp [Predicate.joined, admits, admitsAny, admitsAll]
  | _ :: _ :: _ => rfl

mutual

theorem admits_singlesAsOr (p : Predicate) (id : ItemId) :
    c.admits p.singlesAsOr id = c.admits p id := by
  cases p with
  | all => rfl
  | test t => rfl
  | and parts =>
    rw [Predicate.singlesAsOr, admits_joined, admits, admitsAll_singlesAsOrAll]
  | or parts => rw [Predicate.singlesAsOr, admits, admits, admitsAny_singlesAsOrAll]
  | not inner => rw [Predicate.singlesAsOr, admits, admits, admits_singlesAsOr inner]

theorem admitsAll_singlesAsOrAll (parts : List Predicate) (id : ItemId) :
    c.admitsAll (Predicate.singlesAsOrAll parts) id = c.admitsAll parts id := by
  cases parts with
  | nil => rfl
  | cons p rest =>
    rw [Predicate.singlesAsOrAll, admitsAll, admitsAll, admits_singlesAsOr p,
      admitsAll_singlesAsOrAll rest]

theorem admitsAny_singlesAsOrAll (parts : List Predicate) (id : ItemId) :
    c.admitsAny (Predicate.singlesAsOrAll parts) id = c.admitsAny parts id := by
  cases parts with
  | nil => rfl
  | cons p rest =>
    rw [Predicate.singlesAsOrAll, admitsAny, admitsAny, admits_singlesAsOr p,
      admitsAny_singlesAsOrAll rest]

end

/-- A conjunction of one part finds what the disjunction of that part finds. -/
theorem matching_singlesAsOr (p : Predicate) : c.matching p.singlesAsOr = c.matching p := by
  rw [matching_eq_filter, matching_eq_filter]
  exact List.filter_congr fun id _ => c.admits_singlesAsOr p id

end Catalog

/-! ## Lemmas: viewers -/

theorem display_confined (viewer : ViewerId) (p : Predicate) :
    (Predicate.and [.test (.visible viewer), p]).display.toList =
      "(visible_to(viewer#".toList ++ ((toString viewer.number.toNat).toList ++
        ')' :: (" and ".toList ++ (p.display.toList ++ [')']))) := by
  simp [Predicate.display, Predicate.displayAll, Test.display, ViewerId.display]

/-- The text also tells the viewer whom a predicate is confined to. -/
theorem display_confined_cancel {viewer viewer' : ViewerId} {p q : Predicate} (hp : p.WellTyped)
    (hq : q.WellTyped) (h : (Predicate.and [.test (.visible viewer), p]).display =
      (Predicate.and [.test (.visible viewer'), q]).display) :
    viewer = viewer' ∧ p.singlesAsOr = q.singlesAsOr := by
  have hchars := congrArg String.toList h
  rw [display_confined, display_confined] at hchars
  obtain ⟨hnumber, hrest⟩ := bare_cancel (isBare_natural _) (isBare_natural _)
    (endsBare_close _) (endsBare_close _) (List.append_cancel_left hchars)
  obtain ⟨hsame, -⟩ := Predicate.display_cancel hp hq (endsBare_close []) (endsBare_close [])
    (List.append_cancel_left (List.cons.inj hrest).2)
  exact ⟨congrArg ViewerId.mk (UInt64.toNat_inj.1 (natural_inj hnumber)), hsame⟩

/-! ## Top theorem -/

/-- **The text of a predicate tells what it finds.** Two compiled predicates have the same text
just where they are the same, conjunctions of one part taken as disjunctions; they are then for the
same viewer and find the same pictures in every catalog. -/
theorem compile_display {exposed exposed' : List Attribute} {root root' : Group}
    {viewer viewer' : ViewerId} {p q : Predicate} (hp : compile exposed root viewer = .ok p)
    (hq : compile exposed' root' viewer' = .ok q) :
    (p.display = q.display ↔ p.singlesAsOr = q.singlesAsOr) ∧
      (p.display = q.display → viewer = viewer' ∧ ∀ c : Catalog, c.matching p = c.matching q) := by
  obtain ⟨p, hcompiled, rfl⟩ := map_eq_ok_iff.1 hp
  obtain ⟨q, hcompiled', rfl⟩ := map_eq_ok_iff.1 hq
  have htyped := wellTyped_of_compileNode hcompiled
  have htyped' := wellTyped_of_compileNode hcompiled'
  have hsame : (Predicate.and [.test (.visible viewer), p]).display =
      (Predicate.and [.test (.visible viewer'), q]).display →
      (Predicate.and [.test (.visible viewer), p]).singlesAsOr =
        (Predicate.and [.test (.visible viewer'), q]).singlesAsOr := by
    intro h
    obtain ⟨rfl, hparts⟩ := display_confined_cancel htyped htyped' h
    show Predicate.and [_, p.singlesAsOr] = Predicate.and [_, q.singlesAsOr]
    rw [hparts]
  refine ⟨⟨hsame, fun h => ?_⟩, fun h => ⟨?_, fun c => ?_⟩⟩
  · rw [← Predicate.display_singlesAsOr, h, Predicate.display_singlesAsOr]
  · exact (display_confined_cancel htyped htyped' h).1
  · rw [← c.matching_singlesAsOr, hsame h, c.matching_singlesAsOr]

/-- A name with a quote, backslashes, words of its own and a mark on the last letter. -/
def quotedName (kind : GroupKind) : Group :=
  ⟨.and, [.group kind [.compare ⟨"name", .eq, .text "\" and (\\ or not\u0301"⟩]]⟩

/-- The conjunction and the disjunction of one test have one text and one result. -/
theorem compile_display_quotedName :
    ∃ p q, compile Attribute.all (quotedName .and) ⟨2⟩ = .ok p ∧
      compile Attribute.all (quotedName .or) ⟨2⟩ = .ok q ∧
      p.display =
        "(visible_to(viewer#2) and ((name = \"\\\" and (\\\\ or not\\u\x7b301\x7d\")))" ∧
      p.singlesAsOr = q.singlesAsOr ∧
      Catalog.withRated.matching p = Catalog.withRated.matching q := by
  have hp : compile Attribute.all (quotedName .and) ⟨2⟩ = .ok _ := rfl
  have hq : compile Attribute.all (quotedName .or) ⟨2⟩ = .ok _ := rfl
  obtain ⟨hdisplay, hmatching⟩ := compile_display hp hq
  have hsame := hdisplay.2 rfl
  exact ⟨_, _, hp, hq, by decide +kernel, hdisplay.1 hsame, (hmatching hsame).2 _⟩

end PictureSearch
