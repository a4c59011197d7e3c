import PictureSearch.Proofs.Search.Noninterference

/-!
# Faults of queries

A comparison is at fault if its name is not that of an exposed attribute, if its operator or its
value does not fit the attribute, or if its pattern is too large, and only the first of these
reasons is given.  A tree compiles where no comparison is at fault.  Otherwise the leftmost one
that is decides, however deep the groups around it are and whatever their kinds:

    compile exposed root viewer = .error e ↔
      LeftmostFault exposed root.toNode.comparisons e                  (compile_eq_error_iff)
    fewer ⊆ exposed → compile fewer root viewer = .ok p →
      compile exposed root viewer = .ok p                              (compile_of_subset)
-/

namespace PictureSearch

open Query

/-! ## Statements -/

namespace Query

mutual

/-- The comparisons of a tree, from left to right. -/
def Node.comparisons : Node → List Compare
  | .compare cmp => [cmp]
  | .group _ children => Node.comparisonsAmong children

/-- The comparisons of some trees, one tree after the other. -/
def Node.comparisonsAmong : List Node → List Compare
  | [] => []
  | n :: rest => n.comparisons ++ Node.comparisonsAmong rest

end

end Query

/-- Why an operator and a value do not fit an attribute. -/
inductive Misfits (attr : Attribute) : Op → Literal → ExecutionError → Prop
  /-- Several values can only be asked for a member. -/
  | several {op : Op} {value : Literal} :
      attr.kind = .set → op ≠ .has →
        Misfits attr op value (.typeMismatch attr .membershipTest .scalarComparison)
  /-- One value has no members. -/
  | member {value : Literal} :
      attr.kind ≠ .set → Misfits attr .has value (.unsupportedOperator attr .has attr.kind)
  /-- A number matches no pattern, also if the pattern is a number. -/
  | pattern {value : Literal} :
      attr.kind = .integer → Misfits attr .like value (.typeMismatch attr .integer .stringPattern)
  | string {op : Op} {s : String} :
      attr.kind = .integer → op.IsScalar →
        Misfits attr op (.text s) (.typeMismatch attr .integer .string)

/-- Why a comparison cannot be compiled. -/
inductive Query.Compare.Faulty (exposed : List Attribute) (cmp : Compare) : ExecutionError → Prop
  | unknown :
      (∀ attr ∈ exposed, attr.text ≠ cmp.attr) → Faulty exposed cmp (.unknownAttribute cmp.attr)
  | operands {attr : Attribute} {e : ExecutionError} :
      attr ∈ exposed → attr.text = cmp.attr → Misfits attr cmp.op cmp.value e →
        Faulty exposed cmp e
  | pattern {attr : Attribute} :
      attr ∈ exposed → attr.text = cmp.attr → (∀ e, ¬ Misfits attr cmp.op cmp.value e) →
        cmp.op = .like → 10000 < cmp.value.operandText.toList.count '%' →
          Faulty exposed cmp (.invalidPattern cmp.value.operandText)

/-- Nothing is wrong with a comparison. -/
def Query.Compare.Sound (exposed : List Attribute) (cmp : Compare) : Prop :=
  ∀ e, ¬ cmp.Faulty exposed e

/-- The first comparison that is at fault has the fault `e`. -/
def LeftmostFault (exposed : List Attribute) (cmps : List Compare) (e : ExecutionError) : Prop :=
  ∃ before cmp after, cmps = before ++ cmp :: after ∧
    (∀ b ∈ before, b.Sound exposed) ∧ cmp.Faulty exposed e

/-! ## Lemmas: one comparison -/

theorem resolve_eq_error_iff {exposed : List Attribute} {name : String} {e : ExecutionError} :
    resolve exposed name = .error e ↔
      (∀ attr ∈ exposed, attr.text ≠ name) ∧ e = .unknownAttribute name := by
  unfold resolve
  cases ho : Attribute.ofText? name with
  | none =>
    have hn : ∀ attr ∈ exposed, attr.text ≠ name := by
      intro attr _ hn
      rw [← Attribute.ofText?_eq_some_iff, ho] at hn
      cases hn
    rw [and_iff_right hn]
    simp [eq_comm]
  | some found =>
    have hfound : found.text = name := Attribute.ofText?_eq_some_iff.1 ho
    by_cases hm : found ∈ exposed
    · simp only [hm, if_true]
      exact iff_of_false (by simp) fun h => h.1 found hm hfound
    · have hn : ∀ attr ∈ exposed, attr.text ≠ name := by
        intro attr ha hn
        rw [Attribute.text_inj (hn.trans hfound.symm)] at ha
        exact hm ha
      rw [and_iff_right hn]
      simp [hm, eq_comm]

theorem checkOperands_eq_error_iff {attr : Attribute} {op : Op} {value : Literal}
    {e : ExecutionError} : checkOperands attr op value = .error e ↔ Misfits attr op value e := by
  constructor
  · intro h
    cases hk : attr.kind with
    | set =>
      by_cases ho : op = .has
      · simp [checkOperands, hk, ho] at h
      · cases op <;> simp [checkOperands, hk] at h ho <;> exact h ▸ .several hk (by decide)
    | integer =>
      cases op <;> cases value <;> simp [checkOperands, hk] at h
      case has.integer | has.text =>
        rw [← h, ← hk]
        exact .member (by simp [hk])
      case like.integer | like.text => exact h ▸ .pattern hk
      all_goals exact h ▸ .string hk ⟨by decide, by decide⟩
    | text =>
      cases op <;> simp [checkOperands, hk] at h
      rw [← h, ← hk]
      exact .member (by simp [hk])
  · intro h
    cases h with
    | several hk ho => cases op <;> simp [checkOperands, hk] at ho ⊢
    | member hk => cases hk' : attr.kind <;> simp [checkOperands, hk'] at hk ⊢
    | pattern hk => simp [checkOperands, hk]
    | string hk hs =>
      obtain ⟨hl, hh⟩ := hs
      cases op <;> simp [checkOperands, hk] at hl hh ⊢

theorem compileTest_eq_error_iff {attr : Attribute} {op : Op} {value : Literal}
    {e : ExecutionError} :
    compileTest attr op value = .error e ↔
      op = .like ∧ 10000 < value.operandText.toList.count '%' ∧
        e = .invalidPattern value.operandText := by
  cases op with
  | like =>
    by_cases hp : 10000 < value.operandText.toList.count '%' <;>
      simp [compileTest, Pattern.isTooLarge, Pattern.maxRuns, hp, eq_comm]
  | has => simp [compileTest]
  | eq | neq | gt | lt | gte | lte =>
    cases hk : attr.kind <;> cases value <;> simp [compileTest, hk]

/-- The reasons are looked for in turn: the name, the operands, the pattern. -/
theorem compileCompare_eq_error_iff {exposed : List Attribute} {cmp : Compare}
    {e : ExecutionError} : compileCompare exposed cmp = .error e ↔ cmp.Faulty exposed e := by
  have hfits {attr : Attribute} :
      checkOperands attr cmp.op cmp.value = .ok () ↔ ∀ e, ¬ Misfits attr cmp.op cmp.value e := by
    simp only [← checkOperands_eq_error_iff]
    cases checkOperands attr cmp.op cmp.value <;> simp
  unfold compileCompare
  constructor
  · intro h
    rcases bind_eq_error_iff.1 h with h | ⟨attr, hr, h⟩
    · obtain ⟨hn, rfl⟩ := resolve_eq_error_iff.1 h
      exact .unknown hn
    obtain ⟨hm, hn⟩ := resolve_eq_ok_iff.1 hr
    rcases bind_eq_error_iff.1 h with h | ⟨⟨⟩, hc, h⟩
    · exact .operands hm hn (checkOperands_eq_error_iff.1 h)
    rcases bind_eq_error_iff.1 h with h | ⟨t, _, h⟩
    · obtain ⟨ho, hp, rfl⟩ := compileTest_eq_error_iff.1 h
      exact .pattern hm hn (hfits.1 hc) ho hp
    · cases h
  · intro h
    cases h with
    | unknown hn => exact bind_eq_error_iff.2 (.inl (resolve_eq_error_iff.2 ⟨hn, rfl⟩))
    | @operands attr _ hm hn hmis =>
      refine bind_eq_error_iff.2 (.inr ⟨attr, resolve_eq_ok_iff.2 ⟨hm, hn⟩, ?_⟩)
      exact bind_eq_error_iff.2 (.inl (checkOperands_eq_error_iff.2 hmis))
    | @pattern attr hm hn hfit ho hp =>
      refine bind_eq_error_iff.2 (.inr ⟨attr, resolve_eq_ok_iff.2 ⟨hm, hn⟩, ?_⟩)
      refine bind_eq_error_iff.2 (.inr ⟨(), hfits.2 hfit, ?_⟩)
      exact bind_eq_error_iff.2 (.inl (compileTest_eq_error_iff.2 ⟨ho, hp, rfl⟩))

/-! ## Lemmas: the first of several -/

theorem not_leftmostFault_nil {exposed : List Attribute} {e : ExecutionError} :
    ¬ LeftmostFault exposed [] e := by
  rintro ⟨before, cmp, after, h, _⟩
  cases before <;> cases h

theorem leftmostFault_singleton_iff {exposed : List Attribute} {cmp : Compare}
    {e : ExecutionError} : LeftmostFault exposed [cmp] e ↔ cmp.Faulty exposed e := by
  constructor
  · rintro ⟨before, first, after, h, _, hf⟩
    obtain ⟨rfl, h⟩ | ⟨tail, rfl, h⟩ := List.cons_eq_append_iff.1 h
    · cases h
      exact hf
    · cases tail <;> cases h
  · exact fun hf => ⟨[], cmp, [], rfl, nofun, hf⟩

/-- Of two rows the second counts only where the first has no fault. -/
theorem leftmostFault_append_iff {exposed : List Attribute} {xs ys : List Compare}
    {e : ExecutionError} :
    LeftmostFault exposed (xs ++ ys) e ↔
      LeftmostFault exposed xs e ∨
        (∀ cmp ∈ xs, cmp.Sound exposed) ∧ LeftmostFault exposed ys e := by
  constructor
  · rintro ⟨before, cmp, after, h, hb, hf⟩
    obtain ⟨tail, hx, hy⟩ | ⟨tail, hx, hy⟩ := List.append_eq_append_iff.1 h
    · subst hx
      rw [List.forall_mem_append] at hb
      exact .inr ⟨hb.1, tail, cmp, after, hy, hb.2, hf⟩
    · obtain ⟨rfl, hy⟩ | ⟨rest, rfl, hy⟩ := List.cons_eq_append_iff.1 hy
      · rw [List.append_nil] at hx
        exact .inr ⟨hx ▸ hb, [], cmp, after, hy.symm, nofun, hf⟩
      · exact .inl ⟨before, cmp, rest, hx, hb, hf⟩
  · rintro (⟨before, cmp, after, rfl, hb, hf⟩ | ⟨hx, before, cmp, after, rfl, hb, hf⟩)
    · exact ⟨before, cmp, after ++ ys, by simp, hb, hf⟩
    · exact ⟨xs ++ before, cmp, after, by simp, List.forall_mem_append.2 ⟨hx, hb⟩, hf⟩

/-- Where some comparison is at fault, one of them is the leftmost. -/
theorem exists_leftmostFault_iff {exposed : List Attribute} {cmps : List Compare} :
    (∃ e, LeftmostFault exposed cmps e) ↔ ∃ cmp ∈ cmps, ∃ e, cmp.Faulty exposed e := by
  constructor
  · rintro ⟨e, before, cmp, after, rfl, _, hf⟩
    exact ⟨cmp, by simp, e, hf⟩
  · induction cmps with
    | nil => simp
    | cons first rest ih =>
      rintro ⟨cmp, hm, hf⟩
      by_cases hfirst : ∃ e, first.Faulty exposed e
      · obtain ⟨e, he⟩ := hfirst
        exact ⟨e, [], first, rest, rfl, nofun, he⟩
      · have hrest : ∃ cmp ∈ rest, ∃ e, cmp.Faulty exposed e := by
          obtain rfl | hm := List.mem_cons.1 hm
          · exact absurd hf hfirst
          · exact ⟨cmp, hm, hf⟩
        obtain ⟨e, before, cmp, after, rfl, hb, hf⟩ := ih hrest
        have hsound : first.Sound exposed := fun e he => hfirst ⟨e, he⟩
        exact ⟨e, first :: before, cmp, after, rfl, List.forall_mem_cons.2 ⟨hsound, hb⟩, hf⟩

/-! ## Lemmas: trees -/

/-- What fails with the leftmost fault goes well where every comparison is sound. -/
theorem exists_eq_ok_iff_sound {α : Type} {x : Except ExecutionError α} {exposed : List Attribute}
    {cmps : List Compare} (h : ∀ e, x = .error e ↔ LeftmostFault exposed cmps e) :
    (∃ a, x = .ok a) ↔ ∀ cmp ∈ cmps, cmp.Sound exposed := by
  have hnone : (∀ cmp ∈ cmps, cmp.Sound exposed) ↔ ¬ ∃ e, x = .error e := by
    simp only [h, exists_leftmostFault_iff]
    simp [Compare.Sound]
  rw [hnone]
  cases x <;> simp

mutual

theorem compileNode_eq_error_iff {exposed : List Attribute} {e : ExecutionError} {n : Node} :
    compileNode exposed n = .error e ↔ LeftmostFault exposed n.comparisons e := by
  match n with
  | .compare cmp =>
    rw [compileNode, Node.comparisons, leftmostFault_singleton_iff, compileCompare_eq_error_iff]
  | .group kind children =>
    rw [compileNode, Node.comparisons, map_eq_error_iff, compileNodes_eq_error_iff]

theorem compileNodes_eq_error_iff {exposed : List Attribute} {e : ExecutionError}
    {children : List Node} :
    compileNodes exposed children = .error e ↔
      LeftmostFault exposed (Node.comparisonsAmong children) e := by
  match children with
  | [] =>
    rw [compileNodes, Node.comparisonsAmong]
    simp [not_leftmostFault_nil]
  | n :: rest =>
    rw [Node.comparisonsAmong, leftmostFault_append_iff,
      ← exists_eq_ok_iff_sound fun _ => compileNode_eq_error_iff,
      ← compileNode_eq_error_iff, ← compileNodes_eq_error_iff, compileNodes]
    cases compileNode exposed n with
    | error _ => simp
    | ok p => simp [map_eq_error_iff]

end

mutual

/-- What compiles with few attributes compiles to the same with more. -/
theorem compileNode_of_subset {fewer exposed : List Attribute} (h : fewer ⊆ exposed) {n : Node}
    {p : Predicate} (hp : compileNode fewer n = .ok p) : compileNode exposed n = .ok p := by
  match n with
  | .compare cmp =>
    obtain ⟨attr, t, hm, hn, ha, rfl⟩ := compileCompare_eq_ok_iff.1 hp
    exact compileCompare_eq_ok_iff.2 ⟨attr, t, h hm, hn, ha, rfl⟩
  | .group kind children =>
    obtain ⟨parts, hparts, rfl⟩ := compileNode_group_eq_ok_iff.1 hp
    exact compileNode_group_eq_ok_iff.2 ⟨parts, compileNodes_of_subset h hparts, rfl⟩

theorem compileNodes_of_subset {fewer exposed : List Attribute} (h : fewer ⊆ exposed)
    {children : List Node} {parts : List Predicate} (hp : compileNodes fewer children = .ok parts) :
    compileNodes exposed children = .ok parts := by
  match children with
  | [] => exact hp
  | n :: rest =>
    obtain ⟨p, ps, hn, hrest, rfl⟩ := compileNodes_cons_eq_ok_iff.1 hp
    exact compileNodes_cons_eq_ok_iff.2
      ⟨p, ps, compileNode_of_subset h hn, compileNodes_of_subset h hrest, rfl⟩

end

theorem compile_eq_error_iff {exposed : List Attribute} {root : Group} {viewer : ViewerId}
    {e : ExecutionError} :
    compile exposed root viewer = .error e ↔ LeftmostFault exposed root.toNode.comparisons e := by
  rw [compile, map_eq_error_iff, compileNode_eq_error_iff]

theorem compile_of_subset {fewer exposed : List Attribute} (h : fewer ⊆ exposed) {root : Group}
    {viewer : ViewerId} {p : Predicate} (hp : compile fewer root viewer = .ok p) :
    compile exposed root viewer = .ok p := by
  obtain ⟨q, hq, rfl⟩ := map_eq_ok_iff.1 hp
  exact map_eq_ok_iff.2 ⟨q, compileNode_of_subset h hq, rfl⟩

/-! ## Top theorem -/

/-- **The leftmost fault is reported.** A tree fails to compile where some comparison is at fault,
and then with the leftmost fault.  What comes of it hangs neither on the viewer, whose number stands
in one test, nor on what a catalog holds.  With fewer attributes the outcome is an error or the same
predicate. -/
theorem compile_reports_leftmost (exposed : List Attribute) (root : Group) :
    (∀ viewer e, compile exposed root viewer = .error e ↔
      LeftmostFault exposed root.toNode.comparisons e) ∧
    (∀ viewer, (∃ e, compile exposed root viewer = .error e) ↔
      ∃ cmp ∈ root.toNode.comparisons, ∃ e, cmp.Faulty exposed e) ∧
    ((∃ e, ∀ viewer, compile exposed root viewer = .error e ∧
        ∀ (c : Catalog) key direction offset limit,
          c.answer exposed root viewer key direction offset limit = .error e) ∨
      ∃ q, ∀ viewer, compile exposed root viewer = .ok (.and [.test (.visible viewer), q]) ∧
        ∀ (c : Catalog) key direction offset limit,
          c.answer exposed root viewer key direction offset limit =
            .ok (c.tell ⟨.and [.test (.visible viewer), q], key, direction, offset, limit⟩)) ∧
    ∀ fewer ⊆ exposed, ∀ viewer, (∃ e, compile fewer root viewer = .error e) ∨
      ∃ p, compile fewer root viewer = .ok p ∧ compile exposed root viewer = .ok p := by
  refine ⟨fun _ _ => compile_eq_error_iff, fun viewer => ?_, ?_, fun fewer h viewer => ?_⟩
  · rw [← exists_leftmostFault_iff]
    exact exists_congr fun _ => compile_eq_error_iff
  · cases hroot : compileNode exposed root.toNode with
    | error e =>
      refine .inl ⟨e, fun viewer => ?_⟩
      have hc : compile exposed root viewer = .error e := map_eq_error_iff.2 hroot
      exact ⟨hc, fun _ _ _ _ _ => map_eq_error_iff.2 hc⟩
    | ok q =>
      refine .inr ⟨q, fun viewer => ?_⟩
      have hc : compile exposed root viewer = .ok (.and [.test (.visible viewer), q]) :=
        map_eq_ok_iff.2 ⟨q, hroot, rfl⟩
      exact ⟨hc, fun _ _ _ _ _ => map_eq_ok_iff.2 ⟨_, hc, rfl⟩⟩
  · cases hp : compile fewer root viewer with
    | error e => exact .inl ⟨e, rfl⟩
    | ok p => exact .inr ⟨p, rfl, compile_of_subset h hp⟩

/-- Two comparisons that cannot be compiled, behind denials of nothing and of two things. -/
def twoFaults : Group :=
  ⟨.or, [.group .not [], .group .not [.compare ⟨"rating", .gte, .integer 3⟩,
    .group .and [.compare ⟨"width", .gt, .text "wide"⟩]], .compare ⟨"tags", .eq, .text "IFDY"⟩]⟩

/-- Where the rating is not exposed, it is the first fault of the two trees. -/
theorem compile_reports_leftmost_instances :
    LeftmostFault Attribute.all twoFaults.toNode.comparisons
        (.typeMismatch .width .integer .string) ∧
      LeftmostFault [.width, .tags] twoFaults.toNode.comparisons (.unknownAttribute "rating") ∧
      [Attribute.width, .tags, .comment] ⊆ Attribute.all ∧
      ((∃ e, compile [.width, .tags, .comment] Catalog.severalDenied ⟨2⟩ = .error e) ∨
        ∃ p, compile [.width, .tags, .comment] Catalog.severalDenied ⟨2⟩ = .ok p ∧
          compile Attribute.all Catalog.severalDenied ⟨2⟩ = .ok p) := by
  have hs : [Attribute.width, .tags, .comment] ⊆ Attribute.all := by decide
  obtain ⟨-, -, -, hsub⟩ := compile_reports_leftmost Attribute.all Catalog.severalDenied
  exact ⟨((compile_reports_leftmost Attribute.all twoFaults).1 ⟨0⟩ _).1 rfl,
    ((compile_reports_leftmost [.width, .tags] twoFaults).1 ⟨0⟩ _).1 rfl, hs, hsub _ hs ⟨2⟩⟩

end PictureSearch
