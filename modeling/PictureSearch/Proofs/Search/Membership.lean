import PictureSearch.Proofs.Catalog.Indexed
import PictureSearch.Proofs.Search.Comparing

/-!
# Membership tests and the index of tag names

A membership test looks through the tags of the picture itself, and a catalog keeps an index of its
tags beside them.  Both say the same, whatever the catalog came from and whichever tags a picture
lists, twice or without there being any:

    c.Arises → c.item? id = some item → c.InScope item viewer →
      (id ∈ c.matching p ↔ ∃ tag ∈ item.tags, tag ∈ c.tagsNamed value.operandText)
                                                                              (matching_has_iff)
-/

namespace PictureSearch.Catalog

open Query

/-! ## Lemmas -/

theorem mem_tagNames_iff {c : Catalog} {item : Item} {name : String} :
    name ∈ c.tagNames item ↔ ∃ tag ∈ item.tags, c.tagName? tag = some name :=
  List.mem_filterMap

/-- The names that a picture's tags have are those under which the index has one of its tags. -/
theorem Indexed.mem_tagNames_iff {c : Catalog} (h : c.Indexed) {item : Item} {name : String} :
    name ∈ c.tagNames item ↔ ∃ tag ∈ item.tags, tag ∈ c.tagsNamed name := by
  rw [Catalog.mem_tagNames_iff]
  exact exists_congr fun tag => and_congr_right fun _ => (h name tag).symm

/-! ## Top theorem -/

/-- **Membership agrees with the index of tag names.** In every catalog there can be, a membership
test finds a picture that the viewer sees if and only if the index has one of the picture's tags
under the text asked for, and if and only if that text is among the names of its tags. -/
theorem matching_has_iff {c : Catalog} (h : c.Arises) {exposed : List Attribute}
    (hm : .tags ∈ exposed) (value : Literal) (viewer : ViewerId) :
    ∃ p, compile exposed (.ofNode (.compare ⟨"tags", .has, value⟩)) viewer = .ok p ∧
      ∀ id item, c.item? id = some item → c.InScope item viewer →
        (id ∈ c.matching p ↔ ∃ tag ∈ item.tags, tag ∈ c.tagsNamed value.operandText) ∧
        (id ∈ c.matching p ↔ value.operandText ∈ c.tagNames item) := by
  have ha : Asks .tags .has value (.contains .tags value.operandText) := .contains rfl
  refine ⟨_, compile_of_asks hm ha viewer, fun id item hi hv => ?_⟩
  rw [mem_matching_asking_iff c hi hv, passes, List.contains_iff_mem]
  exact ⟨(indexed_of_arises h).mem_tagNames_iff, Iff.rfl⟩

/-- A picture that lists a tag twice and two tags that there are not, and a tag whose number comes
twice, with another name the second time. -/
def renamed : List UInt8 :=
  [2, 1, 0, 1, 0x4C, 1, 0x6C, 1, 0x2F, 0, 0, 0, 1, 0, 1, 0x66, 0, 0, 0, 0,
   1, 7, 1, 0x70, 0, 5, 6, 9, 0, 0, 0, 4, 3, 5, 5, 8,
   3, 5, 1, 0x62, 0, 0, 2, 1, 0x61, 1, 9, 0, 5, 1, 0x63, 0, 0]

/-- The picture is found by the name that its tag has, and not by the one that the tag had. -/
theorem matching_has_iff_renamed :
    ∃ c item p q, c.Arises ∧ ofPayload renamed = .ok c ∧
      c.item? ⟨7⟩ = some item ∧ item.tags = [⟨3⟩, ⟨5⟩, ⟨5⟩, ⟨8⟩] ∧
      compile Attribute.all (.ofNode (.compare ⟨"tags", .has, .text "c"⟩)) ⟨0⟩ = .ok p ∧
      compile Attribute.all (.ofNode (.compare ⟨"tags", .has, .text "b"⟩)) ⟨0⟩ = .ok q ∧
      ⟨7⟩ ∈ c.matching p ∧ ⟨7⟩ ∉ c.matching q := by
  have hload : ofPayload renamed = .ok _ := rfl
  have harises : Arises _ := .payload hload
  have hm : .tags ∈ Attribute.all := by decide
  obtain ⟨p, hp, hnew⟩ := matching_has_iff harises hm (.text "c") ⟨0⟩
  obtain ⟨q, hq, hold⟩ := matching_has_iff harises hm (.text "b") ⟨0⟩
  refine ⟨_, _, p, q, harises, hload, rfl, rfl, hp, hq, ?_, ?_⟩
  · exact (hnew ⟨7⟩ _ rfl ⟨_, ⟨_, rfl, rfl⟩, .inl rfl⟩).1.2 ⟨⟨5⟩, by decide, by decide +kernel⟩
  · rw [(hold ⟨7⟩ _ rfl ⟨_, ⟨_, rfl, rfl⟩, .inl rfl⟩).2]
    decide +kernel

end PictureSearch.Catalog
