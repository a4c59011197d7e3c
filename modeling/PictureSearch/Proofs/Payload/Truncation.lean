import PictureSearch.Proofs.Payload.Reading
import PictureSearch.Proofs.Payload.Reloading

/-!
# Payloads cut short and continued

Bytes behind a payload are never looked at, and a payload that is cut short is never taken for that
of a smaller catalog: reading it runs out of bytes.

    ¬ RunsOut (ofPayload bytes) → ofPayload (bytes ++ more) = ofPayload bytes
    c.Obtained → ofPayload (c.toPayload ++ more) = .ok c
    c.Obtained → cut <+: c.toPayload → cut ≠ c.toPayload → RunsOut (ofPayload cut)
                                                              (ofPayload_cut_or_continued)

The last two hold of catalogs that were built and of those that were read, from whatever bytes:
what is read fits the coder again (`yields_catalog`).
-/

namespace PictureSearch

/-! ## Statements -/

/-- The bytes ended where more of them were wanted. -/
def RunsOut (outcome : Except Payload.Malformed Catalog) : Prop :=
  ∃ e, outcome = .error e ∧ e.message = "Hit the end of buffer, expected more data"

/-- The catalog was built by no more calls than a word counts, with texts whose bytes a word
counts, or it was read from bytes. -/
inductive Catalog.Obtained : Catalog → Prop
  | built {calls : List BuildCall} :
      calls.length < UInt64.size → (∀ call ∈ calls, call.TextsFit) → Obtained (build calls)
  | read {bytes : List UInt8} {c : Catalog} : ofPayload bytes = .ok c → Obtained c

namespace Payload

open Coder

/-! ## Lemmas: records -/

theorem steady_id {ι : Type} (read : Nat → ι) (write : ι → Nat) :
    Steady (word64.map read write).decode :=
  steady_map steady_word64 read write

theorem steady_library : Steady library.decode :=
  steady_map (steady_pair steady_string (steady_pair steady_string (steady_pair steady_string
    (steady_pair steady_bool (steady_pair (steady_option (steady_id _ _))
      (steady_list (steady_id _ _))))))) _ _

theorem steady_folder : Steady folder.decode :=
  steady_map (steady_pair steady_string (steady_pair (steady_id _ _)
    (steady_pair (steady_option (steady_id _ _))
      (steady_pair (steady_list (steady_id _ _)) (steady_list (steady_id _ _)))))) _ _

theorem steady_item : Steady item.decode :=
  steady_map (steady_pair steady_string (steady_pair (steady_id _ _)
    (steady_pair (steady_map steady_word32 _ _) (steady_pair (steady_map steady_word32 _ _)
      (steady_pair steady_byte (steady_pair steady_bool (steady_pair (steady_option steady_string)
        (steady_pair (steady_id _ _) (steady_list (steady_id _ _)))))))))) _ _

theorem steady_tag : Steady tag.decode :=
  steady_map (steady_pair steady_string
    (steady_pair (steady_option (steady_id _ _)) (steady_list (steady_id _ _)))) _ _

theorem steady_records {α : Type} {c : Coder α} (h : Steady c.decode) :
    Steady (records c).decode :=
  steady_map (steady_list (steady_pair steady_word64 h)) _ _

theorem steady_catalog : Steady catalog.decode :=
  steady_map (steady_pair (steady_refine steady_word64 _ _)
    (steady_pair (steady_records steady_library) (steady_pair (steady_records steady_folder)
      (steady_pair (steady_records steady_item) (steady_records steady_tag))))) _ _

theorem yields_id {ι : Type} (read : Nat → ι) (write : ι → Nat) (h : ∀ n, write (read n) = n) :
    Yields (word64.map read write).decode (write · < UInt64.size) := by
  refine yields_map yields_word64 fun n hn => ?_
  rw [h]
  exact hn

theorem yields_ids {ι : Type} {c : Coder ι} {number : ι → Nat}
    (h : Yields c.decode (number · < UInt64.size)) :
    Yields c.list.decode fun ids => NumbersFit (ids.map number) := by
  refine (yields_list h).imp fun ids hids => ⟨?_, List.forall_mem_map.2 hids.2⟩
  rw [List.length_map]
  exact hids.1

theorem yields_library : Yields library.decode LibraryFits := by
  have hfields := yields_pair yields_string (yields_pair yields_string (yields_pair yields_string
    (yields_pair (yields_true bool.decode) (yields_pair (yields_true viewerId.option.decode)
      (yields_ids (yields_id FolderId.mk FolderId.index fun _ => rfl))))))
  refine yields_map hfields ?_
  rintro ⟨_, _, _, _, _, _⟩ ⟨hdisplay, hmachine, hpath, -, -, hfolders⟩
  exact ⟨⟨hdisplay, hmachine, hpath⟩, hfolders⟩

theorem yields_folder : Yields folder.decode FolderFits := by
  have hfolder := yields_id FolderId.mk FolderId.index fun _ => rfl
  have hfields := yields_pair yields_string
    (yields_pair (yields_id LibraryId.mk LibraryId.index fun _ => rfl)
      (yields_pair (yields_option hfolder) (yields_pair (yields_ids hfolder)
        (yields_ids (yields_id ItemId.mk ItemId.index fun _ => rfl)))))
  exact yields_map hfields fun _ h => h

theorem yields_item : Yields item.decode ItemFits := by
  have hfields := yields_pair yields_string
    (yields_pair (yields_id FolderId.mk FolderId.index fun _ => rfl)
      (yields_pair (yields_true uint32.decode) (yields_pair (yields_true uint32.decode)
        (yields_pair (yields_true byte.decode) (yields_pair (yields_true bool.decode)
          (yields_pair (yields_option yields_string) (yields_pair (yields_true uint64.decode)
            (yields_ids (yields_id TagId.mk TagId.index fun _ => rfl)))))))))
  refine yields_map hfields ?_
  rintro ⟨_, _, _, _, _, _, _, _, _⟩ ⟨hname, hfolder, -, -, -, -, hcomment, -, htags⟩
  exact ⟨⟨hname, hcomment⟩, hfolder, htags⟩

theorem yields_tag : Yields tag.decode TagFits := by
  have hid := yields_id TagId.mk TagId.index fun _ => rfl
  exact yields_map (yields_pair yields_string (yields_pair (yields_option hid) (yields_ids hid)))
    fun _ h => h

theorem yields_records {α : Type} {c : Coder α} {fits : α → Prop} (h : Yields c.decode fits) :
    Yields (records c).decode (RecordsFit fits) := by
  refine yields_map (yields_list (yields_pair yields_word64 h)) fun l hl => ⟨?_, fun e he => ?_⟩
  · exact Nat.lt_of_le_of_lt (SortedMap.size_ofList_le l) hl.1
  · exact hl.2 e (SortedMap.mem_of_mem_ofList he)

theorem yields_catalog : Yields catalog.decode CatalogFits := by
  have hfields := yields_pair (yields_true version.decode)
    (yields_pair (yields_records yields_library) (yields_pair (yields_records yields_folder)
      (yields_pair (yields_records yields_item) (yields_records yields_tag))))
  refine yields_map hfields ?_
  rintro ⟨_, _, _, _, _⟩ ⟨-, hlibraries, hfolders, hitems, htags⟩
  exact ⟨hlibraries, hfolders, hitems, htags, rfl⟩

end Payload

namespace Catalog

/-! ## Lemmas: catalogs -/

theorem runsOut_iff {outcome : Except Payload.Malformed Catalog} :
    RunsOut outcome ↔ outcome = .error .endOfBytes := by
  constructor
  · rintro ⟨e, rfl, hmessage⟩
    cases e with
    | endOfBytes => rfl
    | _ => exact absurd hmessage (by decide)
  · rintro rfl
    exact ⟨_, rfl, rfl⟩

theorem ofPayload_append {bytes : List UInt8} (h : ofPayload bytes ≠ .error .endOfBytes)
    (more : List UInt8) : ofPayload (bytes ++ more) = ofPayload bytes := by
  unfold ofPayload at h ⊢
  cases hd : Payload.catalog.decode bytes with
  | error e =>
    have hne : e ≠ .endOfBytes := by
      rintro rfl
      exact h (by rw [hd]; rfl)
    rw [Payload.steady_catalog.error hd hne]
  | ok r =>
    rw [Payload.steady_catalog.ok hd]
    rfl

theorem kept_build {calls : List BuildCall} (htexts : ∀ call ∈ calls, call.TextsFit) :
    (build calls).Kept calls.length := by
  have hrun : ∀ (calls : List BuildCall) {n : Nat} {c : Catalog}, c.Kept n →
      (∀ call ∈ calls, call.TextsFit) → (calls.foldl after c).Kept (n + calls.length) := by
    intro calls
    induction calls with
    | nil => exact fun h _ => h
    | cons call rest ih =>
      intro n c h htexts
      rw [List.forall_mem_cons] at htexts
      have := ih (h.after htexts.1) htexts.2
      rwa [Nat.add_right_comm, Nat.add_assoc] at this
  have := hrun calls kept_empty htexts
  rwa [Nat.zero_add] at this

theorem Obtained.fits {c : Catalog} (h : c.Obtained) : Payload.CatalogFits c := by
  cases h with
  | @built calls hcount htexts =>
    obtain ⟨hlinks, hatMost, htexts⟩ := kept_build htexts
    obtain ⟨hlibraries, hfolders, hitems, htags⟩ := hatMost
    exact Payload.catalogFits_of_links hlinks
      ⟨by omega, by omega, by omega, by omega, htexts⟩
  | read hread =>
    unfold ofPayload at hread
    obtain ⟨⟨d, rest⟩, hd, rfl⟩ := map_eq_ok_iff.1 hread
    exact Payload.yields_catalog _ _ _ hd

/-- The bytes cut off would be left over if what stands before them were enough. -/
theorem ofPayload_of_cut {c : Catalog} (h : Payload.CatalogFits c) {cut more : List UInt8}
    (hcut : cut ++ more = c.toPayload) (hne : more ≠ []) : ofPayload cut = .error .endOfBytes := by
  have hwhole : Payload.catalog.decode (cut ++ more) = .ok (c, []) := by
    have := Payload.lossless_catalog c h []
    rwa [List.append_nil, ← toPayload, ← hcut] at this
  unfold ofPayload
  cases hd : Payload.catalog.decode cut with
  | error e =>
    by_cases he : e = .endOfBytes
    · rw [he]
      rfl
    · rw [Payload.steady_catalog.error hd he] at hwhole
      cases hwhole
  | ok r =>
    rw [Payload.steady_catalog.ok hd] at hwhole
    have hrest : r.2 ++ more = [] := (Prod.mk.inj (Except.ok.inj hwhole)).2
    exact absurd (List.append_eq_nil_iff.1 hrest).2 hne

/-! ## Top theorem -/

/-- **Payloads cut short and continued.**  Bytes behind those that are read change nothing, and no
payload is cut short unnoticed. -/
theorem ofPayload_cut_or_continued :
    (∀ bytes more, ¬ RunsOut (ofPayload bytes) → ofPayload (bytes ++ more) = ofPayload bytes) ∧
      ∀ c : Catalog, c.Obtained →
        (∀ more, ofPayload (c.toPayload ++ more) = .ok c) ∧
          ∀ cut, cut <+: c.toPayload → cut ≠ c.toPayload → RunsOut (ofPayload cut) := by
  refine ⟨fun bytes more h => ofPayload_append (fun he => h (runsOut_iff.2 he)) more, ?_⟩
  intro c hc
  refine ⟨ofPayload_of_fits hc.fits, ?_⟩
  rintro cut ⟨more, hmore⟩ hne
  refine runsOut_iff.2 (ofPayload_of_cut hc.fits hmore ?_)
  rintro rfl
  exact hne (by rw [← hmore, List.append_nil])

/-- A payload of one tag, under the number 5, written with more bytes than it takes. -/
def paddedTag : List UInt8 := [2, 0, 0, 0, 0x81, 0, 5, 2, 0x61, 0x62, 0, 0]

theorem ofPayload_cut_or_continued_paddedTag :
    ¬ RunsOut (ofPayload paddedTag) ∧ ofPayload (paddedTag ++ [7]) = ofPayload paddedTag ∧
      ∃ c : Catalog, c.Obtained ∧ c.tags.keys = [5] ∧ c.toPayload.length = 11 ∧
        ofPayload (c.toPayload ++ [7]) = .ok c ∧ RunsOut (ofPayload (c.toPayload.take 10)) := by
  have hout : ¬ RunsOut (ofPayload paddedTag) := by
    rw [runsOut_iff]
    exact nofun
  obtain ⟨hmore, hcut⟩ := ofPayload_cut_or_continued
  refine ⟨hout, hmore _ _ hout, ?_⟩
  have hread : ∃ c, ofPayload paddedTag = .ok c ∧ c.tags.keys = [5] ∧ c.toPayload.length = 11 :=
    ⟨_, rfl, rfl, rfl⟩
  obtain ⟨c, hc, hkeys, hlength⟩ := hread
  obtain ⟨hwhole, hshort⟩ := hcut c (.read hc)
  refine ⟨c, .read hc, hkeys, hlength, hwhole [7], hshort _ (List.take_prefix _ _) ?_⟩
  intro he
  have := congrArg List.length he
  rw [List.length_take, hlength] at this
  cases this

end Catalog

end PictureSearch
