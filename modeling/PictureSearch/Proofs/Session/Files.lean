import PictureSearch.Session.Files

/-!
# Replacing a file

A file that was replaced is read with its new content, and can be replaced again:

    fs.Replaceable path ext →
      (fs.replace path ext content).1.read path = .content content ∧
        (fs.replace path ext content).1.Replaceable path ext              (Replaceable.replace)

Where a pathname leads depends on the directories alone.  Replacing makes directories first; what it
does then leaves them as they are (`SameWays`), so that a second time finds its way made (`Ready`).
-/

namespace PictureSearch.Session.Files

variable {fs fs' : Files} {place : Place} {pieces : List String} {content : List UInt8}

/-! ## Statements -/

/-- The file can be replaced, whatever its content is to be. -/
def Replaceable (fs : Files) (path ext : String) : Prop :=
  ∀ content, (fs.replace path ext content).2 = none

/-- The directories are the same. -/
def SameWays (fs fs' : Files) : Prop := ∀ place, fs'.isDirectory place = fs.isDirectory place

/-- A file can be put there. -/
def Takes (fs : Files) (p : Pathname) : Prop :=
  ∃ place, fs.locate p = some place ∧ fs.isDirectory place = false

/-- The directories on the way to a file are there, and nothing but a file is in its place and in
that of the one beside it. -/
structure Ready (fs : Files) (path ext : String) : Prop where
  way : fs.makeWay (Pathname.ofText path).parent = (fs, true)
  aside : fs.Takes ((Pathname.ofText path).beside ext)
  target : fs.Takes (Pathname.ofText path)

/-! ## Lemmas: entries -/

theorem entry_put_inside (fs : Files) (p : Place) (d : Place) (name : String) (e : Entry) :
    Files.entry? (fs.put p e) (.inside d name) =
      if (Place.inside d name).key = p.key then some e else fs.entry? (.inside d name) :=
  SortedMap.find?_insert fs.entries _ _ _

theorem exists_inside (h : fs.isDirectory place = false) :
    ∃ d name, place = .inside d name := by
  cases place with
  | inside d name => exact ⟨d, name, rfl⟩
  | _ => cases h

theorem isDirectory_of_file (h : fs.entry? place = some (.file content)) :
    fs.isDirectory place = false := by
  unfold isDirectory
  rw [h]
  rfl

theorem entry_put_self (h : fs.isDirectory place = false) (e : Entry) :
    Files.entry? (fs.put place e) place = some e := by
  obtain ⟨d, name, rfl⟩ := exists_inside h
  rw [entry_put_inside, if_pos rfl]

/-- Places with one key hold one entry. -/
theorem isDirectory_of_key {d : Place} {name : String} (h : fs.isDirectory place = false)
    (hkey : (Place.inside d name).key = place.key) :
    fs.isDirectory (.inside d name) = false := by
  obtain ⟨d', name', rfl⟩ := exists_inside h
  unfold isDirectory entry? at h ⊢
  simp only at h ⊢
  rwa [hkey]

theorem sameWays_put (h : fs.isDirectory place = false) (content : List UInt8) :
    SameWays fs (fs.put place (.file content)) := by
  intro q
  cases q with
  | inside d name =>
    unfold isDirectory
    rw [entry_put_inside]
    split
    · next hkey => exact (isDirectory_of_key h hkey).symm
    · rfl
  | _ => rfl

theorem sameWays_erase (h : fs.isDirectory place = false) :
    SameWays fs ⟨fs.entries.erase place.key⟩ := by
  intro q
  cases q with
  | inside d name =>
    show (SortedMap.find? (fs.entries.erase place.key) (Place.inside d name).key == _) = _
    rw [SortedMap.find?_erase]
    split
    · next hkey => exact (isDirectory_of_key h hkey).symm
    · rfl
  | _ => rfl

/-! ## Lemmas: ways -/

theorem SameWays.trans {fs'' : Files} (h : SameWays fs fs') (h' : SameWays fs' fs'') :
    SameWays fs fs'' := fun place => (h' place).trans (h place)

theorem SameWays.walk (h : SameWays fs fs') (place : Place) (pieces : List String) :
    fs'.walk place pieces = fs.walk place pieces := by
  induction pieces generalizing place with
  | nil => rfl
  | cons piece rest ih => simp only [Files.walk, h place, ih]

theorem SameWays.locate (h : SameWays fs fs') (p : Pathname) : fs'.locate p = fs.locate p := by
  unfold Files.locate
  rw [h.walk]

theorem SameWays.takes (h : SameWays fs fs') {p : Pathname} (hp : fs.Takes p) : fs'.Takes p := by
  obtain ⟨place, hplace, hfree⟩ := hp
  exact ⟨place, (h.locate p).trans hplace, (h place).trans hfree⟩

/-! ## Lemmas: making a way -/

theorem isDirectory_put_directory (h : fs.isDirectory place = true) (d : Place) (name : String) :
    (fs.put (.inside d name) .directory).isDirectory place = true := by
  cases place with
  | inside d' name' =>
    unfold isDirectory
    rw [entry_put_inside]
    split
    · rfl
    · exact h
  | _ => rfl

theorem isDirectory_makeDirectories {q : Place} (h : fs.isDirectory q = true) :
    (fs.makeDirectories place pieces).1.isDirectory q = true := by
  induction pieces generalizing fs place with
  | nil => exact h
  | cons piece rest ih =>
    unfold makeDirectories
    dsimp only
    split
    · exact ih h
    split
    · exact ih h
    split
    · split
      · exact h
      · exact ih h
      · exact ih (isDirectory_put_directory h _ _)
    · exact h

section

variable {piece : String} {rest : List String} (hstay : ¬ Pathname.staysPut piece = true)
  (hup : piece ≠ "..") (hfits : piece.utf8ByteSize ≤ Pathname.nameLimit)

include hstay hup hfits

theorem makeDirectories_of_isDirectory (h : fs.isDirectory (place.inside piece) = true) :
    fs.makeDirectories place (piece :: rest) = fs.makeDirectories (place.inside piece) rest := by
  have hentry : fs.entry? (place.inside piece) = some .directory := eq_of_beq h
  rw [makeDirectories, if_neg hstay, if_neg hup, if_pos hfits]
  dsimp only
  rw [hentry]

/-- On a way that can be made a directory is found or made. -/
theorem exists_makeDirectories (h : (fs.makeDirectories place (piece :: rest)).2 = true) :
    ∃ fs₁ : Files, fs₁.isDirectory (place.inside piece) = true ∧
      fs.makeDirectories place (piece :: rest) = fs₁.makeDirectories (place.inside piece) rest := by
  rw [makeDirectories, if_neg hstay, if_neg hup, if_pos hfits] at h ⊢
  dsimp only at h ⊢
  cases hentry : fs.entry? (place.inside piece) with
  | none =>
    refine ⟨fs.put (place.inside piece) .directory, ?_, rfl⟩
    unfold isDirectory
    rw [entry_put_inside, if_pos rfl]
    rfl
  | some e =>
    rw [hentry] at h
    cases e with
    | file content => cases h
    | directory =>
      refine ⟨fs, ?_, rfl⟩
      unfold isDirectory
      rw [hentry]
      rfl

end

/-- Where the directories that were made are still there, nothing is left to make. -/
theorem makeDirectories_again (hmade : (fs.makeDirectories place pieces).2 = true)
    (hkept : ∀ q, (fs.makeDirectories place pieces).1.isDirectory q = true →
      fs'.isDirectory q = true) :
    fs'.makeDirectories place pieces = (fs', true) := by
  induction pieces generalizing fs place with
  | nil => rfl
  | cons piece rest ih =>
    by_cases hstay : Pathname.staysPut piece = true
    · rw [makeDirectories, if_pos hstay] at hmade hkept ⊢
      exact ih hmade hkept
    by_cases hup : piece = ".."
    · rw [makeDirectories, if_neg hstay, if_pos hup] at hmade hkept ⊢
      exact ih hmade hkept
    by_cases hfits : piece.utf8ByteSize ≤ Pathname.nameLimit
    · obtain ⟨fs₁, hdir, heq⟩ := exists_makeDirectories hstay hup hfits hmade
      rw [heq] at hmade hkept
      rw [makeDirectories_of_isDirectory hstay hup hfits (hkept _ (isDirectory_makeDirectories hdir))]
      exact ih hmade hkept
    · rw [makeDirectories, if_neg hstay, if_neg hup, if_neg hfits] at hmade
      cases hmade

theorem makeWay_again {p : Pathname} (hmade : (fs.makeWay p).2 = true)
    (hkept : ∀ q, (fs.makeWay p).1.isDirectory q = true → fs'.isDirectory q = true) :
    fs'.makeWay p = (fs', true) := by
  unfold makeWay at hmade hkept ⊢
  by_cases hfits : p.fits = true
  · rw [if_pos hfits] at hmade hkept ⊢
    exact makeDirectories_again hmade hkept
  · rw [if_neg hfits] at hmade
    cases hmade

/-! ## Lemmas: replacing -/

section

variable {path ext : String}

theorem Ready.sameWays (h : fs.Ready path ext) (hways : SameWays fs fs') : fs'.Ready path ext where
  way := by
    refine makeWay_again (congrArg Prod.snd h.way) fun q hq => ?_
    rw [h.way] at hq
    rwa [hways q]
  aside := hways.takes h.aside
  target := hways.takes h.target

theorem write?_eq_some_iff {p : Pathname} :
    fs.write? p content = some fs' ↔
      ∃ place, fs.locate p = some place ∧ fs.isDirectory place = false ∧
        fs' = fs.put place (.file content) := by
  constructor
  · intro h
    obtain ⟨place, hplace, h⟩ := Option.bind_eq_some_iff.1 h
    cases hdir : fs.isDirectory place with
    | true =>
      rw [hdir] at h
      cases h
    | false =>
      rw [hdir] at h
      exact ⟨place, hplace, hdir, (Option.some.inj h).symm⟩
  · rintro ⟨place, hplace, hdir, rfl⟩
    unfold write?
    rw [hplace, Option.bind_some, hdir]
    rfl

theorem takes_of_rename? {source target : Pathname} (h : fs.rename? source target = some fs') :
    fs.Takes target := by
  unfold rename? at h
  obtain ⟨origin, -, h⟩ := Option.bind_eq_some_iff.1 h
  obtain ⟨dest, hdest, h⟩ := Option.bind_eq_some_iff.1 h
  refine ⟨dest, hdest, ?_⟩
  cases hdir : fs.isDirectory dest with
  | false => rfl
  | true =>
    rw [hdir] at h
    split at h <;> cases h

theorem rename?_of_file {source target : Pathname} {origin dest : Place}
    (hsource : fs.locate source = some origin) (hfile : fs.entry? origin = some (.file content))
    (htarget : fs.locate target = some dest) (hfree : fs.isDirectory dest = false) :
    fs.rename? source target =
      some (Files.put ⟨fs.entries.erase origin.key⟩ dest (.file content)) := by
  unfold rename?
  rw [hsource, htarget, Option.bind_eq_bind, Option.bind_some, Option.bind_some, hfile]
  dsimp only
  rw [hfree]
  rfl

theorem replace_eq_ok_iff :
    fs.replace path ext content = (fs', none) ↔
      ∃ made written, fs.makeWay (Pathname.ofText path).parent = (made, true) ∧
        made.write? ((Pathname.ofText path).beside ext) content = some written ∧
          written.rename? ((Pathname.ofText path).beside ext) (Pathname.ofText path) = some fs' := by
  unfold Files.replace
  dsimp only
  rcases fs.makeWay (Pathname.ofText path).parent with ⟨made, _ | _⟩
  · simp
  dsimp only
  cases hwrite : made.write? ((Pathname.ofText path).beside ext) content with
  | none => simp [hwrite]
  | some written =>
    dsimp only
    cases hrename : written.rename? ((Pathname.ofText path).beside ext) (Pathname.ofText path) with
    | none => simp [hwrite, hrename]
    | some renamed => simp [hwrite, hrename]

/-- With the way made a file is replaced and no directory changes. -/
theorem Ready.replace (h : fs.Ready path ext) (content : List UInt8) :
    ∃ fs', fs.replace path ext content = (fs', none) ∧ SameWays fs fs' ∧
      fs'.read path = .content content := by
  obtain ⟨aside, haside, hasideFree⟩ := h.aside
  obtain ⟨target, htarget, htargetFree⟩ := h.target
  -- the new file beside the old one
  have hwrite : fs.write? _ content = some (fs.put aside (.file content)) :=
    write?_eq_some_iff.2 ⟨aside, haside, hasideFree, rfl⟩
  have hput := sameWays_put hasideFree content
  have hfile := entry_put_self hasideFree (.file content)
  -- the new file in the place of the old one
  have hrename := rename?_of_file ((hput.locate _).trans haside) hfile
    ((hput.locate _).trans htarget) ((hput target).trans htargetFree)
  have herase := hput.trans (sameWays_erase (isDirectory_of_file hfile))
  have hfree := (herase target).trans htargetFree
  have hways := herase.trans (sameWays_put hfree content)
  refine ⟨_, replace_eq_ok_iff.2 ⟨fs, _, h.way, hwrite, hrename⟩, hways, ?_⟩
  unfold Files.read
  rw [hways.locate, htarget, Option.bind_some, entry_put_self hfree]

theorem ready_of_replace (h : (fs.replace path ext content).2 = none) :
    ∃ made, fs.makeWay (Pathname.ofText path).parent = (made, true) ∧ made.Ready path ext := by
  have hok : fs.replace path ext content = ((fs.replace path ext content).1, none) :=
    (Prod.eta _).symm.trans (congrArg (Prod.mk _) h)
  obtain ⟨made, written, hway, hwrite, hrename⟩ := replace_eq_ok_iff.1 hok
  obtain ⟨aside, haside, hasideFree, rfl⟩ := write?_eq_some_iff.1 hwrite
  have hput := sameWays_put hasideFree content
  obtain ⟨target, htarget, htargetFree⟩ := takes_of_rename? hrename
  rw [hput.locate] at htarget
  rw [hput target] at htargetFree
  have hagain : made.makeWay (Pathname.ofText path).parent = (made, true) := by
    refine @makeWay_again fs made _ ?_ ?_
    · rw [hway]
    · rw [hway]
      exact fun _ hq => hq
  exact ⟨made, hway, hagain, ⟨aside, haside, hasideFree⟩, target, htarget, htargetFree⟩

/-- What was made on the way may as well have been there. -/
theorem replace_of_made {made : Files}
    (hway : fs.makeWay (Pathname.ofText path).parent = (made, true)) (hready : made.Ready path ext)
    (content : List UInt8) :
    ∃ fs', fs.replace path ext content = (fs', none) ∧ SameWays made fs' ∧
      fs'.read path = .content content := by
  obtain ⟨fs', hfs', hways, hread⟩ := hready.replace content
  rw [replace_eq_ok_iff, hready.way] at hfs'
  obtain ⟨_, written, ⟨⟩, hrest⟩ := hfs'
  exact ⟨fs', replace_eq_ok_iff.2 ⟨made, written, hway, hrest⟩, hways, hread⟩

/-- Whether a file can be replaced does not depend on its content. -/
theorem replaceable_of_replace (h : (fs.replace path ext content).2 = none) :
    fs.Replaceable path ext := by
  obtain ⟨made, hway, hready⟩ := ready_of_replace h
  intro content'
  obtain ⟨fs'', hfs'', -⟩ := replace_of_made hway hready content'
  rw [hfs'']

/-- **A file that was replaced** is read with its new content, and can be replaced again. -/
theorem Replaceable.replace (h : fs.Replaceable path ext) (content : List UInt8) :
    (fs.replace path ext content).1.read path = .content content ∧
      (fs.replace path ext content).1.Replaceable path ext := by
  obtain ⟨made, hway, hready⟩ := ready_of_replace (h content)
  obtain ⟨fs', hfs', hways, hread⟩ := replace_of_made hway hready content
  rw [hfs']
  refine ⟨hread, fun content' => ?_⟩
  obtain ⟨fs'', hfs'', -⟩ := (hready.sameWays hways).replace content'
  rw [hfs'']

end

end PictureSearch.Session.Files
