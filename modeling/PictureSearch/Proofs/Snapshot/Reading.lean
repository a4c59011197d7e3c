import PictureSearch.Proofs.Json.Grammar
import PictureSearch.Proofs.Json.Records
import PictureSearch.Snapshot.Loading

/-!
# Snapshots are read from any of their texts

A snapshot has one JSON form with all fields written, and many texts: its records may have their
fields in any order and leave out those with a default, there may be other members, and gaps and
escapes are free.  If the JSON form is not nested deeper than records are read, each of these texts
is read as the snapshot:

    s.WrittenAs s.toJson                                                          (writtenAs_toJson)
    s.toJson.depth ≤ 127 → s.HasText text → read? text = some s                   (read?_of_hasText)

So the text loads as the snapshot itself does.
-/

namespace PictureSearch

/-! ## Statements: nesting -/

namespace Json

mutual

/-- The most arrays and objects of a value that stand inside each other. -/
def depth : Json → Nat
  | .array es => depthAll es + 1
  | .object ms => depthMembers ms + 1
  | .null | .bool _ | .number _ | .string _ => 0

def depthAll : List Json → Nat
  | [] => 0
  | v :: rest => max v.depth (depthAll rest)

def depthMembers : List (String × Json) → Nat
  | [] => 0
  | (_, v) :: rest => max v.depth (depthMembers rest)

end

theorem depthAll_le_iff {es : List Json} {n : Nat} :
    depthAll es ≤ n ↔ ∀ v ∈ es, v.depth ≤ n := by
  induction es with
  | nil => simp [depthAll]
  | cons v es ih => rw [depthAll, Nat.max_le, ih, List.forall_mem_cons]

theorem depth_ofList {α : Type} (build : α → Json) (l : List α) :
    (ofList build l).depth = depthAll (l.map build) + 1 := rfl

end Json

namespace Snapshot

open Json

/-! ## Statements: the JSON form -/

mutual

def Tag.toJson : Tag → Json
  | .mk name children =>
    .ofMembers [("name", .ofText name), ("children", .array (Tag.toJsonAll children))]

def Tag.toJsonAll : List Tag → List Json
  | [] => []
  | t :: rest => t.toJson :: Tag.toJsonAll rest

end

def Item.toJson (i : Item) : Json :=
  .ofMembers [("name", .ofText i.name), ("width", .ofNat i.width.toNat),
    ("height", .ofNat i.height.toNat), ("rating", .ofNat i.rating.toNat), ("nsfw", .bool i.nsfw),
    ("comment", .ofOption .ofText i.comment), ("size", .ofNat i.size.toNat),
    ("tags", .ofList .ofText i.tags)]

mutual

def Folder.toJson : Folder → Json
  | .mk name folders items =>
    .ofMembers [("name", .ofText name), ("folders", .array (Folder.toJsonAll folders)),
      ("items", .ofList Item.toJson items)]

def Folder.toJsonAll : List Folder → List Json
  | [] => []
  | f :: rest => f.toJson :: Folder.toJsonAll rest

end

def Library.toJson (l : Library) : Json :=
  .ofMembers [("display_name", .ofText l.displayName), ("machine_name", .ofText l.machineName),
    ("absolute_path", .ofText l.absolutePath), ("nsfw", .bool l.nsfw),
    ("owner", .ofOption (fun owner => .ofNat owner.toNat) l.owner),
    ("folders", .ofList Folder.toJson l.folders)]

/-- The JSON form of a snapshot, with all fields written. -/
def toJson (s : Snapshot) : Json :=
  .ofMembers [("tags", .ofList Tag.toJson s.tags),
    ("libraries", .ofList Library.toJson s.libraries)]

/-! ## Statements: what is written -/

mutual

/-- The value writes the tag with those below it. -/
def Tag.WrittenAs : Tag → Json → Prop
  | .mk name children, v =>
    WritesRecord [.required "name" (WritesText name),
      ⟨"children", children = [], fun w => ∃ es, w = .array es ∧ Tag.AllWrittenAs children es⟩] v

def Tag.AllWrittenAs : List Tag → List Json → Prop
  | [], es => es = []
  | t :: rest, es => ∃ e es', es = e :: es' ∧ t.WrittenAs e ∧ Tag.AllWrittenAs rest es'

end

def Item.WrittenAs (i : Item) : Json → Prop :=
  WritesRecord [.required "name" (WritesText i.name),
    .required "width" (WritesNat i.width.toNat),
    .required "height" (WritesNat i.height.toNat),
    ⟨"rating", i.rating = 0, WritesNat i.rating.toNat⟩,
    ⟨"nsfw", i.nsfw = false, WritesBool i.nsfw⟩,
    ⟨"comment", i.comment = none, WritesOption WritesText i.comment⟩,
    ⟨"size", i.size = 0, WritesNat i.size.toNat⟩,
    ⟨"tags", i.tags = [], WritesList WritesText i.tags⟩]

mutual

/-- The value writes the folder with all that is in it. -/
def Folder.WrittenAs : Folder → Json → Prop
  | .mk name folders items, v =>
    WritesRecord [.required "name" (WritesText name),
      ⟨"folders", folders = [], fun w => ∃ es, w = .array es ∧ Folder.AllWrittenAs folders es⟩,
      ⟨"items", items = [], WritesList Item.WrittenAs items⟩] v

def Folder.AllWrittenAs : List Folder → List Json → Prop
  | [], es => es = []
  | f :: rest, es => ∃ e es', es = e :: es' ∧ f.WrittenAs e ∧ Folder.AllWrittenAs rest es'

end

def Library.WrittenAs (l : Library) : Json → Prop :=
  WritesRecord [.required "display_name" (WritesText l.displayName),
    .required "machine_name" (WritesText l.machineName),
    ⟨"absolute_path", l.absolutePath = "", WritesText l.absolutePath⟩,
    ⟨"nsfw", l.nsfw = false, WritesBool l.nsfw⟩,
    ⟨"owner", l.owner = none, WritesOption (fun owner => WritesNat owner.toNat) l.owner⟩,
    ⟨"folders", l.folders = [], WritesList Folder.WrittenAs l.folders⟩]

/-- The value writes the snapshot. -/
def WrittenAs (s : Snapshot) : Json → Prop :=
  WritesRecord [⟨"tags", s.tags = [], WritesList Tag.WrittenAs s.tags⟩,
    ⟨"libraries", s.libraries = [], WritesList Library.WrittenAs s.libraries⟩]

/-- The text is a JSON text of the snapshot. -/
def HasText (s : Snapshot) (text : String) : Prop :=
  ∃ v, ElementText v text.toList ∧ s.WrittenAs v

/-! ## Lemmas: lists of tags and folders -/

theorem Tag.toJsonAll_eq_map (ts : List Tag) : Tag.toJsonAll ts = ts.map Tag.toJson := by
  induction ts with
  | nil => rfl
  | cons t ts ih => rw [toJsonAll, ih, List.map_cons]

theorem Folder.toJsonAll_eq_map (fs : List Folder) :
    Folder.toJsonAll fs = fs.map Folder.toJson := by
  induction fs with
  | nil => rfl
  | cons f fs ih => rw [toJsonAll, ih, List.map_cons]

/-- A relation between lists that compares the heads and goes on with the tails. -/
theorem eq_forall₂ {α β : Type} {r : α → β → Prop} {rs : List α → List β → Prop}
    (hnil : ∀ bs, rs [] bs ↔ bs = [])
    (hcons : ∀ a as bs, rs (a :: as) bs ↔ ∃ b bs', bs = b :: bs' ∧ r a b ∧ rs as bs') :
    rs = List.Forall₂ r := by
  funext as bs
  induction as generalizing bs with
  | nil => rw [hnil, List.forall₂_nil_left_iff]
  | cons a as ih =>
    rw [hcons, List.forall₂_cons_left_iff]
    simp only [ih]
    exact propext ⟨fun ⟨b, bs', h, hr, hrs⟩ => ⟨b, bs', hr, hrs, h⟩,
      fun ⟨b, bs', hr, hrs, h⟩ => ⟨b, bs', h, hr, hrs⟩⟩

theorem Tag.allWrittenAs_eq : Tag.AllWrittenAs = List.Forall₂ Tag.WrittenAs :=
  eq_forall₂ (fun _ => by rw [AllWrittenAs]) fun _ _ _ => by rw [AllWrittenAs]

theorem Folder.allWrittenAs_eq : Folder.AllWrittenAs = List.Forall₂ Folder.WrittenAs :=
  eq_forall₂ (fun _ => by rw [AllWrittenAs]) fun _ _ _ => by rw [AllWrittenAs]

theorem Tag.writtenAs_mk (name : String) (children : List Tag) :
    (Tag.mk name children).WrittenAs = WritesRecord [.required "name" (WritesText name),
      ⟨"children", children = [], WritesList Tag.WrittenAs children⟩] := by
  funext v
  rw [WrittenAs, Tag.allWrittenAs_eq]
  rfl

theorem Folder.writtenAs_mk (name : String) (folders : List Folder) (items : List Item) :
    (Folder.mk name folders items).WrittenAs = WritesRecord [.required "name" (WritesText name),
      ⟨"folders", folders = [], WritesList Folder.WrittenAs folders⟩,
      ⟨"items", items = [], WritesList Item.WrittenAs items⟩] := by
  funext v
  rw [WrittenAs, Folder.allWrittenAs_eq]
  rfl

/-! ## Lemmas: nesting -/

theorem Tag.depth_toJson (name : String) (children : List Tag) :
    (Tag.mk name children).toJson.depth = depthAll (children.map Tag.toJson) + 2 := by
  simp [toJson, Tag.toJsonAll_eq_map, ofMembers, depth, depthMembers, ofText]

theorem Item.depth_toJson (i : Item) : i.toJson.depth = 2 := by
  have hcomment : (ofOption ofText i.comment).depth = 0 := by
    cases i.comment <;> rfl
  have htags : ∀ l : List String, depthAll (l.map ofText) = 0 := by
    intro l
    refine Nat.le_zero.1 (depthAll_le_iff.2 ?_)
    rw [List.forall_mem_map]
    exact fun _ _ => Nat.le_refl 0
  simp [toJson, ofMembers, depth, depthMembers, ofText, ofNat, hcomment, depth_ofList, htags]

theorem Folder.depth_toJson (name : String) (folders : List Folder) (items : List Item) :
    (Folder.mk name folders items).toJson.depth =
      max (depthAll (folders.map Folder.toJson)) (depthAll (items.map Item.toJson)) + 2 := by
  simp [toJson, Folder.toJsonAll_eq_map, ofMembers, depth, depthMembers, ofText, depth_ofList]

theorem Library.depth_toJson (l : Library) :
    l.toJson.depth = depthAll (l.folders.map Folder.toJson) + 2 := by
  have howner : (ofOption (fun owner : UInt64 => ofNat owner.toNat) l.owner).depth = 0 := by
    cases l.owner <;> rfl
  simp [toJson, ofMembers, depth, depthMembers, ofText, howner, depth_ofList]

theorem depth_toJson (s : Snapshot) :
    s.toJson.depth =
      max (depthAll (s.tags.map Tag.toJson)) (depthAll (s.libraries.map Library.toJson)) + 2 := by
  simp [toJson, ofMembers, depth, depthMembers, depth_ofList]

/-- The levels that are left for a list suffice for each of its elements. -/
theorem depth_le_of_mem {α : Type} {build : α → Json} {l : List α} {n : Nat}
    (h : depthAll (l.map build) ≤ n) : ∀ a ∈ l, (build a).depth ≤ n := by
  rw [depthAll_le_iff, List.forall_mem_map] at h
  exact h

/-! ## Lemmas: records -/

theorem Tag.ofJson?_add_two (room : Nat) (v : Json) :
    Tag.ofJson? (room + 2) v = (do
      let fs ← fields? ["name", "children"] v
      let name ← fs.required "name" text?
      let children ← fs.optional "children" [] (list? (room + 1) Tag.ofJson?)
      return .mk name children) := by
  delta Tag.ofJson?
  show Option.bind (fields? ["name", "children"] v) _ = Option.bind (fields? _ v) _
  congr 1
  funext fs
  show Option.bind (fs.required "name" text?) _ = Option.bind (fs.required "name" text?) _
  congr 1
  funext name
  show Option.bind (fs.optional "children" [] _) _ = Option.bind (fs.optional "children" [] _) _
  congr 2
  funext w
  cases w <;> rfl

theorem Folder.ofJson?_add_two (room : Nat) (v : Json) :
    Folder.ofJson? (room + 2) v = (do
      let fs ← fields? ["name", "folders", "items"] v
      let name ← fs.required "name" text?
      let folders ← fs.optional "folders" [] (list? (room + 1) Folder.ofJson?)
      let items ← fs.optional "items" [] (list? (room + 1) Item.ofJson?)
      return .mk name folders items) := by
  delta Folder.ofJson?
  show Option.bind (fields? ["name", "folders", "items"] v) _ = Option.bind (fields? _ v) _
  congr 1
  funext fs
  show Option.bind (fs.required "name" text?) _ = Option.bind (fs.required "name" text?) _
  congr 1
  funext name
  show Option.bind (fs.optional "folders" [] _) _ = Option.bind (fs.optional "folders" [] _) _
  congr 2
  funext w
  cases w <;> rfl

theorem Tag.ofJson?_of_writtenAs {room : Nat} {t : Tag} {v : Json} (h : t.WrittenAs v)
    (hdepth : t.toJson.depth ≤ room) : Tag.ofJson? room v = some t := by
  match room, t with
  | 0, .mk name children | 1, .mk name children =>
    rw [Tag.depth_toJson] at hdepth
    omega
  | room + 2, .mk name children =>
    rw [Tag.depth_toJson, Nat.add_le_add_iff_right] at hdepth
    have hbelow := depth_le_of_mem hdepth
    rw [Tag.writtenAs_mk] at h
    obtain ⟨fs, hfs, hfound⟩ := h.exists_fields?
    simp only [List.forall_mem_cons] at hfound
    obtain ⟨hname, hchildren, -⟩ := hfound
    have hfs : fields? ["name", "children"] v = some fs := hfs
    have hname : fs.required "name" text? = some name :=
      hname.required_eq fun w hw => hw.text?
    have hchildren : fs.optional "children" [] (list? (room + 1) Tag.ofJson?) = some children :=
      hchildren.optional_eq id fun w hw =>
        hw.list? fun t ht e he => Tag.ofJson?_of_writtenAs he (hbelow t ht)
    simp only [Tag.ofJson?_add_two, hfs, hname, hchildren, Option.bind_eq_bind, Option.bind_some]
    rfl

theorem Item.ofJson?_of_writtenAs {room : Nat} {i : Item} {v : Json} (h : i.WrittenAs v)
    (hdepth : i.toJson.depth ≤ room) : Item.ofJson? room v = some i := by
  rw [Item.depth_toJson] at hdepth
  obtain ⟨room, rfl⟩ : ∃ n, room = n + 2 := ⟨room - 2, by omega⟩
  obtain ⟨fs, hfs, hfound⟩ := h.exists_fields?
  simp only [List.forall_mem_cons] at hfound
  obtain ⟨hname, hwidth, hheight, hrating, hnsfw, hcomment, hsize, htags, -⟩ := hfound
  have hfs : fields?
      ["name", "width", "height", "rating", "nsfw", "comment", "size", "tags"] v = some fs := hfs
  have hname : fs.required "name" text? = some i.name :=
    hname.required_eq fun w hw => hw.text?
  have hwidth : fs.required "width" uint32? = some i.width :=
    hwidth.required_eq fun w hw => hw.uint32?
  have hheight : fs.required "height" uint32? = some i.height :=
    hheight.required_eq fun w hw => hw.uint32?
  have hrating : fs.optional "rating" 0 uint8? = some i.rating :=
    hrating.optional_eq id fun w hw => hw.uint8?
  have hnsfw : fs.optional "nsfw" false bool? = some i.nsfw :=
    hnsfw.optional_eq id fun w hw => hw.bool?
  have hcomment : fs.optional "comment" none (nullable? text?) = some i.comment :=
    hcomment.optional_eq id fun w hw => hw.nullable? fun s hs => ⟨hs.ne_null, hs.text?⟩
  have hsize : fs.optional "size" 0 uint64? = some i.size :=
    hsize.optional_eq id fun w hw => hw.uint64?
  have htags : fs.optional "tags" [] (list? (room + 1) fun _ => text?) = some i.tags :=
    htags.optional_eq id fun w hw => hw.list? fun s _ e he => he.text?
  simp only [Item.ofJson?, hfs, hname, hwidth, hheight, hrating, hnsfw, hcomment, hsize, htags,
    Option.bind_eq_bind, Option.bind_some]
  rfl

theorem Folder.ofJson?_of_writtenAs {room : Nat} {f : Folder} {v : Json} (h : f.WrittenAs v)
    (hdepth : f.toJson.depth ≤ room) : Folder.ofJson? room v = some f := by
  match room, f with
  | 0, .mk name folders items | 1, .mk name folders items =>
    rw [Folder.depth_toJson] at hdepth
    omega
  | room + 2, .mk name folders items =>
    rw [Folder.depth_toJson, Nat.add_le_add_iff_right, Nat.max_le] at hdepth
    have hfoldersDepth := depth_le_of_mem hdepth.1
    have hitemsDepth := depth_le_of_mem hdepth.2
    rw [Folder.writtenAs_mk] at h
    obtain ⟨fs, hfs, hfound⟩ := h.exists_fields?
    simp only [List.forall_mem_cons] at hfound
    obtain ⟨hname, hfolders, hitems, -⟩ := hfound
    have hfs : fields? ["name", "folders", "items"] v = some fs := hfs
    have hname : fs.required "name" text? = some name :=
      hname.required_eq fun w hw => hw.text?
    have hfolders : fs.optional "folders" [] (list? (room + 1) Folder.ofJson?) = some folders :=
      hfolders.optional_eq id fun w hw =>
        hw.list? fun f hf e he => Folder.ofJson?_of_writtenAs he (hfoldersDepth f hf)
    have hitems : fs.optional "items" [] (list? (room + 1) Item.ofJson?) = some items :=
      hitems.optional_eq id fun w hw =>
        hw.list? fun i hi e he => Item.ofJson?_of_writtenAs he (hitemsDepth i hi)
    simp only [Folder.ofJson?_add_two, hfs, hname, hfolders, hitems, Option.bind_eq_bind,
      Option.bind_some]
    rfl

theorem Library.ofJson?_of_writtenAs {room : Nat} {l : Library} {v : Json} (h : l.WrittenAs v)
    (hdepth : l.toJson.depth ≤ room) : Library.ofJson? room v = some l := by
  rw [Library.depth_toJson] at hdepth
  obtain ⟨room, rfl⟩ : ∃ n, room = n + 2 := ⟨room - 2, by omega⟩
  have hbelow := depth_le_of_mem (Nat.add_le_add_iff_right.1 hdepth)
  obtain ⟨fs, hfs, hfound⟩ := h.exists_fields?
  simp only [List.forall_mem_cons] at hfound
  obtain ⟨hdisplay, hmachine, hpath, hnsfw, howner, hfolders, -⟩ := hfound
  have hfs : fields? ["display_name", "machine_name", "absolute_path", "nsfw", "owner", "folders"]
      v = some fs := hfs
  have hdisplay : fs.required "display_name" text? = some l.displayName :=
    hdisplay.required_eq fun w hw => hw.text?
  have hmachine : fs.required "machine_name" text? = some l.machineName :=
    hmachine.required_eq fun w hw => hw.text?
  have hpath : fs.optional "absolute_path" "" text? = some l.absolutePath :=
    hpath.optional_eq id fun w hw => hw.text?
  have hnsfw : fs.optional "nsfw" false bool? = some l.nsfw :=
    hnsfw.optional_eq id fun w hw => hw.bool?
  have howner : fs.optional "owner" none (nullable? uint64?) = some l.owner :=
    howner.optional_eq id fun w hw => hw.nullable? fun n hn => ⟨hn.ne_null, hn.uint64?⟩
  have hfolders : fs.optional "folders" [] (list? (room + 1) Folder.ofJson?) = some l.folders :=
    hfolders.optional_eq id fun w hw =>
      hw.list? fun f hf e he => Folder.ofJson?_of_writtenAs he (hbelow f hf)
  simp only [Library.ofJson?, hfs, hdisplay, hmachine, hpath, hnsfw, howner, hfolders,
    Option.bind_eq_bind, Option.bind_some]
  rfl

theorem ofJson?_of_writtenAs {room : Nat} {s : Snapshot} {v : Json} (h : s.WrittenAs v)
    (hdepth : s.toJson.depth ≤ room) : ofJson? room v = some s := by
  rw [depth_toJson] at hdepth
  obtain ⟨room, rfl⟩ : ∃ n, room = n + 2 := ⟨room - 2, by omega⟩
  rw [Nat.add_le_add_iff_right, Nat.max_le] at hdepth
  have htagsDepth := depth_le_of_mem hdepth.1
  have hlibrariesDepth := depth_le_of_mem hdepth.2
  obtain ⟨fs, hfs, hfound⟩ := h.exists_fields?
  simp only [List.forall_mem_cons] at hfound
  obtain ⟨htags, hlibraries, -⟩ := hfound
  have hfs : fields? ["tags", "libraries"] v = some fs := hfs
  have htags : fs.optional "tags" [] (list? (room + 1) Tag.ofJson?) = some s.tags :=
    htags.optional_eq id fun w hw =>
      hw.list? fun t ht e he => Tag.ofJson?_of_writtenAs he (htagsDepth t ht)
  have hlibraries :
      fs.optional "libraries" [] (list? (room + 1) Library.ofJson?) = some s.libraries :=
    hlibraries.optional_eq id fun w hw =>
      hw.list? fun l hl e he => Library.ofJson?_of_writtenAs he (hlibrariesDepth l hl)
  simp only [ofJson?, hfs, htags, hlibraries, Option.bind_eq_bind, Option.bind_some]
  rfl

/-! ## Lemmas: the JSON form -/

mutual

theorem Tag.writtenAs_toJson (t : Tag) : t.WrittenAs t.toJson := by
  match t with
  | .mk name children =>
    have hchildren : ∃ es, Json.array (Tag.toJsonAll children) = .array es ∧
        Tag.AllWrittenAs children es := ⟨_, rfl, Tag.allWrittenAs_toJsonAll children⟩
    rw [Tag.WrittenAs]
    exact writesRecord_ofMembers ["name", "children"] rfl (by decide)
      (.cons (writesText_ofText name) (.cons hchildren .nil))

theorem Tag.allWrittenAs_toJsonAll (ts : List Tag) :
    Tag.AllWrittenAs ts (Tag.toJsonAll ts) := by
  match ts with
  | [] => rfl
  | t :: ts => exact ⟨_, _, rfl, t.writtenAs_toJson, Tag.allWrittenAs_toJsonAll ts⟩

end

theorem Item.writtenAs_toJson (i : Item) : i.WrittenAs i.toJson := by
  have hcomment := writesOption_ofOption writesText_ofText i.comment
  have htags := writesList_ofList (l := i.tags) fun s _ => writesText_ofText s
  exact writesRecord_ofMembers
    ["name", "width", "height", "rating", "nsfw", "comment", "size", "tags"] rfl (by decide)
    (.cons (writesText_ofText i.name) (.cons rfl (.cons rfl (.cons rfl (.cons rfl
      (.cons hcomment (.cons rfl (.cons htags .nil))))))))

mutual

theorem Folder.writtenAs_toJson (f : Folder) : f.WrittenAs f.toJson := by
  match f with
  | .mk name folders items =>
    have hfolders : ∃ es, Json.array (Folder.toJsonAll folders) = .array es ∧
        Folder.AllWrittenAs folders es := ⟨_, rfl, Folder.allWrittenAs_toJsonAll folders⟩
    have hitems := writesList_ofList (l := items) fun i _ => i.writtenAs_toJson
    rw [Folder.WrittenAs]
    exact writesRecord_ofMembers ["name", "folders", "items"] rfl (by decide)
      (.cons (writesText_ofText name) (.cons hfolders (.cons hitems .nil)))

theorem Folder.allWrittenAs_toJsonAll (fs : List Folder) :
    Folder.AllWrittenAs fs (Folder.toJsonAll fs) := by
  match fs with
  | [] => rfl
  | f :: fs => exact ⟨_, _, rfl, f.writtenAs_toJson, Folder.allWrittenAs_toJsonAll fs⟩

end

theorem Library.writtenAs_toJson (l : Library) : l.WrittenAs l.toJson := by
  have howner : WritesOption (fun owner : UInt64 => WritesNat owner.toNat) l.owner
      (.ofOption (fun owner => .ofNat owner.toNat) l.owner) := by
    cases l.owner <;> rfl
  have hfolders := writesList_ofList (l := l.folders) fun f _ => f.writtenAs_toJson
  exact writesRecord_ofMembers
    ["display_name", "machine_name", "absolute_path", "nsfw", "owner", "folders"] rfl (by decide)
    (.cons (writesText_ofText l.displayName) (.cons (writesText_ofText l.machineName)
      (.cons (writesText_ofText l.absolutePath) (.cons rfl (.cons howner (.cons hfolders .nil))))))

/-- The JSON form of a snapshot writes it. -/
theorem writtenAs_toJson (s : Snapshot) : s.WrittenAs s.toJson := by
  have htags := writesList_ofList (l := s.tags) fun t _ => t.writtenAs_toJson
  have hlibraries := writesList_ofList (l := s.libraries) fun l _ => l.writtenAs_toJson
  exact writesRecord_ofMembers ["tags", "libraries"] rfl (by decide)
    (.cons htags (.cons hlibraries .nil))

/-! ## Top theorem -/

/-- **A snapshot is read from any of its texts.** -/
theorem read?_of_hasText {s : Snapshot} {text : String} (hdepth : s.toJson.depth ≤ 127)
    (h : s.HasText text) : read? text = some s := by
  obtain ⟨v, hv, hwritten⟩ := h
  rw [read?, read?_of_elementText hv, Option.bind_some]
  exact ofJson?_of_writtenAs hwritten hdepth

/-- **Any text of a snapshot loads as the snapshot does**, to the same catalog or the same error. -/
theorem ofSnapshotText_of_hasText (s : Snapshot) (hdepth : s.toJson.depth ≤ 127) :
    s.WrittenAs s.toJson ∧
      ∀ text, s.HasText text → Catalog.ofSnapshotText text = Catalog.ofSnapshot s := by
  refine ⟨s.writtenAs_toJson, fun text h => ?_⟩
  rw [Catalog.ofSnapshotText, read?_of_hasText hdepth h]

/-- A tag whose name takes a surrogate pair. -/
def smilingTag : Snapshot := { tags := [.mk "😀" []] }

/-- A member that is passed over stands in front, a key is escaped, the name comes last. -/
def smilingText : String :=
  "\x7b \"x\":[1e5,\"\\ud800\"]," ++
    "\"\\u0074ags\":[\x7b\"children\":[],\"name\":\"\\uD83D\\ude00\"\x7d]\x7d"

/-- What the text spells. -/
def smilingJson : Json :=
  .object [("x", .array [.number "1e5", .string "\\ud800"]),
    ("\\u0074ags", .array [.object [("children", .array []), ("name", .string "\\uD83D\\ude00")]])]

theorem elementText_smiling : ElementText smilingJson smilingText.toList := by
  have hgap : Gap [] := nofun
  have hspace : Gap [' '] := by
    intro c hc
    exact .inl (List.mem_singleton.1 hc)
  have hhalf : Spelling "\\ud800".toList := .code (n := 0xD800) rfl .nil
  have hpair : Spelling "\\uD83D\\ude00".toList :=
    .code (n := 0xD83D) rfl (.code (n := 0xDE00) rfl .nil)
  have htags : Spelling "\\u0074ags".toList := .code (n := 0x74) rfl (spelling_escape "ags")
  have hone : Whole ['1'] := .digits rfl (by decide) nofun
  have hexponent : Exponent ['e', '5'] := .unsigned (.inl rfl)
    ⟨nofun, List.forall_mem_singleton.2 rfl⟩
  have hnumber : ElementText (.number "1e5") "1e5".toList :=
    (ValueText.number (.positive (.mk hone .none hexponent))).elementText
  have hlist : ElementText (.array [.number "1e5", .string "\\ud800"])
      "[1e5,\"\\ud800\"]".toList :=
    (ValueText.array (.cons hnumber (.last (ValueText.string hhalf).elementText))).elementText
  have hpassed : MemberText ("x", .array [.number "1e5", .string "\\ud800"])
      " \"x\":[1e5,\"\\ud800\"]".toList := .mk hspace (spelling_escape "x") hgap hlist
  have hchildren : MemberText ("children", .array []) "\"children\":[]".toList :=
    .mk hgap (spelling_escape "children") hgap (ValueText.noElements hgap).elementText
  have hname : MemberText ("name", .string "\\uD83D\\ude00")
      "\"name\":\"\\uD83D\\ude00\"".toList :=
    .mk hgap (spelling_escape "name") hgap (ValueText.string hpair).elementText
  have htag := (ValueText.object (.cons hchildren (.last hname))).elementText
  exact (ValueText.object (.cons hpassed (.last (.mk hgap htags hgap
    (ValueText.array (.last htag)).elementText)))).elementText

theorem writtenAs_smiling : smilingTag.WrittenAs smilingJson := by
  have hdigit : ∀ n < 16, IsHexDigit (Nat.digitChar n) n := fun n hn => ⟨hn, .inl rfl⟩
  have hkey : Says "\\u0074ags".toList "tags".toList :=
    .code (c := 't') (.mk (hdigit 0 (by decide)) (hdigit 0 (by decide)) (hdigit 7 (by decide))
      (hdigit 4 (by decide))) (says_escape "ags".toList)
  have hcapital : IsHexDigit 'D' 13 := ⟨by decide, .inr rfl⟩
  have hname : WritesText "😀" (.string "\\uD83D\\ude00") :=
    ⟨_, rfl, .pair (c := '😀') (m := 0x3D) (n := 0x200)
      (.mk hcapital (hdigit 8 (by decide)) (hdigit 3 (by decide)) hcapital)
      (.mk (hdigit 13 (by decide)) (hdigit 14 (by decide)) (hdigit 0 (by decide))
        (hdigit 0 (by decide))) (by decide) (by decide) rfl .nil⟩
  have htag : (Tag.mk "😀" []).WrittenAs
      (.object [("children", .array []), ("name", .string "\\uD83D\\ude00")]) := by
    rw [Tag.writtenAs_mk]
    refine ⟨_, [("children", .array []), ("name", .string "\\uD83D\\ude00")], rfl,
      .cons ⟨says_escape "children".toList, rfl⟩ (.cons ⟨says_escape "name".toList, rfl⟩ .nil), ?_⟩
    simp only [List.forall_mem_cons]
    exact ⟨.inl ⟨_, hname, rfl⟩, .inl ⟨_, ⟨_, rfl, .nil⟩, rfl⟩, nofun⟩
  refine ⟨_, [("x", .array [.number "1e5", .string "\\ud800"]),
    ("tags", .array [.object [("children", .array []), ("name", .string "\\uD83D\\ude00")]])], rfl,
    .cons ⟨says_escape "x".toList, rfl⟩ (.cons ⟨hkey, rfl⟩ .nil), ?_⟩
  simp only [List.forall_mem_cons]
  refine ⟨.inl ⟨_, ⟨_, rfl, .cons htag .nil⟩, rfl⟩, .inr ⟨rfl, ?_⟩, nofun⟩
  decide

/-- The text loads as the snapshot, to a catalog of one tag. -/
theorem ofSnapshotText_of_hasText_smiling :
    smilingTag.toJson.depth = 4 ∧ smilingTag.HasText smilingText ∧
      Catalog.ofSnapshotText smilingText = Catalog.ofSnapshot smilingTag := by
  have hdepth : smilingTag.toJson.depth = 4 := by decide +kernel
  have htext : smilingTag.HasText smilingText := ⟨_, elementText_smiling, writtenAs_smiling⟩
  exact ⟨hdepth, htext, (ofSnapshotText_of_hasText smilingTag (by omega)).2 _ htext⟩

end Snapshot

end PictureSearch
