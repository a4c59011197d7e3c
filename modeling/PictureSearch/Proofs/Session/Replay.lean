import PictureSearch.Proofs.Query.Munch
import PictureSearch.Proofs.Saved.History
import PictureSearch.Proofs.Session.RowNumbers
import PictureSearch.Proofs.Session.SavedFile
import PictureSearch.Proofs.Text.Trimming

/-!
# Saved searches are run again as they were typed

A line that saves a search names it by a word without blanks, so the name can be given back to the
commands that run and forget it; and what is saved is a query that starts with no slash, so it is a
line of its own that is no command:

    Command.ofLine line = .save name query →
      Command.ofLine ("/run " ++ name) = .run name ∧ …                         (Addressable.of_save)
    (s.turn (utf8 ("/run " ++ name))).run w = (s.turn (utf8 query)).run w    (save_replays_as_typed)

A command changes saved searches as the call that it stands for does (`run_obey_fst`), so that a
search stays as it is while no line saves or forgets its name (`After.get?_eq`).
-/

namespace PictureSearch

open Session

namespace Session

/-! ## Statements -/

/-- The name and the query can be given to commands and typed as a line. -/
structure Addressable (name query line : String) : Prop where
  name_ne : name ≠ ""
  blankless : ∀ c ∈ name.toList, Text.isBlank c = false
  query_ne : query ≠ ""
  trimmed : Text.trim query = query
  /-- The query stands in the line, so it has no line break where the line has none. -/
  within : query.toList <:+: line.toList
  run : Command.ofLine ("/run " ++ name) = .run name
  forget : Command.ofLine ("/forget " ++ name) = .forget name

/-- The command of a line as it comes in; a blank line has none. -/
def commandOf? (bytes : List UInt8) : Option Command :=
  (Payload.Coder.ofUtf8? bytes).bind fun line =>
    if (Text.trim line).isEmpty then none else some (.ofLine (Text.trim line))

/-- The line saves a query under the name with success, or forgets the name. -/
def Settles (name : String) (line : List UInt8) : Prop :=
  (∃ query, commandOf? line = some (.save name query) ∧ Query.Parses query) ∨
    commandOf? line = some (.forget name)

/-- The call that a command stands for. -/
def Command.savedCall? (owner : UInt64) : Command → Option SavedCall
  | .save name text => some (.save owner name text)
  | .forget name => some (.remove owner name)
  | _ => none

/-! ## Lemmas: names -/

theorem ofWord_eq_save_iff {word name query : String} {rest : List Char} :
    Command.ofWord word rest = .save name query ↔
      word = "save" ∧ ∃ a b, Text.cutAtBlank rest = some (a, b) ∧
        name = String.ofList a ∧ query = String.ofList (Text.trimBlanks b) := by
  constructor
  · intro h
    unfold Command.ofWord at h
    split at h
    case h_5 =>
      split at h
      · next a b hcut =>
        cases h
        exact ⟨rfl, a, b, hcut, rfl, rfl⟩
      · cases h
    case h_4 =>
      dsimp only at h
      split at h <;> cases h
    all_goals cases h
  · rintro ⟨rfl, a, b, hcut, rfl, rfl⟩
    simp [Command.ofWord, hcut]

theorem ofLine_of_slash {line : String} {cs : List Char} (h : line.toList = '/' :: cs) :
    Command.ofLine line =
      .ofWord (String.ofList (cutWord cs).1) (Text.trimBlanks (cutWord cs).2) := by
  unfold Command.ofLine
  split
  · next rest hrest =>
    rw [h] at hrest
    cases hrest
    rfl
  · next hne => exact absurd h (hne cs)

theorem ofLine_of_no_slash {line : String} (h : line.toList.head? ≠ some '/') :
    Command.ofLine line = .query line := by
  unfold Command.ofLine
  split
  · next rest hrest =>
    rw [hrest] at h
    exact absurd rfl h
  · rfl

theorem cutWord_snd_suffix (cs : List Char) : (cutWord cs).2 <:+ cs := by
  unfold cutWord
  cases hcut : Text.cutAtBlank cs with
  | none => exact List.nil_suffix
  | some r =>
    obtain ⟨c, hcs, -, -⟩ := Text.cutAtBlank_eq_some_iff.1 hcut
    rw [hcs]
    exact (List.suffix_cons c r.2).trans (List.suffix_append _ _)

section

variable {name : String} (hne : name ≠ "") (hblankless : Text.Blankless name.toList)

include hblankless

/-- A line of a word and a name is cut into the two again. -/
theorem ofLine_word {word : String} (hword : Text.Blankless word.toList) :
    Command.ofLine ("/" ++ word ++ " " ++ name) = .ofWord word name.toList := by
  have hline : ("/" ++ word ++ " " ++ name).toList =
      '/' :: (word.toList ++ ' ' :: name.toList) := by simp
  have hspace : Text.isBlank ' ' = true := by decide
  have hcut : cutWord (word.toList ++ ' ' :: name.toList) = (word.toList, name.toList) := by
    rw [cutWord, Text.cutAtBlank_append hword hspace]
    rfl
  rw [ofLine_of_slash hline, hcut, String.ofList_toList,
    Text.trimBlanks_of_trimmed hblankless.trimmed]

include hne

theorem ofLine_run_and_forget :
    Command.ofLine ("/run " ++ name) = .run name ∧
      Command.ofLine ("/forget " ++ name) = .forget name := by
  have hrun := @ofLine_word name hblankless "run" (Text.blankless_iff_all.2 rfl)
  have hforget := @ofLine_word name hblankless "forget" (Text.blankless_iff_all.2 rfl)
  obtain ⟨c, cs, hcs⟩ := List.exists_cons_of_ne_nil (mt String.toList_eq_nil_iff.1 hne)
  have hname : String.ofList (c :: cs) = name := by rw [← hcs, String.ofList_toList]
  rw [hcs] at hrun hforget
  constructor
  · exact hrun.trans (congrArg Command.run hname)
  · exact hforget.trans (congrArg Command.forget hname)

end

theorem Addressable.of_save {line name query : String}
    (h : Command.ofLine line = .save name query) : Addressable name query line := by
  by_cases hslash : line.toList.head? = some '/'
  · obtain ⟨cs, hline⟩ := List.head?_eq_some_iff.1 hslash
    rw [ofLine_of_slash hline] at h
    obtain ⟨-, a, b, hcut, rfl, rfl⟩ := ofWord_eq_save_iff.1 h
    obtain ⟨hname, hquery⟩ := (Text.trimmed_trimBlanks _).of_cutAtBlank hcut
    obtain ⟨c, hrest, -, ha⟩ := Text.cutAtBlank_eq_some_iff.1 hcut
    have hnameNe : String.ofList a ≠ "" := by
      rw [← String.ofList_nil]
      exact mt String.ofList_injective hname
    have hblankless : Text.Blankless (String.ofList a).toList := by
      rwa [String.toList_ofList]
    have hwithin : b <:+: line.toList := by
      have hb : b <:+: Text.trimBlanks (cutWord cs).2 := by
        rw [hrest]
        exact ((List.suffix_cons c b).trans (List.suffix_append _ _)).isInfix
      have hcs : (cutWord cs).2 <:+: line.toList := by
        rw [hline]
        exact ((cutWord_snd_suffix cs).trans (List.suffix_cons _ _)).isInfix
      exact hb.trans ((Text.trimBlanks_infix _).trans hcs)
    obtain ⟨hrun, hforget⟩ := ofLine_run_and_forget hnameNe hblankless
    refine ⟨hnameNe, hblankless, ?_, ?_, ?_, hrun, hforget⟩
    · rw [← String.ofList_nil]
      exact mt String.ofList_injective hquery
    · rw [Text.trim, String.toList_ofList, Text.trimBlanks_of_trimmed (Text.trimmed_trimBlanks b)]
    · rw [String.toList_ofList]
      exact (Text.trimBlanks_infix b).trans hwithin
  · rw [ofLine_of_no_slash hslash] at h
    cases h

/-! ## Lemmas: queries -/

/-- A text that starts with a slash is no query. -/
theorem head?_ne_slash_of_parses {query : String} (h : Query.Parses query) :
    query.toList.head? ≠ some '/' := by
  intro hslash
  obtain ⟨cs, hcs⟩ := List.head?_eq_some_iff.1 hslash
  have hstart : Query.State.step .start '/' 0 = .error ⟨.unexpectedCharacter '/', 0⟩ := by
    decide +kernel
  have hscan : Query.scan query = ⟨[], some ⟨.unexpectedCharacter '/', 0⟩⟩ := by
    rw [Query.scan, hcs]
    exact Query.scanFrom_of_error hstart
  obtain ⟨root, hroot⟩ := h
  rw [Query.parse, hscan] at hroot
  cases hroot

/-! ## Lemmas: commands -/

section

variable (s : Session) (w : World)

theorem fst_run_bind {α β : Type} {t : Task α} {f : α → Task β} {b : β}
    (h : ∀ a w, ((f a).run w).1 = b) (w : World) : ((t >>= f).run w).1 = b := by
  rw [Task.run_bind]
  exact h _ _

/-- A command changes the saved searches as its call does. -/
theorem run_obey_fst (c : Command) :
    ((s.obey c).run w).1 = if c = .bye then none else
      some { s with saved :=
        match c.savedCall? s.viewer.number with
        | some call => (s.saved.call call).1
        | none => s.saved } := by
  cases c with
  | bye => rfl
  | save name text =>
    rw [if_neg nofun]
    dsimp only [obey, Command.savedCall?, SavedSearches.call]
    rcases s.saved.save s.viewer.number name text with e | ⟨saved, _ | previous⟩
    · rfl
    · exact fst_run_bind (fun _ => fst_run_bind fun _ _ => rfl) w
    · exact fst_run_bind (fun _ => fst_run_bind fun _ _ => rfl) w
  | forget name =>
    rw [if_neg nofun]
    dsimp only [obey, Command.savedCall?, SavedSearches.call]
    rcases s.saved.remove s.viewer.number name with ⟨saved, _ | dropped⟩
    · rfl
    · exact fst_run_bind (fun _ => fst_run_bind fun _ _ => rfl) w
  | ast text =>
    rw [if_neg nofun]
    dsimp only [obey]
    cases Query.parse text <;> exact fst_run_bind (fun _ _ => rfl) w
  | run name =>
    rw [if_neg nofun]
    dsimp only [obey]
    cases s.saved.get? s.viewer.number name <;> exact fst_run_bind (fun _ _ => rfl) w
  | query _ | page _ _ | saved | invalid _ =>
    rw [if_neg nofun]
    exact fst_run_bind (fun _ _ => rfl) w

/-- Carrying a line out is carrying its command out. -/
theorem run_turn_of_command {bytes : List UInt8} {c : Command} (h : commandOf? bytes = some c) :
    (s.turn bytes).run w =
      ((((s.obey c).run w.prompted).1.map .ok).getD (.error .finished),
        ((s.obey c).run w.prompted).2) := by
  obtain ⟨line, hline, hcommand⟩ := Option.bind_eq_some_iff.1 h
  have hanswer : s.answer line = s.obey c := by
    unfold answer
    by_cases hempty : (Text.trim line).isEmpty = true
    · rw [if_pos hempty] at hcommand
      cases hcommand
    · rw [if_neg hempty] at hcommand
      obtain rfl := Option.some.inj hcommand
      exact if_neg hempty
  rw [s.run_turn_of_ofUtf8? w hline, hanswer]

theorem run_turn_of_no_command {bytes : List UInt8} {s' : Session} (h : commandOf? bytes = none)
    (hturn : ((s.turn bytes).run w).1 = .ok s') : s' = s := by
  cases hline : Payload.Coder.ofUtf8? bytes with
  | none =>
    have hhear : s.hear bytes = return .error (.failed .input) := by
      unfold hear
      rw [hline]
    have hended : (s.turn bytes).run w = (.error (.failed .input), w.prompted) := by
      show (s.hear bytes).run w.prompted = _
      rw [hhear]
      rfl
    rw [hended] at hturn
    cases hturn
  | some line =>
    have hempty : (Text.trim line).isEmpty = true := by
      by_contra hempty
      rw [commandOf?, hline, Option.bind_some, if_neg hempty] at h
      cases h
    have hanswer : s.answer line = return some s := by
      unfold answer
      exact if_pos hempty
    rw [s.run_turn_of_ofUtf8? w hline, hanswer] at hturn
    exact (Except.ok.inj hturn).symm

end

/-! ## Lemmas: lines -/

theorem settles_of_decides {owner : UInt64} {name : String} {bytes : List UInt8} {c : Command}
    {call : SavedCall} (hc : commandOf? bytes = some c) (hcall : c.savedCall? owner = some call)
    (h : call.Decides owner name) : Settles name bytes := by
  rcases h with rfl | ⟨text, htext, rfl⟩
  · have hforget : c = .forget name := by
      cases c <;> cases hcall
      rfl
    exact .inr (hc.trans (congrArg some hforget))
  · have hsave : c = .save name text := by
      cases c <;> cases hcall
      rfl
    exact .inl ⟨text, hc.trans (congrArg some hsave), htext⟩

/-- A line that does not settle a name leaves its search as it is. -/
theorem get?_of_turn {s s' : Session} {w w' : World} {bytes : List UInt8} {name : String}
    (hturn : (s.turn bytes).run w = (.ok s', w')) (hname : ¬ Settles name bytes) :
    s'.viewer = s.viewer ∧
      s'.saved.get? s.viewer.number name = s.saved.get? s.viewer.number name := by
  cases hc : commandOf? bytes with
  | none =>
    obtain rfl := s.run_turn_of_no_command w hc (congrArg Prod.fst hturn)
    exact ⟨rfl, rfl⟩
  | some c =>
    rw [s.run_turn_of_command w hc, run_obey_fst] at hturn
    by_cases hbye : c = .bye
    · rw [if_pos hbye] at hturn
      cases hturn
    · rw [if_neg hbye] at hturn
      obtain rfl := Except.ok.inj (congrArg Prod.fst hturn)
      refine ⟨rfl, ?_⟩
      dsimp only
      cases hcall : c.savedCall? s.viewer.number with
      | none => rfl
      | some call =>
        exact SavedSearches.get?_of_not_decides fun h => hname (settles_of_decides hc hcall h)

theorem After.get?_eq {s₀ s : Session} {w₀ w : World} {lines : List (List UInt8)} {name : String}
    (h : s₀.After w₀ lines s w) (hlines : ∀ line ∈ lines, ¬ Settles name line) :
    s.viewer = s₀.viewer ∧
      s.saved.get? s₀.viewer.number name = s₀.saved.get? s₀.viewer.number name := by
  induction h with
  | nothing => exact ⟨rfl, rfl⟩
  | @line lines s w bytes s' w' _ hturn ih =>
    rw [List.forall_mem_append, List.forall_mem_singleton] at hlines
    obtain ⟨hviewer, hget⟩ := ih hlines.1
    obtain ⟨hviewer', hget'⟩ := get?_of_turn hturn hlines.2
    rw [hviewer] at hviewer' hget'
    exact ⟨hviewer', hget'.trans hget⟩

/-! ## Lemmas: saving and running -/

section

variable {s : Session} {w : World} {name query line : String}

theorem commandOf?_utf8 (h : Text.trim line = line) (hne : line ≠ "") :
    commandOf? (Payload.Coder.utf8 line) = some (.ofLine line) := by
  have hempty : ¬ (Text.trim line).isEmpty = true := by
    rw [h, String.isEmpty_iff]
    exact hne
  rw [commandOf?, Payload.Coder.ofUtf8?_utf8, Option.bind_some, if_neg hempty, h]

theorem run_obey_run (hget : s.saved.get? s.viewer.number name = some query) :
    (s.obey (.run name)).run w = (some s, ((s.report query 0).run w).2) := by
  dsimp only [obey]
  rw [hget]
  exact Task.run_bind _ _ w

/-- Typing a query prints its first page. -/
theorem run_turn_query (ha : Addressable name query line) (hquery : Query.Parses query) :
    (s.turn (Payload.Coder.utf8 query)).run w =
      (.ok s, ((s.report query 0).run w.prompted).2) := by
  have hcommand : Command.ofLine query = .query query :=
    ofLine_of_no_slash (head?_ne_slash_of_parses hquery)
  have hline := commandOf?_utf8 ha.trimmed ha.query_ne
  rw [hcommand] at hline
  have hobey : (s.obey (.query query)).run w.prompted =
      (some s, ((s.report query 0).run w.prompted).2) := Task.run_bind _ _ _
  rw [s.run_turn_of_command w hline, hobey]
  rfl

/-- So does running it by its name. -/
theorem run_turn_run (ha : Addressable name query line)
    (hget : s.saved.get? s.viewer.number name = some query) :
    (s.turn (Payload.Coder.utf8 ("/run " ++ name))).run w =
      (.ok s, ((s.report query 0).run w.prompted).2) := by
  have hchars : ("/run " ++ name).toList = "/run ".toList ++ name.toList := String.toList_append
  have htrimmed : Text.Trimmed ("/run " ++ name).toList := by
    have hblankless : Text.Blankless name.toList := ha.blankless
    have hhead : ∀ c ∈ "/run ".toList.head?, Text.isBlank c = false := by
      rintro c ⟨⟩
      rfl
    rw [hchars]
    exact .append hhead hblankless.trimmed (by decide)
      (mt String.toList_eq_nil_iff.1 ha.name_ne)
  have htrim : Text.trim ("/run " ++ name) = "/run " ++ name := by
    rw [Text.trim, Text.trimBlanks_of_trimmed htrimmed, String.ofList_toList]
  have hne : "/run " ++ name ≠ "" := by
    rw [← String.toList_inj.ne, hchars]
    exact List.append_ne_nil_of_left_ne_nil (by decide) _
  have hline := commandOf?_utf8 htrim hne
  rw [ha.run] at hline
  rw [s.run_turn_of_command w hline, run_obey_run hget]
  rfl

/-- A query that is saved is kept. -/
theorem get?_of_save {s' : Session} {w' : World} {bytes : List UInt8}
    (hline : commandOf? bytes = some (.save name query)) (hquery : Query.Parses query)
    (hturn : (s.turn bytes).run w = (.ok s', w')) :
    s'.viewer = s.viewer ∧ s'.saved.get? s.viewer.number name = some query := by
  rw [s.run_turn_of_command w hline, run_obey_fst, if_neg nofun] at hturn
  obtain rfl := Except.ok.inj (congrArg Prod.fst hturn)
  refine ⟨rfl, ?_⟩
  show (s.saved.call (.save s.viewer.number name query)).1.get? _ _ = _
  rw [SavedSearches.get?_save hquery, if_pos ⟨rfl, rfl⟩]

theorem parses_of_save {saved : SavedSearches} {owner : UInt64} {r}
    (h : saved.save owner name query = .ok r) : Query.Parses query := by
  rcases SavedSearches.parses_or_error query with hquery | ⟨e, he⟩
  · exact hquery
  · unfold SavedSearches.save at h
    rw [he] at h
    cases h

end

/-! ## Top theorem -/

/-- **A saved search is run as it was typed.**  A line that saves a search gives it a name that
commands can be given, and while no line saves or forgets that name, running it does just what
typing the query does. -/
theorem save_replays_as_typed :
    (∀ line name query, Command.ofLine line = .save name query → Addressable name query line) ∧
      ∀ (s₀ s₁ s : Session) (w₀ w₁ w : World) (bytes : List UInt8) (lines : List (List UInt8))
        (name query : String),
        commandOf? bytes = some (.save name query) →
        (∃ r, s₀.saved.save s₀.viewer.number name query = .ok r) →
        (s₀.turn bytes).run w₀ = (.ok s₁, w₁) → s₁.After w₁ lines s w →
        (∀ line ∈ lines, ¬ Settles name line) →
          Command.ofLine query = .query query ∧
          (s.turn (Payload.Coder.utf8 ("/run " ++ name))).run w =
            (s.turn (Payload.Coder.utf8 query)).run w ∧
          (s.turn (Payload.Coder.utf8 query)).run w =
            (.ok s, ((s.report query 0).run w.prompted).2) := by
  refine ⟨fun _ _ _ => .of_save, ?_⟩
  intro s₀ s₁ s w₀ w₁ w bytes lines name query hsave hok hturn hafter hlines
  obtain ⟨r, hr⟩ := hok
  have hquery : Query.Parses query := parses_of_save hr
  obtain ⟨line, -, hline⟩ := Option.bind_eq_some_iff.1 hsave
  have ha : Addressable name query (Text.trim line) := by
    by_cases hempty : (Text.trim line).isEmpty = true
    · rw [if_pos hempty] at hline
      cases hline
    · rw [if_neg hempty] at hline
      exact .of_save (Option.some.inj hline)
  obtain ⟨hviewer₁, hget₁⟩ := get?_of_save hsave hquery hturn
  obtain ⟨hviewer, hget⟩ := hafter.get?_eq hlines
  have hkept : s.saved.get? s.viewer.number name = some query := by
    rw [hviewer, hget, hviewer₁, hget₁]
  have htyped := @run_turn_query s w name query _ ha hquery
  exact ⟨ofLine_of_no_slash (head?_ne_slash_of_parses hquery),
    (run_turn_run ha hkept).trans htyped.symm, htyped⟩

/-- The name is set off by a wide blank, and a query that is none is refused under it later. -/
theorem save_replays_as_typed_wide :
    Addressable "wide" "rating>=1" "/save wide\u3000 rating>=1" ∧
      ∃ (s : Session) (w : World),
        (s.turn (Payload.Coder.utf8 "/run wide")).run w =
          (s.turn (Payload.Coder.utf8 "rating>=1")).run w ∧
            s.saved.list 2 = [("tall", "aspect<10"), ("wide", "rating>=1")] := by
  have hsave : commandOf? (Payload.Coder.utf8 " /save wide\u3000 rating>=1 ") =
      some (.save "wide" "rating>=1") := by decide +kernel
  have hrefused : commandOf? (Payload.Coder.utf8 "/save wide width>") =
      some (.save "wide" "width>") := by decide +kernel
  have hother : commandOf? (Payload.Coder.utf8 "/save tall aspect<10") =
      some (.save "tall" "aspect<10") := by decide +kernel
  have hrun : leadsTo ((ratedSession 20).turn
      (Payload.Coder.utf8 " /save wide\u3000 rating>=1 ")) awaiting (fun s₁ w₁ =>
        leadsTo (s₁.turn (Payload.Coder.utf8 "/save wide width>")) w₁ fun s₂ w₂ =>
          leadsTo (s₂.turn (Payload.Coder.utf8 "/save tall aspect<10")) w₂ fun s _ =>
            s.saved.list 2 == [("tall", "aspect<10"), ("wide", "rating>=1")]) = true := by
    decide +kernel
  obtain ⟨s₁, w₁, hturn, hrun⟩ := exists_of_leadsTo hrun
  obtain ⟨s₂, w₂, hturn₂, hrun⟩ := exists_of_leadsTo hrun
  obtain ⟨s, w, hturn₃, hlist⟩ := exists_of_leadsTo hrun
  have hafter : s₁.After w₁ ([] ++ [Payload.Coder.utf8 "/save wide width>"] ++
      [Payload.Coder.utf8 "/save tall aspect<10"]) s w := .line (.line .nothing hturn₂) hturn₃
  have hok : ∃ r, (ratedSession 20).saved.save 2 "wide" "rating>=1" = .ok r := ⟨_, rfl⟩
  have hlines : ∀ line ∈ [] ++ [Payload.Coder.utf8 "/save wide width>"] ++
      [Payload.Coder.utf8 "/save tall aspect<10"], ¬ Settles "wide" line := by
    intro line hline
    rw [List.nil_append, List.mem_append, List.mem_singleton, List.mem_singleton] at hline
    rcases hline with rfl | rfl
    · rintro (⟨query, hc, hquery⟩ | hc)
      · cases hrefused.symm.trans hc
        have herror : Query.parse "width>" = .error ⟨.missingValue .gt, 6⟩ := by decide +kernel
        obtain ⟨root, hroot⟩ := hquery
        cases herror.symm.trans hroot
      · cases hrefused.symm.trans hc
    · rintro (⟨query, hc, -⟩ | hc)
      · injection Option.some.inj (hother.symm.trans hc) with hname
        exact absurd hname (by decide)
      · cases hother.symm.trans hc
  have hreplay := save_replays_as_typed.2 (ratedSession 20) s₁ s awaiting w₁ w _ _ "wide"
    "rating>=1" hsave hok hturn hafter hlines
  refine ⟨save_replays_as_typed.1 _ _ _ ?_, s, w, hreplay.2.1, eq_of_beq hlist⟩
  decide +kernel

end Session

end PictureSearch
