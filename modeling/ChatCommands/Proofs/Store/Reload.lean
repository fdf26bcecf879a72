import ChatCommands.Proofs.Json.RoundTrip
import ChatCommands.Proofs.Store.Contents

/-!
The file of a store, read again.

Contents with distinct ids, distinct servers and names in lower case come back as they were, but
for what cannot be read: a command with a time that its own text does not give back is left out,
and so is the prefix of a server whose id has too many digits.
-/

namespace ChatCommands

/-- An optional time as it comes back from its text. -/
def Instant.reread : Option Instant → Option (Option Instant)
  | none => some none
  | some i => (Instant.read i.text).map some

/-- A command as it comes back from its JSON object, where its times do. -/
def Command.reread (c : Command) : Option Command :=
  match Instant.reread c.createdAt, Instant.reread c.updatedAt with
  | some createdAt, some updatedAt => some { c with createdAt, updatedAt }
  | _, _ => none

namespace Command

theorem reread_cases {c d : Command} (h : c.reread = some d) :
    d = { c with createdAt := d.createdAt, updatedAt := d.updatedAt } := by
  unfold reread at h
  split at h
  · cases h
    rfl
  · cases h

theorem instantOf_text (time : Option Instant) :
    instantOf ((time.map fun i => Json.text i.text).getD .null) =
      match Instant.reread time with
      | some i => .ok i
      | none => .error .malformedInstant := by
  cases time with
  | none => rfl
  | some i =>
    have shown : i.text.isEmpty = false := by simp [Instant.text]
    have truth : (Json.text i.text).truth = true := by simp [Json.truth, Scalar.truth, shown]
    have display : (Json.text i.text).display = i.text := rfl
    simp only [Option.map_some, Option.getD_some, instantOf, truth, display, Instant.reread]
    cases Instant.read i.text <;> rfl

theorem userOf_int (user : Option Int) : userOf ((user.map Json.int).getD .null) = .ok user := by
  cases user <;> rfl

/-- A command is read back from its object, unless one of its times is not. -/
theorem ofJson_toJson {c : Command} (low : Text.lower c.name = c.name) :
    Command.ofJson c.toJson =
      match c.reread with
      | some d => .ok d
      | none => .error .malformedInstant := by
  have created := instantOf_text c.createdAt
  have updated := instantOf_text c.updatedAt
  change (userOf ((c.createdBy.map Json.int).getD .null) >>= fun createdBy =>
    instantOf ((c.createdAt.map fun i => Json.text i.text).getD .null) >>= fun createdAt =>
    instantOf ((c.updatedAt.map fun i => Json.text i.text).getD .null) >>= fun updatedAt =>
    .ok (Command.mk c.id c.server (Text.lower c.name) c.response createdBy createdAt updatedAt)) = _
  rw [userOf_int, created, updated, low]
  unfold reread
  cases Instant.reread c.createdAt <;> cases Instant.reread c.updatedAt <;> rfl

/-- The integers that a command is written with. -/
def integers (c : Command) : List Int :=
  c.server :: c.createdBy.toList

end Command

namespace Contents

/-! ### Commands -/

theorem readCommand_toJson (s : Contents) {c : Command} (low : Text.lower c.name = c.name) :
    readCommand s c.toJson =
      .ok (match c.reread with
        | some d => (s.put d, [])
        | none => (s, [.malformedCommand])) := by
  have read := Command.ofJson_toJson low
  obtain ⟨fields, same⟩ : ∃ fields, c.toJson = .object fields := ⟨_, rfl⟩
  rw [same] at read ⊢
  change Command.ofFields fields = _ at read
  cases again : c.reread with
  | none => simp [readCommand, read, again, Crash.escapes]
  | some d => simp [readCommand, read, again]

theorem readCommands_toJson {commands : List Command}
    (low : ∀ c ∈ commands, Text.lower c.name = c.name) (s : Contents)
    (distinct : (s.ids ++ commands.map Command.id).Nodup) :
    ∃ warnings, readCommands s (commands.map Command.toJson) =
      .ok ({ s with commands := s.commands ++ commands.filterMap Command.reread }, warnings) := by
  induction commands generalizing s with
  | nil => exact ⟨[], by simp [readCommands]⟩
  | cons c rest ih =>
    obtain ⟨here, later⟩ := List.forall_mem_cons.mp low
    rw [List.map_cons, readCommands, readCommand_toJson s here]
    cases again : c.reread with
    -- A command that does not come back leaves its id unused; the others are distinct as before.
    | none =>
      obtain ⟨warnings, read⟩ := ih later s
        (distinct.sublist ((List.sublist_cons_self ..).append_left _))
      exact ⟨.malformedCommand :: warnings, by simp [bind, Except.bind, read, again]; rfl⟩
    | some d =>
      have same : d.id = c.id := by rw [Command.reread_cases again]
      have fresh : d.id ∉ s.ids := by
        rw [same]
        exact fun h => (List.nodup_append.mp distinct).2.2 _ h _ List.mem_cons_self rfl
      obtain ⟨warnings, read⟩ := ih later (s.put d) (by
        rw [ids_put, if_neg fresh, same, List.append_assoc]
        exact distinct)
      rw [put_fresh fresh] at read
      exact ⟨warnings, by simp [bind, Except.bind, put_fresh fresh, read, again]; rfl⟩

/-! ### Prefixes -/

theorem putPrefix_fresh {g : Int} {l : List (Int × Option Text)} (fresh : g ∉ l.map Prod.fst)
    (own : Option Text) : putPrefix g own l = l ++ [(g, own)] := by
  induction l with
  | nil => rfl
  | cons entry l ih =>
    obtain ⟨k, old⟩ := entry
    simp only [List.map_cons, List.mem_cons, not_or] at fresh
    simp [putPrefix, Ne.symm fresh.1, ih fresh.2]

/-- A prefix as it comes back from the settings of a server. -/
def restrip (own : Option Text) : Option Text :=
  (own.map Text.strip).filter fun t => !t.isEmpty

/-- The setting of a server as it comes back, where its id does. -/
def rereadSetting (setting : Int × Option Text) : Option (Int × Option Text) :=
  if Numeral.Short setting.1 then some (setting.1, restrip setting.2) else none

theorem prefixOf_toJson (own : Option Text) :
    prefixOf [("prefix".toList, (own.map Json.text).getD .null)] = restrip own := by
  cases own with
  | none => rfl
  | some t =>
    have field : Json.field? "prefix".toList [("prefix".toList, Json.text t)] = some (.text t) :=
      rfl
    have value : (if (Json.text t).truth then (Json.text t).display else []) = t := by
      cases t <;> rfl
    simp only [prefixOf, Option.map_some, Option.getD_some, field, value, restrip, Option.filter]
    by_cases empty : (Text.strip t).isEmpty = true
    · simp [empty]
    · simp [empty]

theorem readPrefixes_toJson (settings : List (Int × Option Text)) (s : Contents)
    (distinct : (s.prefixes.map Prod.fst ++ settings.map Prod.fst).Nodup) :
    (readPrefixes s (settings.map fun (id, own) =>
      (Text.ofInt id, .object [("prefix".toList, (own.map Json.text).getD .null)]))).1 =
      { s with prefixes := s.prefixes ++ settings.filterMap rereadSetting } := by
  induction settings generalizing s with
  | nil => simp [readPrefixes]
  | cons setting rest ih =>
    obtain ⟨g, own⟩ := setting
    have fresh : g ∉ s.prefixes.map Prod.fst :=
      fun h => (List.nodup_append.mp distinct).2.2 _ h _ List.mem_cons_self rfl
    simp only [List.map_cons, readPrefixes, Numeral.readInt_ofInt]
    by_cases short : Numeral.Short g
    · simp only [if_pos short, prefixOf_toJson, putPrefix_fresh fresh]
      rw [ih _ (by simpa using distinct)]
      simp [rereadSetting, short]
    · simp only [if_neg short]
      rw [ih s (distinct.sublist ((List.sublist_cons_self ..).append_left _))]
      simp [rereadSetting, short]

/-! ### The file -/

theorem plain_command {long : Prop} {c : Command}
    (short : ∀ n ∈ c.integers, ¬ Numeral.Short n → long) : c.toJson.Plain long := by
  have server : ¬ Numeral.Short c.server → long := short _ List.mem_cons_self
  have user : ((c.createdBy.map Json.int).getD .null).Plain long := by
    cases h : c.createdBy with
    | none => trivial
    | some n => exact short n (by simp [Command.integers, h])
  have time (t : Option Instant) :
      ((t.map fun i => Json.text i.text).getD .null).Plain long := by cases t <;> trivial
  refine ⟨?_, by simp only [List.map_cons, List.map_nil]; decide⟩
  exact ⟨trivial, server, trivial, trivial, user, time _, time _, trivial⟩

/-- Contents are written without floats, and with distinct names where the servers that have set a
prefix are distinct. -/
theorem plain_toJson {long : Prop} {s : Contents}
    (short : ∀ c ∈ s.commands, ∀ n ∈ c.integers, ¬ Numeral.Short n → long)
    (settings : (s.prefixes.map Prod.fst).Nodup) : s.toJson.Plain long := by
  have commands : Json.PlainItems long (s.commands.map Command.toJson) := by
    rw [Json.plainItems_iff]
    intro j hj
    obtain ⟨c, hc, rfl⟩ := List.mem_map.mp hj
    exact plain_command (short c hc)
  have names : ((s.prefixes.map fun (id, own) => (Text.ofInt id,
      Json.object [("prefix".toList, (own.map Json.text).getD .null)])).map Prod.fst).Nodup := by
    rw [List.map_map, List.nodup_iff_pairwise_ne, List.pairwise_map]
    exact (List.pairwise_map.mp settings).imp fun ne same => ne (Text.ofInt_injective same)
  have guilds : Json.PlainFields long (s.prefixes.map fun (id, own) => (Text.ofInt id,
      Json.object [("prefix".toList, (own.map Json.text).getD .null)])) := by
    rw [Json.plainFields_iff]
    intro field hf
    obtain ⟨⟨id, own⟩, -, rfl⟩ := List.mem_map.mp hf
    exact ⟨⟨by cases own <;> trivial, trivial⟩, by simp⟩
  exact ⟨⟨commands, ⟨guilds, names⟩, trivial⟩, by simp only [List.map_cons, List.map_nil]; decide⟩

/-- Contents as they come back from their file. -/
def reread (s : Contents) : Contents :=
  ⟨s.commands.filterMap Command.reread, s.prefixes.filterMap rereadSetting⟩

theorem ofJson_toJson {s : Contents} (distinct : s.ids.Nodup)
    (low : ∀ c ∈ s.commands, Text.lower c.name = c.name)
    (settings : (s.prefixes.map Prod.fst).Nodup) :
    ∃ warnings, ofJson s.toJson = .ok (s.reread, warnings) := by
  obtain ⟨first, commands⟩ := readCommands_toJson low empty (by simpa [ids, empty] using distinct)
  have guilds := readPrefixes_toJson s.prefixes
    ⟨s.commands.filterMap Command.reread, []⟩ (by simpa using settings)
  change ∃ warnings, (readCommands empty (s.commands.map Command.toJson) >>= _) = _
  rw [commands]
  exact ⟨_, congrArg (fun t => Except.ok (t, _)) guilds⟩

/-- The file of contents is read as the contents, as far as they come back, unless an integer in it
has too many digits. -/
theorem ofFile_fileText {long : Prop} {s : Contents}
    (short : ∀ c ∈ s.commands, ∀ n ∈ c.integers, ¬ Numeral.Short n → long)
    (distinct : s.ids.Nodup) (low : ∀ c ∈ s.commands, Text.lower c.name = c.name)
    (settings : (s.prefixes.map Prod.fst).Nodup) :
    (∃ warnings, ofFile (some s.fileText) = .ok (s.reread, warnings)) ∨
      long ∧ ofFile (some s.fileText) = .error .tooManyDigits := by
  rcases Json.read_writeIndented (plain_toJson short settings) with read | ⟨excuse, stop⟩
  · left
    rw [ofFile, fileText, read]
    exact ofJson_toJson distinct low settings
  · right
    refine ⟨excuse, ?_⟩
    rw [ofFile, fileText, stop]

end Contents

end ChatCommands
