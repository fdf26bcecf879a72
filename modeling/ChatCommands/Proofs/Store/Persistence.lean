import ChatCommands.Proofs.Instant.RoundTrip
import ChatCommands.Proofs.Json.Magnitude
import ChatCommands.Proofs.Store.Loading

/-!
A store survives its file.

Loading converts: names are lowered, ids and numerals become texts and integers, prefixes are
trimmed, repeated ids and servers are merged. What has been loaded once is in normal form, in which
nothing is left to convert, and every change keeps it there. So what a change writes is loaded as
the very contents that were written.
-/

namespace ChatCommands

/-- A command that comes back from its file as it is. -/
structure Command.Settled (c : Command) : Prop where
  low : Text.lower c.name = c.name
  created : Instant.reread c.createdAt = some c.createdAt
  updated : Instant.reread c.updatedAt = some c.updatedAt
  short : ∀ n ∈ c.integers, Numeral.Short n

theorem Command.Settled.reread {c : Command} (h : c.Settled) : c.reread = some c := by
  simp only [Command.reread, h.created, h.updated]

/-- Contents that come back from their file as they are. -/
structure Contents.Settled (s : Contents) : Prop where
  ids : s.ids.Nodup
  commands : ∀ c ∈ s.commands, c.Settled
  servers : (s.prefixes.map Prod.fst).Nodup
  prefixes : ∀ setting ∈ s.prefixes, Contents.rereadSetting setting = some setting

theorem filterMap_eq_self {α : Type} {f : α → Option α} {l : List α}
    (same : ∀ a ∈ l, f a = some a) : l.filterMap f = l := by
  induction l with
  | nil => rfl
  | cons a rest ih =>
    obtain ⟨here, later⟩ := List.forall_mem_cons.mp same
    rw [List.filterMap_cons_some here, ih later]

theorem Contents.Settled.reread {s : Contents} (h : s.Settled) : s.reread = s := by
  have commands := filterMap_eq_self fun c hc => (h.commands c hc).reread
  have prefixes := filterMap_eq_self h.prefixes
  rw [Contents.reread, commands, prefixes]

theorem Contents.Settled.ofFile {s : Contents} (h : s.Settled) :
    ∃ warnings, Contents.ofFile (some s.fileText) = .ok (s, warnings) := by
  have short : ∀ c ∈ s.commands, ∀ n ∈ c.integers, ¬ Numeral.Short n → False :=
    fun c hc n hn long => long ((h.commands c hc).short n hn)
  have read := ofFile_fileText short h.ids (fun c hc => (h.commands c hc).low) h.servers
  rw [h.reread] at read
  exact read.resolve_right fun ⟨impossible, _⟩ => impossible

/-! ### Changes -/

namespace Instant

theorem reread_of_read {t : Text} {i : Instant} (h : read t = some i) :
    reread (some i) = some (some i) := by
  rw [reread, read_text (read_legible h)]
  rfl

end Instant

namespace Contents

theorem restrip_strip {t : Text} (nonempty : (Text.strip t).isEmpty = false) :
    restrip (some (Text.strip t)) = some (Text.strip t) := by
  simp [restrip, Text.strip_strip, Option.filter, nonempty]

theorem mem_putPrefix {g : Int} {own : Option Text} {l : List (Int × Option Text)}
    {setting : Int × Option Text} (h : setting ∈ putPrefix g own l) :
    setting = (g, own) ∨ setting ∈ l := by
  induction l with
  | nil => exact .inl (List.mem_singleton.mp h)
  | cons entry rest ih =>
    obtain ⟨k, old⟩ := entry
    simp only [putPrefix] at h
    split at h
    · rename_i same
      rcases List.mem_cons.mp h with rfl | h
      · exact .inl (same ▸ rfl)
      · exact .inr (List.mem_cons_of_mem _ h)
    · rcases List.mem_cons.mp h with rfl | h
      · exact .inr List.mem_cons_self
      · exact (ih h).imp_right (List.mem_cons_of_mem _)

theorem settled_empty : empty.Settled where
  ids := List.nodup_nil
  commands _ h := nomatch h
  servers := List.nodup_nil
  prefixes _ h := nomatch h

theorem Settled.put {s : Contents} (h : s.Settled) {c : Command} (settled : c.Settled) :
    (s.put c).Settled where
  ids := nodup_ids_put h.ids c
  commands := forall_mem_put h.commands settled
  servers := h.servers
  prefixes := h.prefixes

theorem Settled.putPrefix {s : Contents} (h : s.Settled) {g : Int} {own : Option Text}
    (again : rereadSetting (g, own) = some (g, own)) :
    Settled { s with prefixes := putPrefix g own s.prefixes } where
  ids := h.ids
  commands := h.commands
  servers := keys_putPrefix h.servers
  prefixes setting hs := by
    rcases mem_putPrefix hs with rfl | old
    · exact again
    · exact h.prefixes setting old

end Contents

namespace Store

/-- A call whose integers and whose time can be written and read back. -/
def Call.Legible : Call → Prop
  | .add server _ _ createdBy _ now =>
    (∀ n ∈ server :: createdBy.toList, Numeral.Short n) ∧ Instant.read now.text = some now
  | .edit _ _ _ now => Instant.read now.text = some now
  | .setPrefix server _ => Numeral.Short server
  | _ => True

end Store

/-- Every legible call leaves settled contents settled. -/
theorem Contents.Settled.change {s t : Contents} {c : Store.Call} (h : s.Settled)
    (change : s.Change c t) (legible : c.Legible) : t.Settled := by
  cases change with
  | kept => exact h
  | @added server name response createdBy id now word filled free =>
    have dated := Instant.reread_of_read legible.2
    exact h.put ⟨Text.lower_lower _, dated, dated, legible.1⟩
  | @edited server identifier response now old found filled =>
    have settled := h.commands old (mem_of_findByIdentifier found).1
    exact h.put ⟨settled.low, settled.created, Instant.reread_of_read legible, settled.short⟩
  | @removed server identifier old found =>
    exact ⟨h.ids.sublist (List.filter_sublist.map _),
      fun c hc => h.commands c (List.mem_of_mem_filter hc), h.servers, h.prefixes⟩
  | @prefixed server own word =>
    refine h.putPrefix ?_
    have short : Numeral.Short server := legible
    have nonempty : (Text.strip own).isEmpty = false := by
      simpa using (isWord_iff.mp word).1
    simp [rereadSetting, short, restrip_strip nonempty]

/-! ### Loading -/

theorem Json.short_toInteger {j : Json} (modest : j.Modest) {n : Int} (h : j.toInteger = .ok n) :
    Numeral.Short n := by
  cases j with
  | scalar s => exact modest n h
  | array => cases h
  | object => cases h

namespace Command

theorem modest_optional {fields : List (Text × Json)} (modest : Json.ModestFields fields)
    (name : String) : (optional name fields).Modest := by
  unfold optional
  cases found : Json.field? name.toList fields with
  | none => exact Scalar.modest_null
  | some j => exact Json.modest_field modest found

theorem short_names {j : Json} (modest : j.Modest) {user : Option Int} (h : Names j user) :
    ∀ n ∈ user.toList, Numeral.Short n := by
  cases user with
  | none => exact fun _ none => nomatch none
  | some n => simpa using Json.short_toInteger modest h

theorem reread_dates {j : Json} {time : Option Instant} (h : Dates j time) :
    Instant.reread time = some time := by
  cases time with
  | none => rfl
  | some i => exact Instant.reread_of_read h.2

/-- A command that has been read from an object is settled. -/
theorem settled_ofFields {fields : List (Text × Json)} (modest : Json.ModestFields fields)
    {c : Command} (h : ofFields fields = .ok c) : c.Settled := by
  have written := ofFields_eq_ok_iff.mp h
  obtain ⟨j, found, whole⟩ := written.server
  obtain ⟨name, -, low⟩ := Option.map_eq_some_iff.mp written.name
  refine ⟨low ▸ Text.lower_lower _, reread_dates written.createdAt,
    reread_dates written.updatedAt, ?_⟩
  exact List.forall_mem_cons.mpr
    ⟨Json.short_toInteger (Json.modest_field modest found) whole,
      short_names (modest_optional modest _) written.createdBy⟩

end Command

namespace Contents

theorem settled_readCommand {s t : Contents} {entry : Json} {warnings : List Warning}
    (h : s.Settled) (modest : entry.Modest) (read : readCommand s entry = .ok (t, warnings)) :
    t.Settled := by
  unfold readCommand at read
  split at read
  · split at read
    · rename_i c made
      cases read
      exact h.put (Command.settled_ofFields modest made)
    · split at read
      · cases read
      · cases read
        exact h
  · cases read
    exact h

theorem settled_readCommands {entries : List Json} (modest : Json.ModestItems entries)
    {s t : Contents} {warnings : List Warning} (h : s.Settled)
    (read : readCommands s entries = .ok (t, warnings)) : t.Settled := by
  induction entries generalizing s warnings with
  | nil =>
    cases read
    exact h
  | cons entry rest ih =>
    obtain ⟨⟨s', here⟩, first, read⟩ := bind_eq_ok.mp read
    obtain ⟨⟨t', later⟩, others, read⟩ := bind_eq_ok.mp read
    cases read
    exact ih modest.2 (settled_readCommand h modest.1 first) others

/-- A prefix that has been read is trimmed, and not empty. -/
theorem restrip_prefixOf (fields : List (Text × Json)) :
    restrip (prefixOf fields) = prefixOf fields := by
  have same : ∃ t, prefixOf fields =
      if (Text.strip t).isEmpty then none else some (Text.strip t) := ⟨_, rfl⟩
  obtain ⟨t, same⟩ := same
  rw [same]
  split
  · rfl
  · rename_i nonempty
    exact restrip_strip (by simpa using nonempty)

theorem settled_readPrefixes {entries : List (Text × Json)} {s : Contents} (h : s.Settled) :
    (readPrefixes s entries).1.Settled := by
  fun_induction readPrefixes s entries with
  | case1 => exact h
  | case2 s key rest fields id read ih =>
    have short : Numeral.Short id := Numeral.short_readInt read
    exact ih (h.putPrefix (by simp [rereadSetting, short, restrip_prefixOf]))
  | case3 s key rest fields unread t later same ih =>
    have settled := ih h
    rwa [same] at settled
  | case4 s key rest entry other ih => exact ih h

theorem modest_entriesOf {fields : List (Text × Json)} (modest : Json.ModestFields fields)
    {name : Text} {entries : List Json}
    (h : entriesOf (Json.field? name fields) = .ok entries) : Json.ModestItems entries := by
  cases found : Json.field? name fields with
  | none =>
    rw [found] at h
    cases h
    trivial
  | some j =>
    have value := Json.modest_field modest found
    rw [found] at h
    unfold entriesOf at h
    split at h
    · cases h
      trivial
    · rename_i same
      cases same
      cases h
      exact value
    · cases h
      trivial
    · cases h
      trivial
    · cases h

theorem settled_ofJson {j : Json} (modest : j.Modest) {s : Contents} {warnings : List Warning}
    (h : ofJson j = .ok (s, warnings)) : s.Settled := by
  unfold ofJson at h
  split at h
  · obtain ⟨entries, listed, h⟩ := bind_eq_ok.mp h
    obtain ⟨⟨t, first⟩, read, h⟩ := bind_eq_ok.mp h
    have settled := settled_readCommands (modest_entriesOf modest listed) settled_empty read
    dsimp only at h
    split at h
    · cases h
      exact settled_readPrefixes settled
    · cases h
      exact settled
  · cases h

/-- Contents that have been loaded are settled, whatever the file. -/
theorem settled_ofFile {file : Option Text} {s : Contents} {warnings : List Warning}
    (h : ofFile file = .ok (s, warnings)) : s.Settled := by
  unfold ofFile at h
  split at h
  · cases h
    exact settled_empty
  · split at h
    · rename_i read
      exact settled_ofJson (Json.read_modest read) h
    · cases h
      exact settled_empty
    · cases h

end Contents

namespace Store

theorem settled_run {s : Store} {calls : List Call} (h : s.contents.Settled)
    (legible : ∀ c ∈ calls, c.Legible) : (s.run calls).2.contents.Settled := by
  induction calls generalizing s with
  | nil => exact h
  | cons c rest ih =>
    obtain ⟨here, later⟩ := List.forall_mem_cons.mp legible
    refine ih ?_ later
    rw [(answer_eq s c).2]
    exact h.change (Contents.answer_change ..) here

theorem file_of_made {s : Store} {c : Call} (made : (s.answer c).1.isMade = true) :
    (s.answer c).2.file = some (s.answer c).2.contents.fileText := by
  rcases answer_cases s c with ⟨-, written⟩ | ⟨unmade, -⟩
  · exact written
  · rw [made] at unmade
    cases unmade

/-- After every change that is made, the file that has been written is loaded as the store that
wrote it: the same commands and the same prefixes, in the same order. -/
theorem load_after_change {file : Option Text} {s : Store} {warnings : List Warning}
    (loaded : load file = .ok (s, warnings)) {before : List Call} {c : Call}
    (legible : ∀ d ∈ before ++ [c], d.Legible)
    (made : ((s.run before).2.answer c).1.isMade = true) :
    ∃ noted, load ((s.run before).2.answer c).2.file =
      .ok (((s.run before).2.answer c).2, noted) := by
  have start : s.contents.Settled := by
    obtain ⟨⟨contents, noted⟩, read, same⟩ := map_eq_ok.mp loaded
    cases same
    exact Contents.settled_ofFile read
  have earlier := settled_run start fun d hd => legible d (List.mem_append_left _ hd)
  have settled : ((s.run before).2.answer c).2.contents.Settled := by
    rw [(answer_eq _ c).2]
    exact earlier.change (Contents.answer_change ..) (legible c (by simp))
  obtain ⟨noted, read⟩ := settled.ofFile
  refine ⟨noted, ?_⟩
  rw [load, file_of_made made, read]
  have whole : (⟨((s.run before).2.answer c).2.contents,
      some ((s.run before).2.answer c).2.contents.fileText⟩ : Store) =
      ((s.run before).2.answer c).2 := by
    rw [← file_of_made made]
  exact congrArg (fun t => Except.ok (t, noted)) whole

/-- Contents in which one server has set a prefix. -/
def marked : Contents :=
  ⟨[], [(7, some "?".toList)]⟩

theorem load_after_greeting :
    let now : Instant := ⟨2024, 1, 2, 3, 4, 5, 600, some 0⟩
    let later := ((run ⟨marked, some marked.fileText⟩ [.setPrefix 8 " ! ".toList]).2.answer
      (.add 7 "Greet".toList "hi".toList (some 42) "a1".toList now)).2
    (∃ warnings, load (some marked.fileText) = .ok (⟨marked, some marked.fileText⟩, warnings)) ∧
      ∃ noted, load later.file = .ok (later, noted) := by
  intro now later
  have settled : marked.Settled := by
    refine ⟨by decide, fun _ none => (nomatch none), by decide, ?_⟩
    simp only [marked, List.forall_mem_singleton]
    decide
  obtain ⟨warnings, read⟩ := settled.ofFile
  have loaded : load (some marked.fileText) = .ok (⟨marked, some marked.fileText⟩, warnings) := by
    rw [load, read]
    rfl
  have dated : Instant.read now.text = some now := by decide
  have legible : ∀ d ∈ [Call.setPrefix 8 " ! ".toList] ++
      [.add 7 "Greet".toList "hi".toList (some 42) "a1".toList now], d.Legible := by
    refine List.forall_mem_cons.mpr ⟨?_, List.forall_mem_singleton.mpr ⟨?_, dated⟩⟩
    · change Numeral.Short 8
      decide
    · decide
  exact ⟨⟨warnings, loaded⟩, load_after_change loaded legible rfl⟩

end Store

end ChatCommands
