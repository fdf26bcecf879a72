import ChatCommands.Proofs.Store.Reload
import ChatCommands.Proofs.Text.Lower
import ChatCommands.Proofs.Text.Strip

/-!
A store as a map from servers and names to commands.

The commands are listed under their ids, and found by server and name. What makes the list a map
under the second key is an invariant, `Consistent`, which every call keeps and every reading of the
file of a store gives again.
-/

namespace ChatCommands

namespace Contents

/-! ### Names -/

theorem isWord_iff {t : Text} : isWord t = true ↔ t ≠ [] ∧ ∀ c ∈ t, Text.isBlank c = false := by
  simp only [isWord, Bool.and_eq_true, Bool.not_eq_true', List.isEmpty_eq_false_iff,
    List.any_eq_false, Bool.not_eq_true]

/-- Whether a name is one word is settled before it is lowered. -/
theorem isWord_key (name : Text) : isWord (key name) = isWord (Text.strip name) := by
  rw [Bool.eq_iff_iff, isWord_iff, isWord_iff, key, Text.lower_visible_iff, ne_eq,
    Text.lower_eq_nil_iff]

/-- The key of a word that is a key is the word. -/
theorem key_eq_self {name : Text} (word : isWord name = true) (low : Text.lower name = name) :
    key name = name := by
  rw [key, Text.strip_of_visible (isWord_iff.mp word).2, low]

theorem key_key {name : Text} (word : isWord (key name) = true) : key (key name) = key name :=
  key_eq_self word (Text.lower_lower _)

end Contents

/-- The server and the name of a command, under which it is found. -/
def Command.key (c : Command) : Int × Text :=
  (c.server, c.name)

namespace Contents

/-- Whether every id is there once, and every name once in its server. -/
structure Keyed (s : Contents) : Prop where
  ids : s.ids.Nodup
  keys : (s.commands.map Command.key).Nodup

theorem Keyed.eq_of_key_eq {s : Contents} (h : s.Keyed) {c d : Command} (hc : c ∈ s.commands)
    (hd : d ∈ s.commands) (same : c.key = d.key) : c = d :=
  List.inj_on_of_nodup_map h.keys hc hd same

theorem Keyed.key_ne {s : Contents} (h : s.Keyed) {c d : Command} (hc : c ∈ s.commands)
    (hd : d ∈ s.commands) (other : d.id ≠ c.id) : d.key ≠ c.key :=
  fun same => other (congrArg Command.id (h.eq_of_key_eq hd hc same))

/-- A command may be put under its id if no command under another id has its key. -/
theorem Keyed.put {s : Contents} (h : s.Keyed) {c : Command}
    (free : ∀ d ∈ s.commands, d.id ≠ c.id → d.key ≠ c.key) : (s.put c).Keyed := by
  have ids := nodup_ids_put h.ids c
  refine ⟨ids, (List.nodup_map_iff_inj_on (List.Nodup.of_map _ ids)).mpr ?_⟩
  intro d hd e he same
  rcases mem_put.mp hd with rfl | ⟨oldd, otherd⟩ <;> rcases mem_put.mp he with rfl | ⟨olde, othere⟩
  · rfl
  · exact absurd same.symm (free e olde othere)
  · exact absurd same (free d oldd otherd)
  · exact h.eq_of_key_eq oldd olde same

/-- A command to add is under a key that is free. -/
theorem key_ne_of_free {s : Contents} {g : Int} {name : Text} (word : isWord (key name) = true)
    (free : s.find g (key name) = none) : ∀ d ∈ s.commands, d.key ≠ (g, key name) := by
  intro d hd same
  obtain ⟨server, named⟩ := Prod.mk.inj same
  have := List.find?_eq_none.mp free d hd
  simp [server, named, key_key word] at this

/-- No change brings in a second command with a name, whatever its id. -/
theorem Keyed.change {s t : Contents} {c : Store.Call} (h : s.Keyed) (change : s.Change c t) :
    t.Keyed := by
  cases change with
  | kept => exact h
  | added word filled free => exact h.put fun d hd _ => key_ne_of_free word free d hd
  | @edited _ _ _ _ old found filled =>
    have free : ∀ d ∈ s.commands, d.id ≠ old.id → d.key ≠ old.key :=
      fun d hd other => h.key_ne (mem_of_findByIdentifier found).1 hd other
    exact h.put free
  | removed =>
    exact ⟨h.ids.sublist (List.filter_sublist.map _), h.keys.sublist (List.filter_sublist.map _)⟩
  | prefixed => exact ⟨h.ids, h.keys⟩

/-- What holds of the contents of a store at every time. -/
structure Consistent (s : Contents) : Prop where
  ids : s.ids.Nodup
  keys : (s.commands.map Command.key).Nodup
  words : ∀ c ∈ s.commands, isWord c.name = true
  low : ∀ c ∈ s.commands, Text.lower c.name = c.name
  filled : ∀ c ∈ s.commands, Text.blank c.response = false
  settings : (s.prefixes.map Prod.fst).Nodup

theorem consistent_empty : empty.Consistent where
  ids := List.nodup_nil
  keys := List.nodup_nil
  words _ h := nomatch h
  low _ h := nomatch h
  filled _ h := nomatch h
  settings := List.nodup_nil

theorem Consistent.keyed {s : Contents} (h : s.Consistent) : s.Keyed :=
  ⟨h.ids, h.keys⟩

/-- The command under an id is the one that has the id. -/
theorem Consistent.find_id_iff {s : Contents} (h : s.Consistent) {id : Text} {c : Command} :
    s.commands.find? (fun d => d.id == id) = some c ↔ c ∈ s.commands ∧ c.id = id := by
  constructor
  · intro found
    have same := List.find?_some found
    exact ⟨List.mem_of_find?_eq_some found, eq_of_beq same⟩
  · rintro ⟨mem, rfl⟩
    have some : (s.commands.find? fun d => d.id == c.id).isSome :=
      List.find?_isSome.mpr ⟨c, mem, beq_self_eq_true c.id⟩
    obtain ⟨d, found⟩ := Option.isSome_iff_exists.mp some
    have same := List.find?_some found
    rw [found, eq_of_id_eq h.ids (List.mem_of_find?_eq_some found) mem (eq_of_beq same)]

/-- A command is found under its server and name, and no other command is. -/
theorem Consistent.find_iff {s : Contents} (h : s.Consistent) {g : Int} {name : Text}
    {c : Command} :
    s.find g name = some c ↔ c ∈ s.commands ∧ c.server = g ∧ c.name = key name := by
  refine ⟨mem_of_find, ?_⟩
  rintro ⟨mem, server, named⟩
  have some : (s.find g name).isSome := by
    rw [find, List.find?_isSome]
    exact ⟨c, mem, by simp [server, named]⟩
  obtain ⟨d, found⟩ := Option.isSome_iff_exists.mp some
  obtain ⟨memd, serverd, namedd⟩ := mem_of_find found
  have same : d = c :=
    h.keyed.eq_of_key_eq memd mem (by simp [Command.key, server, named, serverd, namedd])
  rw [found, same]

/-! ### What a call keeps -/

theorem keys_putPrefix {g : Int} {own : Option Text} {l : List (Int × Option Text)}
    (distinct : (l.map Prod.fst).Nodup) : ((putPrefix g own l).map Prod.fst).Nodup := by
  have keys : (putPrefix g own l).map Prod.fst =
      if g ∈ l.map Prod.fst then l.map Prod.fst else l.map Prod.fst ++ [g] := by
    clear distinct
    induction l with
    | nil => rfl
    | cons entry l ih =>
      obtain ⟨k, old⟩ := entry
      by_cases hk : k = g
      · simp [putPrefix, hk]
      · simp only [putPrefix, if_neg hk, List.map_cons, ih, List.mem_cons, Ne.symm hk, false_or]
        split <;> simp
  rw [keys]
  split
  · exact distinct
  · rename_i fresh
    exact List.nodup_append.mpr ⟨distinct, by simp, by rintro a ha b hb rfl; simp_all⟩

theorem Consistent.put {s : Contents} (h : s.Consistent) {c : Command} (keyed : (s.put c).Keyed)
    (word : isWord c.name = true) (low : Text.lower c.name = c.name)
    (filled : Text.blank c.response = false) : (s.put c).Consistent where
  ids := keyed.ids
  keys := keyed.keys
  words := forall_mem_put h.words word
  low := forall_mem_put h.low low
  filled := forall_mem_put h.filled filled
  settings := h.settings

theorem Consistent.sublist {s t : Contents} (h : s.Consistent)
    (fewer : t.commands.Sublist s.commands) (settings : t.prefixes = s.prefixes) :
    t.Consistent where
  ids := h.ids.sublist (fewer.map _)
  keys := h.keys.sublist (fewer.map _)
  words c hc := h.words c (fewer.subset hc)
  low c hc := h.low c (fewer.subset hc)
  filled c hc := h.filled c (fewer.subset hc)
  settings := settings ▸ h.settings

/-- Every call keeps the contents consistent. -/
theorem Consistent.change {s t : Contents} {c : Store.Call} (h : s.Consistent)
    (change : s.Change c t) : t.Consistent := by
  have keyed := h.keyed.change change
  cases change with
  | kept => exact h
  | added word filled => exact h.put keyed word (Text.lower_lower _) filled
  | @edited _ _ _ _ old found filled =>
    have mem := (mem_of_findByIdentifier found).1
    exact h.put keyed (h.words old mem) (h.low old mem) filled
  | removed => exact h.sublist List.filter_sublist rfl
  | prefixed =>
    exact ⟨h.ids, h.keys, h.words, h.low, h.filled, keys_putPrefix h.settings⟩

/-! ### What is found after a change -/

/-- Where two contents hold the same commands under a key, they find the same. -/
theorem Consistent.find_eq {s t : Contents} (hs : s.Consistent) (ht : t.Consistent) {g : Int}
    {name : Text} (alike : ∀ d, d.key = (g, key name) → (d ∈ t.commands ↔ d ∈ s.commands)) :
    t.find g name = s.find g name := by
  apply Option.ext
  intro d
  rw [ht.find_iff, hs.find_iff]
  exact and_congr_left fun ⟨server, named⟩ => alike d (Prod.ext server named)

/-- Putting a command under its key changes what is found under that key and nothing else. -/
theorem Consistent.find_put {s : Contents} (h : s.Consistent) {c : Command}
    (after : (s.put c).Consistent)
    (same : ∀ d ∈ s.commands, d.id = c.id → d.key = c.key) (g : Int) (name : Text) :
    (s.put c).find g name = if g = c.server ∧ key name = c.name then some c else s.find g name := by
  split
  · rename_i here
    exact after.find_iff.mpr ⟨mem_put.mpr (.inl rfl), here.1.symm, here.2.symm⟩
  · rename_i elsewhere
    refine h.find_eq after fun d keyed => ?_
    have other : d.key ≠ c.key := fun same => elsewhere (Prod.mk.inj (keyed.symm.trans same))
    rw [mem_put]
    constructor
    · rintro (rfl | ⟨mem, -⟩)
      · exact absurd rfl other
      · exact mem
    · exact fun mem => .inr ⟨mem, fun sameId => other (same d mem sameId)⟩

/-- Removing a command empties its key and changes nothing else. -/
theorem Consistent.find_removed {s : Contents} (h : s.Consistent) {c : Command}
    (mem : c ∈ s.commands) (g : Int) (name : Text) :
    find { s with commands := s.commands.filter fun d => d.id != c.id } g name =
      if g = c.server ∧ key name = c.name then none else s.find g name := by
  have after := h.sublist (t := { s with commands := s.commands.filter fun d => d.id != c.id })
    List.filter_sublist rfl
  have left (d : Command) : d ∈ s.commands.filter (fun d => d.id != c.id) ↔
      d ∈ s.commands ∧ d ≠ c := by
    rw [List.mem_filter, bne_iff_ne]
    refine and_congr_right fun hd => ⟨fun ne same => ne (same ▸ rfl), fun ne sameId => ne ?_⟩
    exact eq_of_id_eq h.ids hd mem sameId
  split
  · rename_i here
    refine Option.eq_none_iff_forall_ne_some.mpr fun d found => ?_
    obtain ⟨hd, server, named⟩ := after.find_iff.mp found
    obtain ⟨hd, other⟩ := (left d).mp hd
    exact other (h.keyed.eq_of_key_eq hd mem (by simp [Command.key, server, named, here]))
  · rename_i elsewhere
    refine h.find_eq after fun d keyed => (left d).trans (and_iff_left ?_)
    rintro rfl
    exact elsewhere (Prod.mk.inj keyed.symm)

/-! ### What a change that is made does -/

section Made

variable {s t : Contents} {g : Int} {c : Command} {now : Instant}

theorem add_eq_ok {name response id : Text} {user : Option Int}
    (h : s.add g name response user id now = .ok (c, t)) :
    isWord (key name) = true ∧ Text.blank response = false ∧ s.find g (key name) = none ∧
      c = ⟨id, g, key name, response, user, some now, some now⟩ ∧ t = s.put c := by
  unfold add at h
  split at h
  · cases h
  split at h
  · cases h
  split at h
  · cases h
  · rename_i word filled free
    cases h
    exact ⟨by simpa using word, by simpa using filled, by simpa using free, rfl, rfl⟩

theorem edit_eq_ok {identifier response : Text}
    (h : s.edit g identifier response now = .ok (c, t)) :
    ∃ old, s.findByIdentifier g identifier = some old ∧ Text.blank response = false ∧
      c = { old with response, updatedAt := some now } ∧ t = s.put c := by
  unfold edit at h
  split at h
  · cases h
  · rename_i old found
    split at h
    · cases h
    · rename_i filled
      cases h
      exact ⟨old, found, by simpa using filled, rfl, rfl⟩

theorem remove_eq_ok {identifier : Text} (h : s.remove g identifier = .ok (c, t)) :
    s.findByIdentifier g identifier = some c ∧
      t = { s with commands := s.commands.filter fun d => d.id != c.id } := by
  unfold remove at h
  split at h
  · cases h
  · rename_i found
    cases h
    exact ⟨found, rfl⟩

theorem setPrefix_eq_ok {own cleaned : Text} (h : s.setPrefix g own = .ok (cleaned, t)) :
    cleaned = Text.strip own ∧ isWord cleaned = true ∧
      t = { s with prefixes := putPrefix g (some cleaned) s.prefixes } := by
  simp only [setPrefix] at h
  split at h
  · cases h
  · rename_i word
    cases h
    exact ⟨rfl, by simpa using word, rfl⟩

/-- Adding fails where the name is not one word, the response is blank or the key is taken, and
nowhere else. -/
theorem add_eq_error_iff {name response id : Text} {user : Option Int} :
    (∃ e, s.add g name response user id now = .error e) ↔
      isWord (Text.strip name) = false ∨ Text.blank response = true ∨
        (s.find g name).isSome = true := by
  rw [← isWord_key]
  cases word : isWord (key name) with
  | false => simp [add, word]
  | true =>
    have same : s.find g (key name) = s.find g name := by rw [find, find, key_key word]
    cases blank : Text.blank response with
    | true => simp [add, word, blank]
    | false =>
      cases found : s.find g name with
      | none => simp [add, word, blank, same, found]
      | some d => simp [add, word, blank, same, found]

end Made

/-! ### Reading the file again -/

theorem map_filterMap_sublist {α β γ : Type} {f : α → Option β} {key : α → γ} {key' : β → γ}
    (same : ∀ a b, f a = some b → key' b = key a) (l : List α) :
    ((l.filterMap f).map key').Sublist (l.map key) := by
  induction l with
  | nil => exact List.Sublist.refl _
  | cons a l ih =>
    cases h : f a with
    | none => simpa [h] using ih.cons (key a)
    | some b => simpa [h, same a b h] using ih.cons_cons (key a)

theorem reread_keys (s : Contents) :
    (s.reread.commands.map Command.key).Sublist (s.commands.map Command.key) :=
  map_filterMap_sublist (fun c d h => by rw [Command.reread_cases h]; rfl) _

theorem reread_ids (s : Contents) : s.reread.ids.Sublist s.ids :=
  map_filterMap_sublist (fun c d h => by rw [Command.reread_cases h]) _

theorem Consistent.reread {s : Contents} (h : s.Consistent) : s.reread.Consistent := by
  have origin : ∀ d ∈ s.reread.commands, ∃ c ∈ s.commands, d.name = c.name ∧
      d.response = c.response := by
    intro d hd
    obtain ⟨c, hc, again⟩ := List.mem_filterMap.mp hd
    exact ⟨c, hc, by rw [Command.reread_cases again], by rw [Command.reread_cases again]⟩
  refine ⟨h.ids.sublist s.reread_ids, h.keys.sublist s.reread_keys, ?_, ?_, ?_, ?_⟩
  · intro d hd
    obtain ⟨c, hc, named, -⟩ := origin d hd
    exact named ▸ h.words c hc
  · intro d hd
    obtain ⟨c, hc, named, -⟩ := origin d hd
    exact named ▸ h.low c hc
  · intro d hd
    obtain ⟨c, hc, -, same⟩ := origin d hd
    exact same ▸ h.filled c hc
  · refine h.settings.sublist (map_filterMap_sublist (fun setting again same => ?_) _)
    unfold rereadSetting at same
    split at same
    · cases same
      rfl
    · cases same

end Contents

namespace Store

/-- The states that a store without a file reaches by calls, refused ones among them, and by reading
its own file. The ids that have been handed out are listed, and no id is handed out twice. -/
inductive Reached : List Text → Store → Prop
  | start : Reached [] ⟨.empty, none⟩
  | call {used : List Text} {s : Store} (c : Call) (before : Reached used s)
      (fresh : ∀ id ∈ c.newId?, id ∉ used) : Reached (c.newId?.toList ++ used) (s.answer c).2
  | reload {used : List Text} {s t : Store} {warnings : List Warning} (before : Reached used s)
      (read : load s.file = .ok (t, warnings)) : Reached used t

/-- The file of a store holds consistent contents, if there is one, and no other ids than the store
has handed out. -/
structure Sound (used : List Text) (s : Store) : Prop where
  contents : s.contents.Consistent
  ids : s.contents.ids ⊆ used
  file : s.file = none ∨ ∃ saved : Contents,
    s.file = some saved.fileText ∧ saved.Consistent ∧ saved.ids ⊆ used

theorem Sound.call {used : List Text} {s : Store} (h : s.Sound used) (c : Call) :
    (s.answer c).2.Sound (c.newId?.toList ++ used) := by
  have change := Contents.answer_change s.contents c
  rw [← (answer_eq s c).2] at change
  have contents := h.contents.change change
  have ids : (s.answer c).2.contents.ids ⊆ c.newId?.toList ++ used := by
    intro id hid
    rcases List.mem_append.mp ((Contents.ids_change change).subset hid) with old | new
    · exact List.mem_append_right _ (h.ids old)
    · exact List.mem_append_left _ new
  refine ⟨contents, ids, ?_⟩
  rcases answer_cases s c with ⟨-, written⟩ | ⟨-, same⟩
  · exact .inr ⟨_, written, contents, ids⟩
  · rw [same]
    refine h.file.imp_right fun ⟨saved, file, consistent, known⟩ => ⟨saved, file, consistent, ?_⟩
    exact fun id hid => List.mem_append_right _ (known hid)

theorem Sound.reload {used : List Text} {s t : Store} {warnings : List Warning} (h : s.Sound used)
    (read : load s.file = .ok (t, warnings)) : t.Sound used := by
  rcases h.file with none | ⟨saved, file, consistent, known⟩
  · rw [none] at read
    cases read
    exact ⟨Contents.consistent_empty, List.nil_subset _, .inl rfl⟩
  · rw [file] at read
    -- An integer that is too long to be read stops the loading, and then no store is reached.
    have excused : ∀ c ∈ saved.commands, ∀ n ∈ c.integers, ¬ Numeral.Short n → True :=
      fun _ _ _ _ _ => trivial
    have again :=
      Contents.ofFile_fileText excused consistent.ids consistent.low consistent.settings
    rcases again with ⟨noted, same⟩ | ⟨-, stop⟩
    · rw [load, same] at read
      cases read
      exact ⟨consistent.reread, fun id hid => known (saved.reread_ids.subset hid),
        .inr ⟨saved, rfl, consistent, known⟩⟩
    · rw [load, stop] at read
      cases read

theorem Reached.sound {used : List Text} {s : Store} (h : Reached used s) : s.Sound used := by
  induction h with
  | start => exact ⟨Contents.consistent_empty, List.nil_subset _, .inl rfl⟩
  | call c _ _ ih => exact ih.call c
  | reload _ read ih => exact ih.reload read

theorem change_eq_ok {s t : Store} {f : Contents → Except StoreError (α × Contents)} {a : α}
    (h : s.change f = .ok (a, t)) : f s.contents = .ok (a, t.contents) := by
  unfold change at h
  cases made : f s.contents with
  | error e => simp [made, Except.map] at h
  | ok r =>
    rw [made] at h
    cases h
    rfl

theorem change_eq_error_iff {s : Store} {f : Contents → Except StoreError (α × Contents)}
    {e : StoreError} : s.change f = .error e ↔ f s.contents = .error e := by
  unfold change
  cases f s.contents <;> simp [Except.map]

def Answer.isRefusal : Answer → Bool
  | .command (.error _) | .ownPrefix (.error _) => true
  | _ => false

theorem not_isMade_of_isRefusal {a : Answer} (h : a.isRefusal = true) : a.isMade = false := by
  unfold Answer.isRefusal at h
  split at h
  · rfl
  · rfl
  · cases h

/-- A refused call leaves the store, and with it the file, as it is. -/
theorem answer_of_refusal {s : Store} {c : Call} (refusal : (s.answer c).1.isRefusal = true) :
    (s.answer c).2 = s := by
  rcases answer_cases s c with ⟨made, -⟩ | ⟨-, same⟩
  · rw [not_isMade_of_isRefusal refusal] at made
    cases made
  · exact same

/-- A store as a map from servers and names to commands. `used` are the ids that have been handed
out. -/
structure ActsAsMap (used : List Text) (s : Store) : Prop where
  identified : ∀ id c, s.contents.commands.find? (fun d => d.id == id) = some c ↔
    c ∈ s.contents.commands ∧ c.id = id
  found : ∀ g name c, s.contents.find g name = some c ↔
    c ∈ s.contents.commands ∧ c.server = g ∧ c.name = Contents.key name
  refused : ∀ g name response user id now,
    (∃ e, s.add g name response user id now = .error e) ↔
      Contents.isWord (Text.strip name) = false ∨ Text.blank response = true ∨
        (s.contents.find g name).isSome = true
  added : ∀ g name response user id now c t, id ∉ used →
    s.add g name response user id now = .ok (c, t) →
      c = ⟨id, g, Contents.key name, response, user, some now, some now⟩ ∧
        ∀ h other, t.contents.find h other =
          if h = g ∧ Contents.key other = Contents.key name then some c
          else s.contents.find h other
  edited : ∀ g identifier response now c t, s.edit g identifier response now = .ok (c, t) →
    ∃ old, s.contents.findByIdentifier g identifier = some old ∧
      c = { old with response, updatedAt := some now } ∧
      ∀ h other, t.contents.find h other =
        if h = g ∧ Contents.key other = old.name then some c else s.contents.find h other
  removed : ∀ g identifier c t, s.remove g identifier = .ok (c, t) →
    s.contents.findByIdentifier g identifier = some c ∧
      ∀ h other, t.contents.find h other =
        if h = g ∧ Contents.key other = c.name then none else s.contents.find h other
  prefixed : ∀ g own cleaned t, s.setPrefix g own = .ok (cleaned, t) →
    ∀ h other, t.contents.find h other = s.contents.find h other
  kept : ∀ c, (s.answer c).1.isRefusal = true → (s.answer c).2 = s

theorem Sound.actsAsMap {used : List Text} {s : Store} (h : s.Sound used) :
    s.ActsAsMap used where
  identified _ _ := h.contents.find_id_iff
  found _ _ _ := h.contents.find_iff
  refused _ _ _ _ _ _ := by
    simp only [add, change_eq_error_iff]
    exact Contents.add_eq_error_iff
  added g name response user id now c t new made := by
    obtain ⟨word, filled, free, rfl, after⟩ := Contents.add_eq_ok (change_eq_ok made)
    have fresh : id ∉ s.contents.ids := fun old => new (h.ids old)
    refine ⟨rfl, fun h' other => ?_⟩
    rw [after]
    exact h.contents.find_put (h.contents.change (.added word filled free))
      (fun d hd same => absurd (Contents.mem_ids.mpr ⟨d, hd, same⟩) fresh) h' other
  edited g identifier response now c t made := by
    obtain ⟨old, found, filled, rfl, after⟩ := Contents.edit_eq_ok (change_eq_ok made)
    obtain ⟨mem, rfl⟩ := Contents.mem_of_findByIdentifier found
    refine ⟨old, found, rfl, fun h' other => ?_⟩
    rw [after]
    exact h.contents.find_put (h.contents.change (.edited found filled))
      (fun d hd same => by rw [Contents.eq_of_id_eq h.contents.ids hd mem same]; rfl) h' other
  removed g identifier c t made := by
    obtain ⟨found, after⟩ := Contents.remove_eq_ok (change_eq_ok made)
    obtain ⟨mem, rfl⟩ := Contents.mem_of_findByIdentifier found
    refine ⟨found, fun h' other => ?_⟩
    rw [after]
    exact h.contents.find_removed mem h' other
  prefixed g own cleaned t made h' other := by
    obtain ⟨-, -, after⟩ := Contents.setPrefix_eq_ok (change_eq_ok made)
    rw [after]
    rfl
  kept _ refusal := answer_of_refusal refusal

/-- In every state that a store reaches, ids and keys are distinct, names are words in lower case
and responses are not blank, so that the store is a map from servers and names to commands. -/
theorem reached_map {used : List Text} {s : Store} (h : Reached used s) :
    s.contents.Consistent ∧ s.ActsAsMap used :=
  ⟨h.sound.contents, h.sound.actsAsMap⟩

/-- A store in which one command has been added. -/
def greeted : Store :=
  (answer ⟨.empty, none⟩ (.add 1 " Greet".toList "hi".toList none "a1".toList
    ⟨2024, 1, 2, 3, 4, 5, 0, some 0⟩)).2

theorem greeted_map :
    Reached ["a1".toList] greeted ∧ greeted.contents.Consistent ∧
      ∀ response user id now,
        ∃ e, greeted.add 1 "GREET".toList response user id now = .error e := by
  have reached : Reached ["a1".toList] greeted :=
    .call (.add 1 " Greet".toList "hi".toList none "a1".toList ⟨2024, 1, 2, 3, 4, 5, 0, some 0⟩)
      .start (by simp)
  refine ⟨reached, (reached_map reached).1, fun response user id now => ?_⟩
  exact ((reached_map reached).2.refused 1 "GREET".toList response user id now).mpr
    (.inr (.inr rfl))

end Store

end ChatCommands
