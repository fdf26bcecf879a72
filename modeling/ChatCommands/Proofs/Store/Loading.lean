import Mathlib
import ChatCommands.Proofs.Result
import ChatCommands.Proofs.Store.KeyMap

/-!
What a store is loaded with.

Of the entries in a file those that are well formed count, in the order of the file, and of several
with one id or one server the last. Loading stops for four reasons only, and then there is no
store: an integer that is too long, a file or a list of commands of another shape, and an infinite
number where an integer is wanted.
-/

namespace ChatCommands

/-! ### Entries of a list -/

section Latest

variable {α κ : Type} [DecidableEq κ] (key : α → κ)

/-- The last of the given values for every key, in the place where the key was first given. -/
structure Latest (given kept : List α) : Prop where
  order : kept.map key = (given.map key).eraseDups
  last : ∀ a ∈ kept, ∃ before after, given = before ++ a :: after ∧ ∀ b ∈ after, key b ≠ key a

/-- A value, or the one that comes for its key. -/
def overwrite (new old : α) : α :=
  if key old = key new then new else old

variable {key} {given kept : List α}

theorem Latest.mem_map_iff (h : Latest key given kept) {k : κ} :
    k ∈ kept.map key ↔ k ∈ given.map key := by
  rw [h.order, List.mem_eraseDups]

theorem key_overwrite (new old : α) : key (overwrite key new old) = key old := by
  unfold overwrite
  split <;> simp_all

theorem eraseDups_known {k : κ} {keys : List κ} (known : k ∈ keys) :
    (keys ++ [k]).eraseDups = keys.eraseDups := by
  simp [List.eraseDups_append, List.removeAll, known]

theorem eraseDups_fresh {k : κ} {keys : List κ} (fresh : k ∉ keys) :
    (keys ++ [k]).eraseDups = keys.eraseDups ++ [k] := by
  simp [List.eraseDups_append, List.removeAll, fresh, List.eraseDups_cons]

theorem Latest.still (h : Latest key given kept) {a new : α} (mem : a ∈ kept)
    (other : key a ≠ key new) :
    ∃ before after, given ++ [new] = before ++ a :: after ∧ ∀ b ∈ after, key b ≠ key a := by
  obtain ⟨before, after, rfl, later⟩ := h.last a mem
  refine ⟨before, after ++ [new], by simp, fun b hb => ?_⟩
  rcases List.mem_append.mp hb with old | last
  · exact later b old
  · exact List.mem_singleton.mp last ▸ other.symm

theorem Latest.known (h : Latest key given kept) {new : α} (known : key new ∈ kept.map key) :
    Latest key (given ++ [new]) (kept.map (overwrite key new)) := by
  constructor
  · rw [List.map_map, List.map_append, List.map_singleton, eraseDups_known (h.mem_map_iff.mp known),
      ← h.order]
    exact List.map_congr_left fun old _ => key_overwrite new old
  · intro a ha
    obtain ⟨old, mem, rfl⟩ := List.mem_map.mp ha
    unfold overwrite
    split
    · exact ⟨given, [], rfl, nofun⟩
    · exact h.still mem ‹_›

theorem Latest.fresh (h : Latest key given kept) {new : α} (fresh : key new ∉ kept.map key) :
    Latest key (given ++ [new]) (kept ++ [new]) := by
  constructor
  · rw [List.map_append, List.map_append, List.map_singleton,
      eraseDups_fresh fun old => fresh (h.mem_map_iff.mpr old), ← h.order]
  · intro a ha
    rcases List.mem_append.mp ha with mem | last
    · exact h.still mem fun same => fresh (same ▸ List.mem_map_of_mem mem)
    · cases List.mem_singleton.mp last
      exact ⟨given, [], rfl, nofun⟩

end Latest

/-! ### Commands -/

/-- Whether a value is an infinite number, which no integer is near. -/
def Json.Infinite (j : Json) : Prop :=
  ∃ negative, j = .scalar (.float (.infinite negative))

theorem Json.toInteger_escapes_iff {j : Json} {c : Crash} :
    j.toInteger = .error c ∧ c.escapes = true ↔ j.Infinite ∧ c = .infiniteInteger := by
  constructor
  · rintro ⟨stop, escape⟩
    cases j with
    | array | object => cases stop; cases escape
    | scalar s =>
      change s.toInteger = .error c at stop
      unfold Scalar.toInteger at stop
      split at stop
      · cases stop
      · cases stop
      · cases stop
        exact ⟨⟨_, rfl⟩, rfl⟩
      · cases stop
        cases escape
      · cases stop
      · split at stop
        · cases stop
        · cases stop
          cases escape
      · cases stop
        cases escape
  · rintro ⟨⟨negative, rfl⟩, rfl⟩
    exact ⟨rfl, rfl⟩

namespace Command

/-- Whether a value dates something: what counts as false gives no date, anything else has to be
shown as one. -/
def Dates (j : Json) : Option Instant → Prop
  | none => j.truth = false
  | some i => j.truth = true ∧ Instant.read j.display = some i

/-- Whether a value names a user: null is nobody, anything else has to stand for an integer. -/
def Names (j : Json) : Option Int → Prop
  | none => j = .null
  | some n => j.toInteger = .ok n

/-- The fields of an object that is well formed as a command. -/
structure Written (fields : List (Text × Json)) (c : Command) : Prop where
  id : (Json.field? "id".toList fields).map Json.display = some c.id
  server : ∃ j, Json.field? "guild_id".toList fields = some j ∧ j.toInteger = .ok c.server
  name : (Json.field? "name".toList fields).map (fun j => Text.lower j.display) = some c.name
  response : c.response = ((Json.field? "response".toList fields).map Json.display).getD []
  createdBy : Names (optional "created_by" fields) c.createdBy
  createdAt : Dates (optional "created_at" fields) c.createdAt
  updatedAt : Dates (optional "updated_at" fields) c.updatedAt

/-- The fields of an object in which an infinite number stands for an integer, and nothing that is
read before it is malformed. -/
inductive Overflows (fields : List (Text × Json)) : Prop
  | server {id j : Json} (there : Json.field? "id".toList fields = some id)
      (found : Json.field? "guild_id".toList fields = some j) (infinite : j.Infinite)
  | user {id j name : Json} {g : Int} (there : Json.field? "id".toList fields = some id)
      (found : Json.field? "guild_id".toList fields = some j) (whole : j.toInteger = .ok g)
      (named : Json.field? "name".toList fields = some name)
      (infinite : (optional "created_by" fields).Infinite)

theorem required_eq_ok_iff {name : String} {fields : List (Text × Json)} {j : Json} :
    required name fields = .ok j ↔ Json.field? name.toList fields = some j := by
  unfold required
  split <;> simp_all

theorem userOf_eq_ok_iff {j : Json} {user : Option Int} :
    userOf j = .ok user ↔ Names j user := by
  unfold userOf
  split
  · cases user with
    | none => exact iff_of_true rfl rfl
    | some n => exact iff_of_false nofun nofun
  · rename_i other
    rw [map_eq_ok]
    cases user with
    | none => exact iff_of_false (fun ⟨_, _, wrong⟩ => nomatch wrong) fun null => other null
    | some n => exact ⟨fun ⟨_, whole, same⟩ => Option.some.inj same ▸ whole, fun h => ⟨n, h, rfl⟩⟩

theorem instantOf_eq_ok_iff {j : Json} {time : Option Instant} :
    instantOf j = .ok time ↔ Dates j time := by
  unfold instantOf
  cases truth : j.truth with
  | false => cases time <;> simp [Dates, truth]
  | true =>
    cases read : Instant.read j.display <;> cases time <;> simp [Dates, truth, read]

theorem ofFields_eq_ok_iff {fields : List (Text × Json)} {c : Command} :
    ofFields fields = .ok c ↔ Written fields c := by
  constructor
  · intro h
    obtain ⟨id, there, h⟩ := bind_eq_ok.mp h
    obtain ⟨guild, found, h⟩ := bind_eq_ok.mp h
    obtain ⟨server, whole, h⟩ := bind_eq_ok.mp h
    obtain ⟨name, named, h⟩ := bind_eq_ok.mp h
    obtain ⟨createdBy, user, h⟩ := bind_eq_ok.mp h
    obtain ⟨createdAt, created, h⟩ := bind_eq_ok.mp h
    obtain ⟨updatedAt, updated, h⟩ := bind_eq_ok.mp h
    cases h
    refine ⟨?_, ⟨guild, required_eq_ok_iff.mp found, whole⟩, ?_, ?_, userOf_eq_ok_iff.mp user,
      instantOf_eq_ok_iff.mp created, instantOf_eq_ok_iff.mp updated⟩
    · rw [required_eq_ok_iff.mp there]
      rfl
    · rw [required_eq_ok_iff.mp named]
      rfl
    · cases Json.field? "response".toList fields <;> rfl
  · intro h
    obtain ⟨id, there, shown⟩ := Option.map_eq_some_iff.mp h.id
    obtain ⟨guild, found, whole⟩ := h.server
    obtain ⟨name, named, low⟩ := Option.map_eq_some_iff.mp h.name
    have response : ((Json.field? "response".toList fields).getD (.text [])).display =
        c.response := by
      rw [h.response]
      cases Json.field? "response".toList fields <;> rfl
    simp only [ofFields, required_eq_ok_iff.mpr there, required_eq_ok_iff.mpr found, whole,
      required_eq_ok_iff.mpr named, userOf_eq_ok_iff.mpr h.createdBy,
      instantOf_eq_ok_iff.mpr h.createdAt, instantOf_eq_ok_iff.mpr h.updatedAt, bind, Except.bind,
      shown, low, response]
    rfl

theorem not_escapes_required {name : String} {fields : List (Text × Json)} {c : Crash}
    (h : required name fields = .error c) : c.escapes = false := by
  unfold required at h
  split at h
  · cases h
  · cases h
    rfl

theorem not_escapes_instantOf {j : Json} {c : Crash} (h : instantOf j = .error c) :
    c.escapes = false := by
  unfold instantOf at h
  split at h
  · cases h
  · split at h
    · cases h
    · cases h
      rfl

theorem userOf_escapes_iff {j : Json} {c : Crash} :
    userOf j = .error c ∧ c.escapes = true ↔ j.Infinite ∧ c = .infiniteInteger := by
  unfold userOf
  split
  · exact iff_of_false (fun h => nomatch h.1) fun h => nomatch h.1
  · rw [map_eq_error]
    exact Json.toInteger_escapes_iff

theorem ofFields_escapes_iff {fields : List (Text × Json)} {c : Crash} :
    ofFields fields = .error c ∧ c.escapes = true ↔ Overflows fields ∧ c = .infiniteInteger := by
  have calm {r : Prop} (h : c.escapes = false) (escape : c.escapes = true) : r :=
    absurd (h.symm.trans escape) nofun
  constructor
  -- The fields are read in order, so where one overflows the ones before it were well formed.
  · rintro ⟨h, escape⟩
    rcases bind_eq_error.mp h with stop | ⟨id, there, h⟩
    · exact calm (not_escapes_required stop) escape
    rcases bind_eq_error.mp h with stop | ⟨guild, found, h⟩
    · exact calm (not_escapes_required stop) escape
    rcases bind_eq_error.mp h with stop | ⟨server, whole, h⟩
    · obtain ⟨infinite, same⟩ := Json.toInteger_escapes_iff.mp ⟨stop, escape⟩
      exact ⟨.server (required_eq_ok_iff.mp there) (required_eq_ok_iff.mp found) infinite, same⟩
    rcases bind_eq_error.mp h with stop | ⟨name, named, h⟩
    · exact calm (not_escapes_required stop) escape
    rcases bind_eq_error.mp h with stop | ⟨createdBy, -, h⟩
    · obtain ⟨infinite, same⟩ := userOf_escapes_iff.mp ⟨stop, escape⟩
      exact ⟨.user (required_eq_ok_iff.mp there) (required_eq_ok_iff.mp found) whole
        (required_eq_ok_iff.mp named) infinite, same⟩
    rcases bind_eq_error.mp h with stop | ⟨createdAt, -, h⟩
    · exact calm (not_escapes_instantOf stop) escape
    rcases bind_eq_error.mp h with stop | ⟨updatedAt, -, h⟩
    · exact calm (not_escapes_instantOf stop) escape
    · cases h
  · rintro ⟨overflow, rfl⟩
    refine ⟨?_, rfl⟩
    cases overflow with
    | server there found infinite =>
      have stop := (Json.toInteger_escapes_iff.mpr ⟨infinite, rfl⟩).1
      simp only [ofFields, required_eq_ok_iff.mpr there, required_eq_ok_iff.mpr found, stop, bind,
        Except.bind]
    | user there found whole named infinite =>
      have stop := (userOf_escapes_iff.mpr ⟨infinite, rfl⟩).1
      simp only [ofFields, required_eq_ok_iff.mpr there, required_eq_ok_iff.mpr found, whole,
        required_eq_ok_iff.mpr named, stop, bind, Except.bind]

/-- Whether an entry of the list of commands is well formed, and which command it is then. -/
def Entry (j : Json) (c : Command) : Prop :=
  ∃ fields, j = .object fields ∧ Written fields c

def Blocks (j : Json) : Prop :=
  ∃ fields, j = .object fields ∧ Overflows fields

end Command

namespace Contents

theorem readCommand_cases (s : Contents) {j : Json} (sound : ¬ Command.Blocks j) :
    (∃ c, Command.Entry j c ∧ readCommand s j = .ok (s.put c, [])) ∨
      (∀ c, ¬ Command.Entry j c) ∧ ∃ warnings, readCommand s j = .ok (s, warnings) := by
  cases j with
  | scalar | array => exact .inr ⟨fun c ⟨_, shape, _⟩ => (nomatch shape), [], rfl⟩
  | object fields =>
    cases made : Command.ofFields fields with
    | ok c =>
      refine .inl ⟨c, ⟨fields, rfl, Command.ofFields_eq_ok_iff.mp made⟩, ?_⟩
      simp only [readCommand, made]
    | error e =>
      have calm : e.escapes = false := by
        rw [Bool.eq_false_iff]
        exact fun escape => sound ⟨fields, rfl, (Command.ofFields_escapes_iff.mp ⟨made, escape⟩).1⟩
      refine .inr ⟨?_, [.malformedCommand], ?_⟩
      · rintro c ⟨_, ⟨⟩, written⟩
        cases made.symm.trans (Command.ofFields_eq_ok_iff.mpr written)
      · simp only [readCommand, made, calm]
        rfl

theorem readCommand_blocked (s : Contents) {j : Json} (blocks : Command.Blocks j) :
    readCommand s j = .error .infiniteInteger := by
  obtain ⟨fields, rfl, overflow⟩ := blocks
  obtain ⟨stop, escape⟩ := Command.ofFields_escapes_iff.mpr ⟨overflow, rfl⟩
  simp only [readCommand, stop, escape, if_true]

theorem readCommands_blocked {entries : List Json} (blocked : ∃ j ∈ entries, Command.Blocks j)
    (s : Contents) : readCommands s entries = .error .infiniteInteger := by
  induction entries generalizing s with
  | nil => exact absurd blocked (by simp)
  | cons j rest ih =>
    by_cases here : Command.Blocks j
    · simp only [readCommands, readCommand_blocked s here, bind, Except.bind]
    · obtain ⟨k, mem, blocks⟩ := blocked
      rcases List.mem_cons.mp mem with rfl | mem
      · exact absurd blocks here
      · rcases readCommand_cases s here with ⟨c, -, read⟩ | ⟨-, warnings, read⟩ <;>
        simp only [readCommands, read, ih ⟨k, mem, blocks⟩, bind, Except.bind]

/-! ### Prefixes -/

/-- The items of a list, none where a value is no list. -/
def itemsOf : Option Json → List Json
  | some (.array items) => items
  | _ => []

/-- Whether a value is there that is no list, and has no items to pass over either. -/
def Unlisted (j : Option Json) : Prop :=
  ∃ x, j = some (.scalar x) ∧ ∀ word, x ≠ .text word

/-- The reasons for which the text of a file stops the loading. -/
inductive Stops (t : Text) : Crash → Prop
  | digits (read : Json.read t = .error .tooManyDigits) : Stops t .tooManyDigits
  | shape {j : Json} (read : Json.read t = .ok j) (other : ∀ fields, j ≠ .object fields) :
      Stops t .missingAttribute
  | commands {fields : List (Text × Json)} (read : Json.read t = .ok (.object fields))
      (unlisted : Unlisted (Json.field? "commands".toList fields)) : Stops t .wrongKind
  | entry {fields : List (Text × Json)} {j : Json} (read : Json.read t = .ok (.object fields))
      (mem : j ∈ itemsOf (Json.field? "commands".toList fields)) (blocks : Command.Blocks j) :
      Stops t .infiniteInteger

theorem entriesOf_listed {j : Option Json} (listed : ¬ Unlisted j) :
    entriesOf j = .ok (itemsOf j) := by
  rcases j with _ | x | items | fields
  · rfl
  · cases x with
    | text => rfl
    | null | bool | int | float => exact absurd ⟨_, rfl, nofun⟩ listed
  · rfl
  · rfl

theorem entriesOf_unlisted {j : Option Json} (unlisted : Unlisted j) :
    entriesOf j = .error .wrongKind := by
  obtain ⟨x, rfl, other⟩ := unlisted
  cases x with
  | text word => exact absurd rfl (other word)
  | null | bool | int | float => rfl

theorem ofJson_unlisted {fields : List (Text × Json)}
    (unlisted : Unlisted (Json.field? "commands".toList fields)) :
    ofJson (.object fields) = .error .wrongKind := by
  simp only [ofJson, entriesOf_unlisted unlisted, bind, Except.bind]

theorem ofJson_blocked {fields : List (Text × Json)} {j : Json}
    (mem : j ∈ itemsOf (Json.field? "commands".toList fields)) (blocks : Command.Blocks j) :
    ofJson (.object fields) = .error .infiniteInteger := by
  have listed : ¬ Unlisted (Json.field? "commands".toList fields) := by
    rintro ⟨x, found, -⟩
    rw [found] at mem
    cases mem
  simp only [ofJson, entriesOf_listed listed, readCommands_blocked ⟨j, mem, blocks⟩, bind,
    Except.bind]

theorem Stops.ofFile {t : Text} {c : Crash} (h : Stops t c) : ofFile (some t) = .error c := by
  cases h with
  | digits read => rw [Contents.ofFile, read]
  | @shape j read other =>
    rw [Contents.ofFile, read]
    cases j with
    | scalar | array => rfl
    | object fields => exact absurd rfl (other fields)
  | commands read unlisted =>
    rw [Contents.ofFile, read]
    exact ofJson_unlisted unlisted
  | entry read mem blocks =>
    rw [Contents.ofFile, read]
    exact ofJson_blocked mem blocks

end Contents

end ChatCommands
