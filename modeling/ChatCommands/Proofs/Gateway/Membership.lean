import Mathlib.Data.List.Nodup
import ChatCommands.Proofs.Gateway.Reading
import ChatCommands.Proofs.Template.Marking
import ChatCommands.Resolution.Gate
import ChatCommands.Value.Access

/-!
What the permission gates tell about the member who triggers a command.

A gate takes the first role or text channel of the server that bears a name, and compares ids. So
it tells whether the member has that one, and not whether the member has another of the same name.
-/

namespace ChatCommands

namespace Attribute

/-- Whether each of some objects has an integer of its own as id. -/
structure Identified (l : List Attribute) : Prop where
  integer : ∀ a ∈ l, ∃ n : Int, a.get? "id" = some (.scalar (.int n))
  distinct : (l.map (get? "id")).Nodup

theorem Identified.eq_of_id {l : List Attribute} (h : Identified l) {a b : Attribute}
    (ha : a ∈ l) (hb : b ∈ l) (same : a.get? "id" = b.get? "id") : a = b :=
  List.inj_on_of_nodup_map h.distinct ha hb same

end Attribute

/-- Whether a role other than the common one bears a name. -/
def Role.bears (name : Text) (r : Attribute) : Bool :=
  !isCommon r && (r.getD "name" .null).toScalar.same (.text name)

/-- Whether a channel is a text channel that bears a name. -/
def Channel.bears (name : Text) (c : Attribute) : Bool :=
  (Channel.ofAttributes c).toOption.any fun d => d.name = name ∧ d.type = "text".toList

/-- Whether a message comes from a channel of a server and from a member with roles of it. -/
structure Incoming.Placed (m : Incoming) (server : Attribute) : Prop where
  inside : m.server = some server
  roles : ∀ r ∈ m.author.parts "roles", r ∈ server.parts "roles"
  channel : m.channel ∈ server.parts "channels"
  roleIds : Attribute.Identified (server.parts "roles")
  channelIds : Attribute.Identified (server.parts "channels")

/-- Whether one gate lets pass and the other denies who meets a condition, and the other way about
who does not. -/
structure Gate.Decide (t : Text) (s : Snapshot) (met : Prop) : Prop where
  inside : met → require t s = .ok () ∧ ∃ d, exclude t s = .error (.denied d)
  outside : ¬ met → (∃ d, require t s = .error (.denied d)) ∧ exclude t s = .ok ()

theorem Requirement.ofText?_role {t : Text} (written : Text.strip t ≠ [])
    (other : Text.strip t ≠ moderatorWord) (unmarked : (Text.strip t).head? ≠ some '#') :
    ofText? t = some (.role (Text.strip t)) := by
  unfold ofText?
  cases trimmed : Text.strip t with
  | nil => exact absurd trimmed written
  | cons c rest =>
    rw [trimmed] at other unmarked
    have plain : c ≠ '#' := fun same => unmarked (congrArg some same)
    simp only [if_neg other, if_neg plain]

theorem Requirement.ofText?_channel {t name : Text} (written : Text.strip t = '#' :: name) :
    ofText? t = some (.channel name) := by
  have other : '#' :: name ≠ moderatorWord := by
    intro same
    have head : some '#' = moderatorWord.head? := congrArg List.head? same
    exact absurd head (by decide)
  simp only [ofText?, written, if_neg other, if_pos]

namespace Gate

open Requirement

variable {t name : Text} {s : Snapshot} {p q : Prop}

theorem Decide.congr (h : Decide t s p) : Decide t s q ↔ (p ↔ q) := by
  constructor
  · intro h'
    by_contra differ
    rcases not_iff.mp differ with other
    by_cases hp : p
    · obtain ⟨d, denied⟩ := (h'.outside fun hq => other.mpr hq hp).1
      rw [(h.inside hp).1] at denied
      cases denied
    · obtain ⟨d, denied⟩ := (h.outside hp).1
      rw [(h'.inside (other.mp hp)).1] at denied
      cases denied
  · intro same
    exact ⟨fun hq => h.inside (same.mpr hq), fun hq => h.outside (mt same.mp hq)⟩

/-- Gates that decide something stronger decide a condition only where the two come to the same. -/
theorem Decide.weaker (h : Decide t s p) (implied : p → q) : Decide t s q ↔ (q → p) := by
  rw [h.congr]
  constructor
  · exact fun same => same.mpr
  · exact fun back => ⟨implied, back⟩

theorem decide_role (asked : ofText? t = some (.role name)) {r : Role}
    (found : s.server.findRole name = some r) : Decide t s (holdsRole s r = true) := by
  constructor
  · intro met
    simp [require, exclude, asked, found, met]
  · intro unmet
    simp [require, exclude, asked, found, unmet]

theorem decide_channel (asked : ofText? t = some (.channel name)) {c : Channel}
    (found : s.server.findTextChannel name = some c) :
    Decide t s (inChannel s c = true) := by
  constructor
  · intro met
    simp [require, exclude, asked, found, met]
  · intro unmet
    simp [require, exclude, asked, found, unmet]

end Gate

namespace Scalar

@[simp] theorem same_int (m n : Int) : (int m).same (.int n) = decide (m = n) := by
  rw [Bool.eq_iff_iff, decide_eq_true_eq]
  simp [same, numeric?, Number.same, Number.compare?, Number.point?, Point.compare, Binary64.twoTo]

@[simp] theorem sameInside_int (m n : Int) : (int m).sameInside (.int n) = decide (m = n) := by
  simp [sameInside]

theorem any_sameInside {known : List Scalar} (ints : ∀ x ∈ known, ∃ n : Int, x = .int n) (n : Int) :
    known.any (fun k => k.sameInside (.int n)) = true ↔ .int n ∈ known := by
  rw [List.any_eq_true]
  constructor
  · rintro ⟨k, mem, same⟩
    obtain ⟨m, rfl⟩ := ints k mem
    rw [sameInside_int, decide_eq_true_eq] at same
    exact same ▸ mem
  · intro mem
    exact ⟨_, mem, by simp⟩

/-- Among integers nothing is lost when equal ones are kept once. -/
theorem mem_distinct {items : List Scalar} {x : Scalar}
    (ints : ∀ y ∈ items, ∃ n : Int, y = .int n) : x ∈ distinct items ↔ x ∈ items := by
  suffices folded : ∀ known : List Scalar, (∀ x ∈ known, ∃ n : Int, x = .int n) →
      (x ∈ items.foldl (fun known item =>
        if known.any fun k => k.sameInside item then known else known ++ [item]) known ↔
          x ∈ known ∨ x ∈ items) by
    simpa [distinct] using folded [] (by simp)
  induction items with
  | nil => simp
  | cons item rest ih =>
    intro known numbers
    obtain ⟨n, rfl⟩ := ints item List.mem_cons_self
    have kept (x : Scalar) : (x ∈ if known.any fun k => k.sameInside (.int n) then known
        else known ++ [.int n]) ↔ x ∈ known ∨ x = .int n := by
      split
      · rename_i old
        have there : .int n ∈ known := (any_sameInside numbers n).mp old
        constructor
        · exact .inl
        · rintro (here | rfl)
          · exact here
          · exact there
      · rw [List.mem_append, List.mem_singleton]
    rw [List.foldl_cons, ih (fun x hx => ints x (List.mem_cons_of_mem _ hx)) _ fun x hx => ?_, kept,
      List.mem_cons, or_assoc]
    rcases (kept x).mp hx with here | rfl
    · exact numbers x here
    · exact ⟨n, rfl⟩

end Scalar

/-- A member holds the ids of all roles but the common one, where these are integers. -/
theorem User.holds_iff {member : Attribute} {u : User} (h : User.ofAttributes member = .ok u)
    (integer : ∀ r ∈ member.parts "roles", ∃ n : Int, r.get? "id" = some (.scalar (.int n)))
    (n : Int) : u.roleIds.any (Scalar.int n).sameInside = true ↔
      ∃ r ∈ member.parts "roles", Role.isCommon r = false ∧
        r.get? "id" = some (.scalar (.int n)) := by
  obtain ⟨roles, names, ids, filtered, -, numbered, -, known⟩ := User.ofAttributes_eq h
  have held (r : Attribute) :
      r ∈ roles ↔ r ∈ member.parts "roles" ∧ Role.isCommon r = false := by
    rw [Role.proper_eq filtered, List.mem_filter, Bool.not_eq_true']
  have origin (x : Scalar) (hx : x ∈ ids.map Attribute.toScalar) :
      ∃ r ∈ roles, ∃ k : Int, r.get? "id" = some (.scalar (.int k)) ∧ x = .int k := by
    obtain ⟨id, mem, rfl⟩ := List.mem_map.mp hx
    obtain ⟨r, inside, got⟩ := (Block.mem_of_mapM numbered id).mp mem
    obtain ⟨k, numeral⟩ := integer r ((held r).mp inside).1
    cases numeral.symm.trans (Attribute.get_eq got)
    exact ⟨r, inside, k, numeral, rfl⟩
  have ints (x : Scalar) (hx : x ∈ ids.map Attribute.toScalar) : ∃ k : Int, x = .int k := by
    obtain ⟨r, -, k, -, same⟩ := origin x hx
    exact ⟨k, same⟩
  rw [known, List.any_eq_true]
  constructor
  · rintro ⟨x, mem, same⟩
    obtain ⟨r, inside, k, numeral, rfl⟩ := origin x ((Scalar.mem_distinct ints).mp mem)
    rw [Scalar.sameInside_int, decide_eq_true_eq] at same
    exact ⟨r, ((held r).mp inside).1, ((held r).mp inside).2, same ▸ numeral⟩
  · rintro ⟨r, inside, proper, numeral⟩
    have got : r.get "id" = .ok (.scalar (.int n)) := by rw [Attribute.get, numeral]
    refine ⟨.int n, (Scalar.mem_distinct ints).mpr (List.mem_map.mpr ⟨.scalar (.int n), ?_, rfl⟩), by simp⟩
    exact (Block.mem_of_mapM numbered _).mpr ⟨r, (held r).mpr ⟨inside, proper⟩, got⟩

theorem User.hasRole_iff {member : Attribute} {u : User} (h : User.ofAttributes member = .ok u)
    (name : Text) : Value.callRecord? (.user u) "hasRole".toList [.text name] = some (.bool true) ↔
      ∃ r ∈ member.parts "roles", Role.bears name r := by
  obtain ⟨roles, names, ids, filtered, named, -, known, -⟩ := User.ofAttributes_eq h
  have asked : Value.callRecord? (.user u) "hasRole".toList [.text name] =
      some (.bool (u.roles.any fun s => s.same (.text name))) := rfl
  have bears {r found : Attribute} (got : r.get "name" = .ok found) :
      (r.getD "name" .null).toScalar = found.toScalar := by
    rw [Attribute.getD_eq (Attribute.get_eq got)]
  have read : Value.callRecord? (.user u) "hasRole".toList [.text name] = some (.bool true) ↔
      ∃ found ∈ names, found.toScalar.same (.text name) = true := by
    rw [asked, known]
    simp
  rw [read]
  constructor
  · rintro ⟨found, mem, same⟩
    obtain ⟨r, inside, got⟩ := (Block.mem_of_mapM named found).mp mem
    rw [Role.proper_eq filtered, List.mem_filter] at inside
    refine ⟨r, inside.1, ?_⟩
    rw [Role.bears, inside.2, bears got, same]
    rfl
  · rintro ⟨r, mem, borne⟩
    rw [Role.bears, Bool.and_eq_true] at borne
    have inside : r ∈ roles := by
      rw [Role.proper_eq filtered]
      exact List.mem_filter.mpr ⟨mem, borne.1⟩
    obtain ⟨found, got⟩ := (Block.mapM_accepts _ _).mp ⟨names, named⟩ r inside
    exact ⟨found, (Block.mem_of_mapM named found).mpr ⟨r, inside, got⟩, bears got ▸ borne.2⟩

section Placed

variable {m : Incoming} {server : Attribute} {args : List Text} {uptime : Binary64} {s : Snapshot}
  (placed : m.Placed server)
include placed

theorem Gate.holdsRole_iff (member : User.ofAttributes m.author = .ok s.user) {first : Attribute}
    {r : Role} (mem : first ∈ server.parts "roles") (proper : Role.isCommon first = false)
    (made : Role.ofAttributes first = .ok r) :
    Requirement.holdsRole s r = true ↔ first ∈ m.author.parts "roles" := by
  obtain ⟨id, name, there, -, same, -⟩ := Role.ofAttributes_eq made
  obtain ⟨n, integer⟩ := placed.roleIds.integer first mem
  cases integer.symm.trans there
  rw [Requirement.holdsRole, same, Attribute.toScalar,
    User.holds_iff member fun r hr => placed.roleIds.integer r (placed.roles r hr)]
  constructor
  · rintro ⟨other, mine, -, numeral⟩
    cases placed.roleIds.eq_of_id (placed.roles other mine) mem (numeral.trans there.symm)
    exact mine
  · intro mine
    exact ⟨first, mine, proper, there⟩

theorem Gate.inChannel_iff (here : Channel.ofAttributes m.channel = .ok s.channel)
    {first : Attribute} {c : Channel} (mem : first ∈ server.parts "channels")
    (made : Channel.ofAttributes first = .ok c) :
    Requirement.inChannel s c = true ↔ m.channel = first := by
  obtain ⟨id, there, same⟩ := Channel.ofAttributes_id made
  obtain ⟨own, mine, alike⟩ := Channel.ofAttributes_id here
  obtain ⟨n, integer⟩ := placed.channelIds.integer first mem
  obtain ⟨k, numeral⟩ := placed.channelIds.integer m.channel placed.channel
  cases integer.symm.trans there
  cases numeral.symm.trans mine
  rw [Requirement.inChannel, same, alike, Attribute.toScalar, Attribute.toScalar, Scalar.same_int,
    decide_eq_true_eq]
  constructor
  · rintro rfl
    exact placed.channelIds.eq_of_id placed.channel mem (mine.trans there.symm)
  · intro equal
    rw [equal, there] at mine
    cases mine
    rfl

theorem Gate.decide_member (taken : Snapshot.ofMessage m args uptime = .ok s) {t name : Text}
    (asked : Requirement.ofText? t = some (.role name)) {first : Attribute}
    (found : (server.parts "roles").find? (Role.bears name) = some first) :
    Decide t s (first ∈ m.author.parts "roles") := by
  obtain ⟨member, guild, -⟩ := Snapshot.ofMessage_eq taken placed.inside
  obtain ⟨roles, filtered, made, -⟩ := Server.ofAttributes_eq guild
  have proper : Role.isCommon first = false := by
    have borne := List.find?_some found
    rw [Role.bears, Bool.and_eq_true, Bool.not_eq_true'] at borne
    exact borne.1
  have named : roles.find? (fun r => (r.getD "name" .null).toScalar.same (.text name)) =
      some first := by
    have both : Role.bears name = fun r => decide ((!Role.isCommon r) = true ∧
        (r.getD "name" .null).toScalar.same (.text name) = true) := by
      funext r
      simp [Role.bears]
    rw [Role.proper_eq filtered, List.find?_filter, ← both]
    exact found
  have alike (x : Attribute) (y : Role) (hy : Role.ofAttributes x = .ok y) :
      (x.getD "name" .null).toScalar.same (.text name) = y.name.same (.text name) := by
    obtain ⟨id, known, -, there, -, same⟩ := Role.ofAttributes_eq hy
    rw [Attribute.getD_eq there, same]
  obtain ⟨r, here, same⟩ := find?_of_mapM made alike named
  rw [← holdsRole_iff placed member (List.mem_of_find?_eq_some found) proper here]
  exact decide_role asked same

theorem Gate.decide_place (taken : Snapshot.ofMessage m args uptime = .ok s) {t name : Text}
    (asked : Requirement.ofText? t = some (.channel name)) {first : Attribute}
    (found : (server.parts "channels").find? (Channel.bears name) = some first) :
    Decide t s (m.channel = first) := by
  obtain ⟨-, guild, here⟩ := Snapshot.ofMessage_eq taken placed.inside
  obtain ⟨-, -, -, made, -⟩ := Server.ofAttributes_eq guild
  have alike (x : Attribute) (y : Channel) (hy : Channel.ofAttributes x = .ok y) :
      Channel.bears name x = decide (y.name = name ∧ y.type = "text".toList) := by
    rw [Channel.bears, hy]
    rfl
  obtain ⟨c, built, same⟩ := find?_of_mapM made alike found
  rw [← inChannel_iff placed here (List.mem_of_find?_eq_some found) built]
  exact decide_channel asked same

/-- The gates tell whether the member has the first role that bears a name, and whether the message
came from the first text channel that bears one. So they tell the same as `hasRole`, and whether
the channel bears the name, exactly for who does not have or use a later one instead. -/
theorem Gate.tell_first (taken : Snapshot.ofMessage m args uptime = .ok s) (t : Text) :
    (∀ (first : Attribute), Text.strip t ≠ [] → Text.strip t ≠ Requirement.moderatorWord →
      (Text.strip t).head? ≠ some '#' →
      (server.parts "roles").find? (Role.bears (Text.strip t)) = some first →
        let holds := ∃ r ∈ m.author.parts "roles", Role.bears (Text.strip t) r
        Decide t s (first ∈ m.author.parts "roles") ∧
        (Value.callRecord? (.user s.user) "hasRole".toList [.text (Text.strip t)] =
          some (.bool true) ↔ holds) ∧
        (Decide t s holds ↔ (holds → first ∈ m.author.parts "roles"))) ∧
    ∀ (name : Text) (first : Attribute), Text.strip t = '#' :: name →
      (server.parts "channels").find? (Channel.bears name) = some first →
        Decide t s (m.channel = first) ∧
        (Decide t s (Channel.bears name m.channel = true) ↔
          (Channel.bears name m.channel = true → m.channel = first)) := by
  constructor
  · intro first written other unmarked found holds
    have asked := Requirement.ofText?_role written other unmarked
    have decided := decide_member placed taken asked found
    obtain ⟨member, -, -⟩ := Snapshot.ofMessage_eq taken placed.inside
    refine ⟨decided, User.hasRole_iff member _, ?_⟩
    exact decided.weaker fun mine => ⟨first, mine, List.find?_some found⟩
  · intro name first written found
    have decided := decide_place placed taken (Requirement.ofText?_channel written) found
    exact ⟨decided, decided.weaker fun here => here ▸ List.find?_some found⟩

end Placed

namespace Twins

/-- A role or a channel with nothing but an id and a name. -/
def entry (id : Int) (name : String) : Attribute :=
  .object [("id".toList, .scalar (.int id)), ("name".toList, .scalar (.text name.toList))] []

/-- A server with two roles of one name. -/
def server : Attribute :=
  .object [("id".toList, .scalar (.int 500)), ("name".toList, .scalar (.text "twins".toList)),
    ("roles".toList, .list [entry 1 "Mod", entry 2 "Mod"]),
    ("channels".toList, .list [entry 10 "talk"])] []

/-- A message from a member who has one of the two. -/
def message (role : Int) : Incoming where
  author := .object [("id".toList, .scalar (.int 42)), ("roles".toList, .list [entry role "Mod"])] []
  server := some server
  channel := entry 10 "talk"
  content := []

def uptime : Binary64 := .finite false 0 0

theorem placed {role : Int} (h : role = 1 ∨ role = 2) : (message role).Placed server where
  inside := rfl
  roles r hr := by
    have same : r = entry role "Mod" := List.mem_singleton.mp hr
    rcases h with rfl | rfl
    · exact same ▸ List.mem_cons_self
    · exact same ▸ List.mem_cons_of_mem _ List.mem_cons_self
  channel := List.mem_singleton.mpr rfl
  roleIds := by
    refine ⟨fun r hr => ?_, ?_⟩
    · have known : r ∈ [entry 1 "Mod", entry 2 "Mod"] := hr
      simp only [List.mem_cons, List.not_mem_nil, or_false] at known
      rcases known with rfl | rfl
      · exact ⟨1, rfl⟩
      · exact ⟨2, rfl⟩
    · change [some (Attribute.scalar (.int 1)), some (.scalar (.int 2))].Nodup
      simp
  channelIds := by
    refine ⟨fun c hc => ⟨10, ?_⟩, List.nodup_singleton _⟩
    rw [show c = entry 10 "talk" from List.mem_singleton.mp hc]
    rfl

end Twins

/-- The gates tell the member with the first of two roles of one name. -/
theorem Gate.tell_first_twin :
    ∃ s, Snapshot.ofMessage (Twins.message 1) [] Twins.uptime = .ok s ∧
      require "Mod".toList s = .ok () ∧ require "#talk".toList s = .ok () := by
  refine ⟨_, rfl, ?_, ?_⟩
  · refine (((tell_first (Twins.placed (.inl rfl)) rfl "Mod".toList).1 (Twins.entry 1 "Mod")
      (by decide) (by decide) (by decide) rfl).1.inside ?_).1
    exact List.mem_singleton.mpr rfl
  · exact (((tell_first (Twins.placed (.inl rfl)) rfl "#talk".toList).2 "talk".toList
      (Twins.entry 10 "talk") (by decide) rfl).1.inside rfl).1

/-- The gates take the member with the second of two roles of one name for one without. -/
theorem Gate.second_twin_denied :
    ¬ ∀ (m : Incoming) (server : Attribute) (args : List Text) (uptime : Binary64) (s : Snapshot)
      (t : Text), m.Placed server → Snapshot.ofMessage m args uptime = .ok s →
        Text.strip t ≠ Requirement.moderatorWord → (Text.strip t).head? ≠ some '#' →
        (∃ r ∈ server.parts "roles", Role.bears (Text.strip t) r) →
          Decide t s (∃ r ∈ m.author.parts "roles", Role.bears (Text.strip t) r) := by
  intro claim
  have decided := claim (Twins.message 2) Twins.server [] Twins.uptime _ "Mod".toList
    (Twins.placed (.inr rfl)) rfl (by decide) (by decide)
    ⟨Twins.entry 1 "Mod", List.mem_cons_self, rfl⟩
  have passed := (decided.inside ⟨Twins.entry 2 "Mod", List.mem_cons_self, rfl⟩).1
  cases passed

end ChatCommands
