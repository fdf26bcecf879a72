import ChatCommands.Proofs.Store.Contents

/-!
Servers do not touch one another.

All servers share one list of commands and one list of prefixes. The part of one server is a
projection of the two, and a call of that server commutes with the projection, while a call of
another server leaves it alone. The one assumption is that ids are distinct: an id says whose
command it is.
-/

namespace ChatCommands

open Store (Answer settle)

namespace Contents

def owned (s : Contents) (g : Int) : List Command :=
  s.commands.filter fun c => c.server == g

/-- What belongs to one server. -/
def only (s : Contents) (g : Int) : Contents :=
  ⟨s.owned g, s.prefixes.filter fun p => p.1 == g⟩

theorem mem_owned {s : Contents} {g : Int} {c : Command} :
    c ∈ s.owned g ↔ c ∈ s.commands ∧ c.server = g := by
  simp [owned]

theorem owned_only (s : Contents) (g : Int) : (s.only g).owned g = s.owned g := by
  simp [owned, only]

theorem ids_only_sublist (s : Contents) (g : Int) : (s.only g).ids.Sublist s.ids :=
  List.filter_sublist.map _

/-! ### Queries -/

theorem find_only (s : Contents) (g : Int) (name : Text) :
    (s.only g).find g name = s.find g name := by
  simp only [find, only, owned, List.find?_filter]
  congr 1
  funext c
  simp [Bool.beq_eq_decide_eq]

/-- Where one member at most has a property, looking for it among some members is looking for it
among all and asking whether the one found is among the some. -/
theorem find?_filter_of_unique {l : List Command} {p q : Command → Bool}
    (unique : ∀ a ∈ l, ∀ b ∈ l, q a = true → q b = true → a = b) :
    (l.filter p).find? q = (l.find? q).filter p := by
  induction l with
  | nil => rfl
  | cons a rest ih =>
    have later := ih fun b hb c hc => unique b (List.mem_cons_of_mem _ hb) c
      (List.mem_cons_of_mem _ hc)
    cases hq : q a with
    | false => cases hp : p a <;> simpa [hp, hq] using later
    | true =>
      cases hp : p a with
      | true => simp [hq, hp, Option.filter]
      | false =>
        have none : ∀ b ∈ rest.filter p, ¬ q b = true := by
          intro b hb hqb
          obtain ⟨hmem, hpb⟩ := List.mem_filter.mp hb
          have := unique a List.mem_cons_self b (List.mem_cons_of_mem _ hmem) hq hqb
          simp [← this, hp] at hpb
        rw [List.filter_cons_of_neg (by simp [hp]), List.find?_eq_none.mpr none]
        simp [hq, hp, Option.filter]

theorem findByIdentifier_only {s : Contents} (distinct : s.ids.Nodup) (g : Int)
    (identifier : Text) :
    (s.only g).findByIdentifier g identifier = s.findByIdentifier g identifier := by
  have unique : ∀ a ∈ s.commands, ∀ b ∈ s.commands,
      (a.id == Text.strip identifier) = true → (b.id == Text.strip identifier) = true → a = b := by
    intro a ha b hb hia hib
    exact eq_of_id_eq distinct ha hb (by simp_all)
  unfold findByIdentifier
  rw [find_only]
  simp only [only, owned, find?_filter_of_unique unique]
  cases s.commands.find? fun c => c.id == Text.strip identifier with
  | none => rfl
  | some c => by_cases own : c.server = g <;> simp [Option.filter, own]

theorem list_only (s : Contents) (g : Int) : (s.only g).list g = s.list g := by
  change ((s.only g).owned g).mergeSort _ = (s.owned g).mergeSort _
  rw [owned_only]

theorem lookup_only (s : Contents) (g : Int) :
    (s.only g).prefixes.lookup g = s.prefixes.lookup g := by
  simp only [only]
  induction s.prefixes with
  | nil => rfl
  | cons p rest ih =>
    obtain ⟨k, own⟩ := p
    by_cases hk : k = g
    · subst hk
      simp
    · have other : (g == k) = false := by simpa using fun h => hk h.symm
      simp [List.lookup_cons, hk, other, ih]

theorem prefixFor_only (s : Contents) (g : Int) (fallback : Text) :
    (s.only g).prefixFor (some g) fallback = s.prefixFor (some g) fallback := by
  simp only [prefixFor, lookup_only]

/-! ### Changes -/

theorem owned_put {s : Contents} {c : Command}
    (same : ∀ d ∈ s.commands, d.id = c.id → d.server = c.server) (g : Int) :
    (s.put c).owned g = if g = c.server then ((s.only g).put c).commands else s.owned g := by
  by_cases known : c.id ∈ s.ids
  -- The command that is replaced has the same server, so filtering and replacing commute.
  · have kept : ∀ d ∈ s.commands, ((replaced c d).server == g) = (d.server == g) := by
      intro d hd
      by_cases hid : d.id = c.id
      · simp [replaced, hid, same d hd hid]
      · rw [replaced_of_ne hid]
    have moved : (s.put c).owned g = (s.owned g).map (replaced c) := by
      simp only [put_known known, owned, List.filter_map]
      exact congrArg _ (List.filter_congr kept)
    rw [moved]
    split
    · rename_i own
      obtain ⟨d, hd, hid⟩ := mem_ids.mp known
      have here : c.id ∈ (s.only g).ids :=
        mem_ids.mpr ⟨d, mem_owned.mpr ⟨hd, own ▸ same d hd hid⟩, hid⟩
      rw [put_known here]
      rfl
    · rename_i other
      have same_list : (s.owned g).map (replaced c) = (s.owned g).map id := by
        apply List.map_congr_left
        intro d hd
        obtain ⟨hmem, hserver⟩ := mem_owned.mp hd
        exact replaced_of_ne fun hid => other (hserver ▸ same d hmem hid)
      simpa using same_list
  · have fresh : c.id ∉ (s.only g).ids := fun h => known ((ids_only_sublist s g).subset h)
    simp only [put_fresh known, put_fresh fresh, owned, List.filter_append]
    split
    · rename_i own
      simp [own, only, owned]
    · rename_i other
      have : (c.server == g) = false := by simpa using fun h => other h.symm
      simp [this]

theorem put_only {s : Contents} {c : Command}
    (same : ∀ d ∈ s.commands, d.id = c.id → d.server = c.server) :
    (s.put c).only c.server = (s.only c.server).put c := by
  have commands := owned_put same c.server
  rw [if_pos rfl] at commands
  show Contents.mk _ _ = Contents.mk _ _
  rw [commands]
  rfl

theorem put_only_of_ne {s : Contents} {c : Command}
    (same : ∀ d ∈ s.commands, d.id = c.id → d.server = c.server) {g : Int} (other : g ≠ c.server) :
    (s.put c).only g = s.only g := by
  have commands := owned_put same g
  rw [if_neg other] at commands
  simp only [only, commands, put_prefixes]

/-- Removing a command of one server takes nothing from another. -/
theorem owned_removed {s : Contents} (distinct : s.ids.Nodup) {c : Command} (mem : c ∈ s.commands)
    {g : Int} (other : g ≠ c.server) :
    (s.commands.filter fun d => d.id != c.id).filter (fun d => d.server == g) = s.owned g := by
  rw [List.filter_filter]
  apply List.filter_congr
  intro d hd
  by_cases hid : d.id = c.id
  · have : d.server ≠ g := eq_of_id_eq distinct hd mem hid ▸ other.symm
    simp [this]
  · simp [hid]

theorem filter_putPrefix (g h : Int) (own : Option Text) (l : List (Int × Option Text)) :
    (putPrefix g own l).filter (fun p => p.1 == h) =
      if h = g then putPrefix g own (l.filter fun p => p.1 == h)
      else l.filter fun p => p.1 == h := by
  induction l with
  | nil =>
    by_cases hh : h = g
    · simp [putPrefix, hh]
    · simp [putPrefix, hh, Ne.symm hh]
  | cons p rest ih =>
    obtain ⟨k, old⟩ := p
    by_cases hk : k = g
    · subst hk
      by_cases hh : h = k
      · simp [putPrefix, hh]
      · simp [putPrefix, hh, Ne.symm hh]
    · by_cases hh : h = g
      · subst hh
        simp only [putPrefix, if_neg hk, if_true] at ih ⊢
        simp [hk, ih]
      · simp only [putPrefix, if_neg hk, if_neg hh] at ih ⊢
        simp only [List.filter_cons, ih]

/-! ### One call -/

/-- A command that a call puts has the id of no command of another server. -/
theorem server_of_id_eq {s : Contents} (distinct : s.ids.Nodup) {c : Command}
    (known : c.id ∈ s.ids → ∃ old ∈ s.commands, old.id = c.id ∧ old.server = c.server) :
    ∀ d ∈ s.commands, d.id = c.id → d.server = c.server := by
  intro d hd hid
  obtain ⟨old, hold, sameId, sameServer⟩ := known (mem_ids.mpr ⟨d, hd, hid⟩)
  rw [eq_of_id_eq distinct hd hold (hid.trans sameId.symm), sameServer]

section Call

variable {s t : Contents} {c : Store.Call} {g : Int} (distinct : (s.ids ++ c.newId?.toList).Nodup)
include distinct

theorem newId_fresh {id : Text} (new : c.newId? = some id) : id ∉ s.ids :=
  fun old => (List.nodup_append.mp distinct).2.2 id old id (by simp [new]) rfl

/-- A call of one server leaves what belongs to another as it is. -/
theorem only_change_of_ne (h : s.Change c t) (other : c.server? ≠ some g) :
    t.only g = s.only g := by
  have nodup : s.ids.Nodup := (List.nodup_append.mp distinct).1
  cases h with
  | kept => rfl
  | @added server name response createdBy id now =>
    have fresh : id ∉ s.ids := newId_fresh distinct rfl
    have ne : g ≠ server := fun h => other (h ▸ rfl)
    exact put_only_of_ne (server_of_id_eq nodup fun known => absurd known fresh) ne
  | @edited server identifier response now old found =>
    obtain ⟨mem, rfl⟩ := mem_of_findByIdentifier found
    have ne : g ≠ old.server := fun h => other (h ▸ rfl)
    exact put_only_of_ne (c := { old with response, updatedAt := some now })
      (server_of_id_eq nodup fun _ => ⟨old, mem, rfl, rfl⟩) ne
  | @removed server identifier old found =>
    obtain ⟨mem, rfl⟩ := mem_of_findByIdentifier found
    have ne : g ≠ old.server := fun h => other (h ▸ rfl)
    exact congrArg (Contents.mk · _) (owned_removed nodup mem ne)
  | @prefixed server own =>
    have ne : g ≠ server := fun h => other (h ▸ rfl)
    simp only [only, owned, filter_putPrefix, if_neg ne]

/-- A call of a server reads and changes only what belongs to the server. -/
theorem answer_only (own : c.server? = some g) :
    ((s.only g).answer c).1 = (s.answer c).1 ∧
      ((s.only g).answer c).2 = (s.answer c).2.only g := by
  have nodup : s.ids.Nodup := (List.nodup_append.mp distinct).1
  cases c with
  | add server name response createdBy id now =>
    obtain rfl : server = g := Option.some.inj own
    have fresh : id ∉ s.ids := newId_fresh distinct rfl
    have put := put_only (c := ⟨id, server, key name, response, createdBy, some now, some now⟩)
      (server_of_id_eq nodup fun known => absurd known fresh)
    simp only [answer, add, find_only]
    split
    · exact ⟨rfl, rfl⟩
    split
    · exact ⟨rfl, rfl⟩
    split
    · exact ⟨rfl, rfl⟩
    · exact ⟨rfl, put.symm⟩
  | edit server identifier response now =>
    obtain rfl : server = g := Option.some.inj own
    simp only [answer, edit, findByIdentifier_only nodup]
    split
    · exact ⟨rfl, rfl⟩
    · rename_i old found
      obtain ⟨mem, rfl⟩ := mem_of_findByIdentifier found
      have put := put_only (c := { old with response, updatedAt := some now })
        (server_of_id_eq nodup fun _ => ⟨old, mem, rfl, rfl⟩)
      split
      · exact ⟨rfl, rfl⟩
      · exact ⟨rfl, put.symm⟩
  | remove server identifier =>
    obtain rfl : server = g := Option.some.inj own
    simp only [answer, remove, findByIdentifier_only nodup]
    split
    · exact ⟨rfl, rfl⟩
    · refine ⟨rfl, congrArg (Contents.mk · _) ?_⟩
      simp only [settle, only, owned, List.filter_filter, Bool.and_comm]
  | setPrefix server prefixText =>
    obtain rfl : server = g := Option.some.inj own
    simp only [answer, setPrefix]
    split
    · exact ⟨rfl, rfl⟩
    · refine ⟨rfl, ?_⟩
      simp only [settle, only, owned, filter_putPrefix, if_true]
  | find server name =>
    obtain rfl : server = g := Option.some.inj own
    exact ⟨congrArg Answer.found (find_only ..), rfl⟩
  | findByIdentifier server identifier =>
    obtain rfl : server = g := Option.some.inj own
    exact ⟨congrArg Answer.found (findByIdentifier_only nodup ..), rfl⟩
  | list server =>
    obtain rfl : server = g := Option.some.inj own
    exact ⟨congrArg Answer.listed (list_only ..), rfl⟩
  | prefixFor server fallback =>
    obtain rfl : server = some g := own
    exact ⟨congrArg Answer.shown (prefixFor_only ..), rfl⟩

end Call

/-- What a call shows to its server are commands of that server. -/
theorem server_of_shown {s : Contents} {c : Store.Call} {g : Int} (own : c.server? = some g) :
    ∀ d ∈ (s.answer c).1.commands, d.server = g := by
  cases c with
  | add server name response createdBy id now =>
    obtain rfl : server = g := Option.some.inj own
    simp only [answer, add]
    split
    · simp [settle, Answer.commands]
    split
    · simp [settle, Answer.commands]
    split <;> simp [settle, Answer.commands]
  | edit server identifier response now =>
    obtain rfl : server = g := Option.some.inj own
    simp only [answer, edit]
    split
    · simp [settle, Answer.commands]
    · rename_i old found
      split <;> simp [settle, Answer.commands, (mem_of_findByIdentifier found).2]
  | remove server identifier =>
    obtain rfl : server = g := Option.some.inj own
    simp only [answer, remove]
    split
    · simp [settle, Answer.commands]
    · rename_i old found
      simp [settle, Answer.commands, (mem_of_findByIdentifier found).2]
  | setPrefix server wanted =>
    simp only [answer, setPrefix]
    split <;> simp [settle, Answer.commands]
  | find server name =>
    obtain rfl : server = g := Option.some.inj own
    intro d hd
    exact (mem_of_find (by simpa [answer, Answer.commands] using hd)).2.1
  | findByIdentifier server identifier =>
    obtain rfl : server = g := Option.some.inj own
    intro d hd
    exact (mem_of_findByIdentifier (by simpa [answer, Answer.commands] using hd)).2
  | list server =>
    obtain rfl : server = g := Option.some.inj own
    simp [answer, Answer.commands, list]
  | prefixFor => simp [answer, Answer.commands]

end Contents

namespace Store

/-- The ids that a list of calls hands out. -/
def newIds (calls : List Call) : List Text :=
  calls.filterMap Call.newId?

theorem newIds_cons (c : Call) (rest : List Call) :
    newIds (c :: rest) = c.newId?.toList ++ newIds rest := by
  unfold newIds
  cases h : c.newId? <;> simp [h]

section Run

variable {s : Store} {c : Call} {rest : List Call}

theorem distinct_here (h : (s.contents.ids ++ newIds (c :: rest)).Nodup) :
    (s.contents.ids ++ c.newId?.toList).Nodup := by
  rw [newIds_cons, ← List.append_assoc] at h
  exact (List.nodup_append.mp h).1

theorem distinct_later (h : (s.contents.ids ++ newIds (c :: rest)).Nodup) :
    ((s.answer c).2.contents.ids ++ newIds rest).Nodup := by
  rw [newIds_cons, ← List.append_assoc] at h
  rw [(answer_eq s c).2]
  exact h.sublist ((Contents.ids_change (Contents.answer_change ..)).append_right _)

/-- The ids of a store and those of the calls to come stay distinct. -/
theorem distinct_run {before : List Call} (h : (s.contents.ids ++ newIds (before ++ rest)).Nodup) :
    ((s.run before).2.contents.ids ++ newIds rest).Nodup := by
  induction before generalizing s with
  | nil => exact h
  | cons c before ih => exact ih (distinct_later h)

end Run

theorem isBy_iff {g : Int} {c : Call} : c.isBy g = true ↔ c.server? = some g := by
  simp [Call.isBy]

/-- Two stores in which a server owns the same stay so while the server makes the same calls,
whatever other servers do in the first. -/
theorem run_alike {s s' : Store} {calls : List Call} {g : Int}
    (alike : s.contents.only g = s'.contents.only g)
    (distinct : (s.contents.ids ++ newIds calls).Nodup)
    (distinct' : (s'.contents.ids ++ newIds (calls.filter (Call.isBy g))).Nodup) :
    (s.run calls).1.filter (fun x => x.1.isBy g) = (s'.run (calls.filter (Call.isBy g))).1 ∧
      (s.run calls).2.contents.only g =
        (s'.run (calls.filter (Call.isBy g))).2.contents.only g := by
  induction calls generalizing s s' with
  | nil => exact ⟨rfl, alike⟩
  | cons c rest ih =>
    have here := distinct_here distinct
    cases own : c.isBy g with
    | true =>
      rw [List.filter_cons_of_pos own] at distinct' ⊢
      have left := Contents.answer_only here (isBy_iff.mp own)
      have right := Contents.answer_only (distinct_here distinct') (isBy_iff.mp own)
      have same : (s.answer c).1 = (s'.answer c).1 := by
        rw [(answer_eq s c).1, (answer_eq s' c).1, ← left.1, ← right.1, alike]
      have alike' : (s.answer c).2.contents.only g = (s'.answer c).2.contents.only g := by
        rw [(answer_eq s c).2, (answer_eq s' c).2, ← left.2, ← right.2, alike]
      have later := ih alike' (distinct_later distinct) (distinct_later distinct')
      exact ⟨by simp [run, own, same, later.1], later.2⟩
    | false =>
      -- Only the first store moves, and what belongs to the server stays what it was.
      have ne : c.server? ≠ some g := fun h => by simp [isBy_iff.mpr h] at own
      rw [List.filter_cons_of_neg (by simp [own])] at distinct' ⊢
      have kept : (s.answer c).2.contents.only g = s'.contents.only g := by
        rw [(answer_eq s c).2, ← alike]
        exact Contents.only_change_of_ne here (Contents.answer_change ..) ne
      have later := ih kept (distinct_later distinct) distinct'
      exact ⟨by simp [run, own, later.1], later.2⟩

/-- Servers that share a store do not touch one another. Among the calls of all servers those of
one server are answered as if they were alone, and leave the same commands in the same order and
the same prefix behind. Each of its calls reads and changes only what belongs to the server, shows
commands of no other, and leaves the commands and the prefix of every other as they were. -/
theorem run_isolated (s : Store) (calls : List Call) (g : Int)
    (distinct : (s.contents.ids ++ newIds calls).Nodup) :
    let alone := s.run (calls.filter (Call.isBy g))
    (s.run calls).1.filter (fun x => x.1.isBy g) = alone.1 ∧
      (s.run calls).2.contents.owned g = alone.2.contents.owned g ∧
      (s.run calls).2.contents.prefixes.lookup g = alone.2.contents.prefixes.lookup g ∧
      ∀ before c after, calls = before ++ c :: after → c.server? = some g →
        let t := (s.run before).2
        (t.answer c).1 = ((t.contents.only g).answer c).1 ∧
          (t.answer c).2.contents.only g = ((t.contents.only g).answer c).2 ∧
          (∀ d ∈ (t.answer c).1.commands, d.server = g) ∧
          ∀ h, h ≠ g →
            (t.answer c).2.contents.owned h = t.contents.owned h ∧
              (t.answer c).2.contents.prefixes.lookup h = t.contents.prefixes.lookup h := by
  have filtered : (newIds (calls.filter (Call.isBy g))).Sublist (newIds calls) :=
    List.filter_sublist.filterMap _
  have same : s.contents.only g = s.contents.only g := rfl
  have alike := run_alike same distinct (distinct.sublist (filtered.append_left _))
  refine ⟨alike.1, congrArg Contents.commands alike.2, ?_, ?_⟩
  · rw [← Contents.lookup_only, alike.2, Contents.lookup_only]
  · rintro before c after rfl own t
    have here : (t.contents.ids ++ c.newId?.toList).Nodup := distinct_here (distinct_run distinct)
    have only := Contents.answer_only here own
    refine ⟨?_, ?_, ?_, ?_⟩
    · rw [(answer_eq t c).1, only.1]
    · rw [(answer_eq t c).2, only.2]
    · rw [(answer_eq t c).1]
      exact Contents.server_of_shown own
    · intro h other
      have ne : c.server? ≠ some h := fun same => other (Option.some.inj (same.symm.trans own))
      have kept := Contents.only_change_of_ne here (Contents.answer_change t.contents c) ne
      rw [(answer_eq t c).2]
      refine ⟨congrArg Contents.commands kept, ?_⟩
      rw [← Contents.lookup_only, kept, Contents.lookup_only]

/-- Two servers with a command of one name each, of which the second tries to remove the command of
the first by its id. -/
def intrusion : List Call :=
  let now : Instant := ⟨2024, 1, 2, 3, 4, 5, 0, some 0⟩
  [.add 1 "Greet".toList "hi".toList none "a1".toList now,
    .add 2 "greet".toList "hello".toList (some 7) "b2".toList now,
    .remove 2 "a1".toList,
    .find 1 "GREET".toList]

theorem intrusion_isolated :
    (Contents.empty.ids ++ newIds intrusion).Nodup ∧
      (Store.run ⟨.empty, none⟩ intrusion).1.filter (fun x => x.1.isBy 1) =
        (Store.run ⟨.empty, none⟩ (intrusion.filter (Call.isBy 1))).1 ∧
      ((Store.run ⟨.empty, none⟩ intrusion).1.map Prod.snd)[2]? =
        some (.command (.error (.unknown "a1".toList))) := by
  have distinct : (Contents.empty.ids ++ newIds intrusion).Nodup := by decide
  exact ⟨distinct, (run_isolated ⟨.empty, none⟩ intrusion 1 distinct).1, rfl⟩

end Store

end ChatCommands
