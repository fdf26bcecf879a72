import ChatCommands.Proofs.Bot.Handling
import ChatCommands.Proofs.Store.Isolation

/-!
Who may change the store.

`Keeper.Step` says once how a command changes the store. A message leads to a step only where its
author may manage the server it comes from, and the step touches nothing that belongs to another.
-/

namespace ChatCommands

/-- Whether a message comes from a server and from an author who may manage it. -/
structure Incoming.Manages (m : Incoming) (g : Int) : Prop where
  inside : m.server.isSome = true
  server : m.serverId? = .ok (some g)
  allowed : User.canManage m.author = true

namespace Keeper

/-- A change of the store by a server, which may be refused. -/
inductive Step (k : Keeper) (g : Int) : Keeper → Prop
  | add (name response : Text) (createdBy : Option Int) :
      Step k g (k.add g name response createdBy).2
  | edit (identifier response : Text) : Step k g (k.edit g identifier response).2
  | remove (identifier : Text) : Step k g (k.remove g identifier).2
  | setPrefix (own : Text) : Step k g (k.setPrefix g own).2

/-- Whether the commands have ids of their own, and the ids to come are new. -/
structure Sound (k : Keeper) : Prop where
  distinct : k.contents.ids.Nodup
  fresh : ∀ i, k.supply.ids ≤ i → k.supply.id i ∉ k.contents.ids
  supplied : ∀ i j, k.supply.ids ≤ i → i < j → k.supply.id i ≠ k.supply.id j

/-- A call of a server that makes a change, with the next id where it needs one. -/
structure Made (k : Keeper) (g : Int) (c : Store.Call) (k' : Keeper) : Prop where
  own : c.server? = some g
  made : (k.store.answer c).1.isMade = true
  store : k'.store = (k.store.answer c).2
  id : k'.supply.id = k.supply.id
  ids : k'.supply.ids = k.supply.ids + c.newId?.toList.length
  next : ∀ id ∈ c.newId?, id = k.supply.nextId

variable {k k' : Keeper} {g : Int}

theorem settle_made {α : Type} {r : Except StoreError (α × Store)}
    {answer : Except StoreError α → Store.Answer} {c : Store.Call} {supply : Supply}
    (answered : k.store.answer c = Store.settle k.store answer r)
    (shown : ∀ a, (answer (.ok a)).isMade = true) (own : c.server? = some g)
    (id : supply.id = k.supply.id) (ids : supply.ids = k.supply.ids + c.newId?.toList.length)
    (next : ∀ id ∈ c.newId?, id = k.supply.nextId) :
    (k.settle supply r).2 = k ∨ ∃ c, k.Made g c (k.settle supply r).2 := by
  cases r with
  | error e => exact .inl rfl
  | ok made => exact .inr ⟨c, own, answered ▸ shown made.1, answered ▸ rfl, id, ids, next⟩

/-- A step is refused, or it is a call that makes a change. -/
theorem Step.cases (h : k.Step g k') : k' = k ∨ ∃ c, k.Made g c k' := by
  cases h with
  | add name response createdBy =>
    exact settle_made (c := .add g name response createdBy k.supply.nextId k.supply.now) rfl
      (fun _ => rfl) rfl rfl rfl fun id same => (Option.some.inj same).symm
  | edit identifier response =>
    exact settle_made (c := .edit g identifier response k.supply.now) rfl (fun _ => rfl) rfl rfl rfl
      nofun
  | remove identifier =>
    exact settle_made (c := .remove g identifier) rfl (fun _ => rfl) rfl rfl rfl nofun
  | setPrefix own =>
    exact settle_made (c := .setPrefix g own) rfl (fun _ => rfl) rfl rfl rfl nofun

theorem Made.change {c : Store.Call} (h : k.Made g c k') : k.contents.Change c k'.contents := by
  change k.contents.Change c k'.store.contents
  rw [h.store, (Store.answer_eq k.store c).2]
  exact Contents.answer_change k.contents c

theorem Made.distinct {c : Store.Call} (h : k.Made g c k') (sound : k.Sound) :
    (k.contents.ids ++ c.newId?.toList).Nodup := by
  cases new : c.newId? with
  | none => simpa using sound.distinct
  | some id =>
    have fresh : id ∉ k.contents.ids := h.next id new ▸ sound.fresh _ (Nat.le_refl _)
    rw [Option.toList_some, List.nodup_append]
    refine ⟨sound.distinct, List.nodup_singleton id, fun a ha b hb same => fresh ?_⟩
    rw [← List.mem_singleton.mp hb, ← same]
    exact ha

theorem Made.sound {c : Store.Call} (h : k.Made g c k') (sound : k.Sound) : k'.Sound := by
  have kept := Contents.ids_change h.change
  refine ⟨(h.distinct sound).sublist kept, fun i later old => ?_, fun i j later => ?_⟩
  · rw [h.ids] at later
    rw [h.id] at old
    rcases List.mem_append.mp (kept.subset old) with before | new
    · exact sound.fresh i (by omega) before
    · cases given : c.newId? with
      | none =>
        rw [given] at new
        cases new
      | some id =>
        rw [given, Option.toList_some] at new later
        have again : k.supply.id i = k.supply.id k.supply.ids :=
          (List.mem_singleton.mp new).trans (h.next id given)
        exact sound.supplied k.supply.ids i (Nat.le_refl _) later again.symm
  · rw [h.id]
    rw [h.ids] at later
    exact sound.supplied i j (by omega)

theorem Step.sound (h : k.Step g k') (sound : k.Sound) : k'.Sound := by
  rcases h.cases with same | ⟨c, made⟩
  · exact same ▸ sound
  · exact made.sound sound

/-- A step leaves the store, or it changes only what belongs to its server and writes the file. -/
theorem Step.confined (h : k.Step g k') (sound : k.Sound) :
    k' = k ∨ k'.store.file = some k'.contents.fileText ∧
      ∀ other, other ≠ g → k'.contents.only other = k.contents.only other := by
  refine h.cases.imp id ?_
  rintro ⟨c, made⟩
  constructor
  · rcases Store.answer_cases k.store c with ⟨_, written⟩ | ⟨refused, _⟩
    · change k'.store.file = some k'.store.contents.fileText
      rw [made.store]
      exact written
    · rw [made.made] at refused
      cases refused
  · intro other ne
    apply Contents.only_change_of_ne (made.distinct sound) made.change
    rw [made.own]
    exact fun same => ne (Option.some.inj same).symm

end Keeper

namespace Handle

variable {way : Keeper → Keeper → Prop} (stay : ∀ k, way k k)
include stay

theorem leads_fromServer {m : Incoming} {next : Handle Unit}
    (h : m.server.isSome = true → Leads way next) : Leads way (fromServer m next) := by
  unfold fromServer
  split
  · exact h ‹_›
  · exact (Keeps.answer _).leads stay

theorem leads_inServer {m : Incoming} {next : Int → Handle Unit}
    (h : ∀ g, m.server.isSome = true → m.serverId? = .ok (some g) → Leads way (next g)) :
    Leads way (inServer m next) := by
  refine leads_fromServer stay fun inside => ?_
  intro s
  rcases server : m.serverId? with c | _ | g
  · exact stay _
  · exact stay _
  · exact h g inside server s

theorem leads_asManager {m : Incoming} {next : Int → Handle Unit}
    (h : ∀ g, m.Manages g → Leads way (next g)) : Leads way (asManager m next) := by
  refine leads_fromServer stay fun inside => ?_
  split
  · rename_i allowed
    exact leads_inServer stay fun g inside server => h g ⟨inside, server, allowed⟩
  · exact (Keeps.answer _).leads stay

omit stay

theorem keeps_listCommands (m : Incoming) (s : Setup) (page : Int) :
    Keeps (listCommands s m page) := by
  refine leads_inServer (fun _ => rfl) fun g _ _ => ?_
  refine Keeps.bind Keeps.contents fun contents => ?_
  dsimp only
  split
  · exact Keeps.bind (Keeps.prefixOf _ _) fun _ => Keeps.answer _
  · exact Keeps.answerEmbed _

theorem keeps_tryTemplate (s : Setup) (uptime : Binary64) (m : Incoming) (template : Text) :
    Keeps (tryTemplate s uptime m template) := by
  refine leads_asManager (fun _ => rfl) fun g _ => ?_
  split
  · exact Keeps.usage _ _ _
  · exact Keeps.runTemplate _ _ _ _ _

end Handle

/-- Whether a message may lead from one keeper to another: by no change, or by a step of a server
that its author may manage. -/
def Incoming.Governs (m : Incoming) (k k' : Keeper) : Prop :=
  k' = k ∨ ∃ g, m.Manages g ∧ k.Step g k'

/-- Whether a message may lead to the addition of a command. -/
def Incoming.Adds (m : Incoming) (s : Setup) (name response : Text) (k k' : Keeper) : Prop :=
  k' = k ∨ ∃ g createdBy, m.Manages g ∧ s.isBuiltin (Contents.key name) = false ∧
    k' = (k.add g name response createdBy).2

namespace Handle

variable {m : Incoming}

theorem governs_stay (k : Keeper) : m.Governs k k :=
  .inl rfl

theorem leads_settled {α : Type} {way : Keeper → Keeper → Prop}
    {f : Keeper → Except StoreError α × Keeper} {next : Except StoreError α → Handle Unit}
    (step : ∀ k, way k (f k).2) (made : ∀ a, Keeps (next (.ok a)))
    (refused : ∀ e, Keeps (next (.error e))) : Leads way (change f >>= next) := by
  refine Leads.bind_keeps (leads_change step) fun r => ?_
  cases r with
  | ok a => exact made a
  | error e => exact refused e

theorem leads_addCommand (s : Setup) (name response : Text) :
    Leads (m.Adds s name response) (addCommand s m name response) := by
  have stay (k : Keeper) : m.Adds s name response k k := .inl rfl
  refine leads_asManager stay fun g manages => ?_
  split
  · exact (Keeps.usage _ _ _).leads stay
  split
  · exact (Keeps.answer _).leads stay
  · rename_i custom
    refine Keeps.bind_leads Keeps.contents (fun contents => ?_) stay
    split
    · exact (Keeps.answer _).leads stay
    · refine Keeps.bind_leads (Keeps.authorId m) (fun author => ?_) stay
      have free : s.isBuiltin (Contents.key name) = false := by simpa using custom
      exact leads_settled (fun k => .inr ⟨g, author, manages, free, rfl⟩)
        (fun c => Keeps.answerEmbed _) fun e => Keeps.answer _

theorem leads_editCommand (s : Setup) (identifier response : Text) :
    Leads m.Governs (editCommand s m identifier response) := by
  refine leads_asManager governs_stay fun g manages => ?_
  split
  · exact (Keeps.usage _ _ _).leads governs_stay
  · exact leads_settled (fun k => .inr ⟨g, manages, .edit identifier response⟩)
      (fun c => Keeps.answerEmbed _) fun e => Keeps.answer _

theorem leads_removeCommand (s : Setup) (identifier : Text) :
    Leads m.Governs (removeCommand s m identifier) := by
  refine leads_asManager governs_stay fun g manages => ?_
  split
  · exact (Keeps.usage _ _ _).leads governs_stay
  · exact leads_settled (fun k => .inr ⟨g, manages, .remove identifier⟩)
      (fun c => Keeps.answerEmbed _) fun e => Keeps.answer _

theorem leads_prefixCommand (s : Setup) (own : Text) :
    Leads m.Governs (prefixCommand s m own) := by
  refine leads_fromServer governs_stay fun _ => ?_
  dsimp only
  split
  · refine leads_inServer governs_stay fun g _ _ => ?_
    exact (Keeps.bind (Keeps.prefixOf _ _) fun _ => Keeps.answer _).leads governs_stay
  · refine leads_asManager governs_stay fun g manages => ?_
    exact leads_settled (fun k => .inr ⟨g, manages, .setPrefix (Text.strip own)⟩)
      (fun t => Keeps.answer _) fun e => Keeps.answer _

end Handle

/-- What a handler is called for: a command, or a message that may trigger a custom command. -/
inductive Act where
  | command (c : Call)
  | trigger

/-- Whether an act is to add, edit or remove a command, or to show or set the prefix. -/
def Act.isChange : Act → Bool
  | .command (.add ..) | .command (.edit ..) | .command (.remove _) | .command (.showPrefix _) => true
  | _ => false

/-- A call of a handler, with what it takes from outside. -/
structure Turn where
  setup : Setup
  uptime : Binary64
  message : Incoming
  act : Act
  transport : Transport
  rolls : List Nat
  failing : List Nat

namespace Handle

def act (s : Setup) (uptime : Binary64) (m : Incoming) : Act → Handle Unit
  | .command c => perform s uptime m c
  | .trigger => do
    let _ ← message s uptime m

theorem leads_act (s : Setup) (uptime : Binary64) (m : Incoming) (a : Act) :
    Leads (fun k k' => k' = k ∨ a.isChange = true ∧ ∃ g, m.Manages g ∧ k.Step g k')
      (act s uptime m a) := by
  have changes {x : Handle Unit} (h : Leads m.Governs x) (change : a.isChange = true) :
      Leads (fun k k' => k' = k ∨ a.isChange = true ∧ ∃ g, m.Manages g ∧ k.Step g k') x :=
    fun s => (h s).imp_right fun step => ⟨change, step⟩
  have keeps {x : Handle Unit} (h : Keeps x) :
      Leads (fun k k' => k' = k ∨ a.isChange = true ∧ ∃ g, m.Manages g ∧ k.Step g k') x :=
    h.leads fun _ => .inl rfl
  cases a with
  | trigger => exact keeps (Keeps.bind (Keeps.message _ _ _) fun _ => Keeps.pure _)
  | command c =>
    cases c with
    | list page => exact keeps (keeps_listCommands m s page)
    | add name response =>
      refine changes (fun σ => (leads_addCommand s name response σ).imp_right ?_) rfl
      rintro ⟨g, createdBy, manages, -, same⟩
      exact ⟨g, manages, same ▸ .add name response createdBy⟩
    | edit identifier response => exact changes (leads_editCommand s identifier response) rfl
    | remove identifier => exact changes (leads_removeCommand s identifier) rfl
    | run template => exact keeps (keeps_tryTemplate s uptime m template)
    | showPrefix own => exact changes (leads_prefixCommand s own) rfl
    | help => exact keeps (Keeps.pure _)

end Handle

/-- The keeper after a turn. -/
def Turn.after (t : Turn) (k : Keeper) : Keeper :=
  ((Handle.act t.setup t.uptime t.message t.act).outcome
    ⟨k, t.transport, t.rolls, t.failing, [], []⟩).2.keeper

theorem Turn.after_cases (t : Turn) (k : Keeper) : t.after k = k ∨
    t.act.isChange = true ∧ ∃ g, t.message.Manages g ∧ k.Step g (t.after k) :=
  Handle.leads_act t.setup t.uptime t.message t.act _

namespace Keeper

def afterAll (k : Keeper) (turns : List Turn) : Keeper :=
  turns.foldl (fun k t => t.after k) k

theorem Sound.after {k : Keeper} (sound : k.Sound) (t : Turn) : (t.after k).Sound := by
  rcases t.after_cases k with same | ⟨_, g, _, step⟩
  · rw [same]
    exact sound
  · exact step.sound sound

theorem Sound.afterAll {k : Keeper} (sound : k.Sound) (turns : List Turn) :
    (k.afterAll turns).Sound := by
  induction turns generalizing k with
  | nil => exact sound
  | cons t rest ih => exact ih (sound.after t)

/-- Whatever handlers have been called before, a call leaves store and supply alone, or it is a
change made in a server by an author who may manage it. Then the file is written, and nothing that
belongs to another server changes. -/
theorem turn_governed {k : Keeper} (sound : k.Sound) (before : List Turn) (t : Turn) :
    let here := k.afterAll before
    let next := t.after here
    next = here ∨ t.act.isChange = true ∧ ∃ g, t.message.Manages g ∧
      next.store.file = some next.contents.fileText ∧
      ∀ other, other ≠ g → next.contents.only other = here.contents.only other := by
  intro here next
  rcases t.after_cases here with same | ⟨change, g, manages, step⟩
  · exact .inl same
  · refine (step.confined (sound.afterAll before)).imp id fun confined => ?_
    exact ⟨change, g, manages, confined⟩

end Keeper

/-- A message in server 7 from a member who may or may not manage it. -/
def Incoming.inSeven (manager : Bool) (content : String) : Incoming where
  author := .object [("id".toList, .scalar (.int 42)), ("bot".toList, .scalar (.bool false)),
    ("guild_permissions".toList,
      .object [("manage_guild".toList, .scalar (.bool manager))] [])] []
  server := some (.object [("id".toList, .scalar (.int 7))] [])
  channel := .null
  content := content.toList

def Turn.inSeven (manager : Bool) (c : Call) : Turn where
  setup := ⟨['!'], 1000, true, fun _ => false⟩
  uptime := .finite false 0 0
  message := .inSeven manager ""
  act := .command c
  transport := ⟨.finite false 0 0, [], []⟩
  rolls := []
  failing := []

namespace Keeper

/-- An empty store with ids to come. -/
def fresh : Keeper where
  store := ⟨.empty, none⟩
  supply := ⟨fun n => List.replicate n 'a', fun _ => ⟨2024, 1, 2, 3, 4, 5, 0, some 0⟩, 0, 0⟩

theorem fresh_sound : fresh.Sound where
  distinct := List.nodup_nil
  fresh _ _ := List.not_mem_nil
  supplied i j _ less same := by
    have lengths := congrArg List.length same
    simp only [fresh, List.length_replicate] at lengths
    omega

/-- A command that a manager added is not removed by someone else. -/
theorem intruder_governed :
    let greeted := fresh.afterAll [.inSeven true (.add "greet".toList "hi".toList)]
    greeted.contents.commands.length = 1 ∧
      (Turn.inSeven false (.remove "greet".toList)).after greeted = greeted := by
  refine ⟨by decide +kernel, ?_⟩
  rcases turn_governed fresh_sound [.inSeven true (.add "greet".toList "hi".toList)]
    (.inSeven false (.remove "greet".toList)) with same | ⟨_, g, manages, _⟩
  · exact same
  · cases manages.allowed

end Keeper

end ChatCommands
