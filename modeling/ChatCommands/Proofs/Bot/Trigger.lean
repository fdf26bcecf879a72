import ChatCommands.Proofs.Bot.Authority
import ChatCommands.Proofs.Gateway.Reading
import ChatCommands.Proofs.Resolution.Course
import ChatCommands.Proofs.Store.Survival
import ChatCommands.Proofs.Template.Marking

/-!
What triggers a custom command.

A name is normalised in one way when a command is added, and in another when a message is read. The
two agree on every name that can be added, so a command answers to the name as it was typed for as
long as it is not removed.
-/

namespace ChatCommands

/-- Whether a message comes from a server and from somebody who is no bot. -/
structure Incoming.Human (m : Incoming) (g : Int) : Prop where
  author : ∃ bot, m.author.get "bot" = .ok bot ∧ bot.truth = false
  server : m.serverId? = .ok (some g)

/-- Whether the stickers of the server of a message have integers as ids. -/
def Incoming.StickersNumbered (m : Incoming) : Prop :=
  ∀ server, m.server = some server →
    ∀ t ∈ server.parts "stickers", ∃ n : Int, t.get? "id" = some (.scalar (.int n))

theorem Invocation.ofText?_append {own : Text} (nonempty : own ≠ []) {rest name : Text}
    {args : List Text} (split : Text.words rest = name :: args) :
    ofText? own (own ++ rest) = some ⟨Text.lower name, args⟩ := by
  have cut : own.isPrefixOf? (own ++ rest) = some rest :=
    List.isPrefixOf?_eq_some_iff_append_eq.mpr rfl
  simp [ofText?, nonempty, cut, split]

theorem Incoming.StickersNumbered.snapshot {m : Incoming} (numbered : m.StickersNumbered)
    {args : List Text} {uptime : Binary64} {s : Snapshot}
    (taken : Snapshot.ofMessage m args uptime = .ok s) :
    ∀ t ∈ s.server.stickers, ∃ n : Int, t.id = .int n := by
  cases inside : m.server with
  | none =>
    rw [Snapshot.ofMessage, inside] at taken
    cases taken
  | some server =>
    obtain ⟨-, guild, -⟩ := Snapshot.ofMessage_eq taken inside
    obtain ⟨-, -, -, -, made⟩ := Server.ofAttributes_eq guild
    intro t ht
    obtain ⟨x, mem, read⟩ := (Block.mem_of_mapM made t).mp ht
    obtain ⟨id, there, same⟩ := Sticker.ofAttributes_id read
    obtain ⟨n, integer⟩ := numbered server inside x mem
    cases integer.symm.trans there
    exact ⟨n, same⟩

theorem Message.first_eq_ok {m : Message}
    (numbered : ∀ a ∈ m.stickers, ∃ n : Int, a.id = .int n) : ∃ p, m.first = .ok p := by
  obtain ⟨ids, made⟩ := (Block.mapM_accepts Attachment.serviceId m.stickers).mpr fun a ha => by
    obtain ⟨n, same⟩ := numbered a ha
    exact ⟨n, by rw [Attachment.serviceId, same]; rfl⟩
  exact ⟨_, by rw [Message.first, made]; rfl⟩

/-- The stickers of a message that a resolution gives are stickers of the server. -/
theorem resolve_stickers {c : Context} {t : Text} {rolls : List Nat} {transport : Option Transport}
    {m : Message} (h : (resolve c t (.start ⟨[], [], [], rolls, [], transport⟩)).1 = .ok m) :
    ∀ a ∈ m.stickers, ∃ s ∈ c.snapshot.server.stickers, a = ⟨s.id, s.name⟩ := by
  obtain ⟨more, -, -, sound, -⟩ :=
    (Resolve.Orderly.text c maxNestedInstructions t (.start ⟨[], [], [], rolls, [], transport⟩)).1
      |>.boundaries (Effects.sound_fresh _ rolls transport)
  have last := sound _ (List.mem_append_right _ List.mem_cons_self)
  obtain ⟨body, -, rfl⟩ := map_eq_ok.mp h
  exact last.offered

/-- The custom command of a server that a text calls, with the words after its name. -/
def Contents.called (k : Contents) (s : Setup) (g : Int) (content : Text) :
    Option (Command × List Text) :=
  (Invocation.ofText? (k.prefixFor (some g) s.defaultPrefix) content).bind fun call =>
    if s.isBuiltin call.name then none else (k.find g call.name).map fun c => (c, call.args)

namespace Handle

variable {s : Setup} {uptime : Binary64} {m : Incoming}

theorem calm_resolved (numbered : m.StickersNumbered) (template : Text) (args : List Text) :
    Calm (fun r => ∀ result, r = .ok result → ∃ p, result.first = .ok p)
      (resolved s uptime m template args) := by
  unfold resolved
  cases taken : Snapshot.ofMessage m args uptime with
  | error c => exact Calm.pure nofun
  | ok snapshot =>
    refine fun σ => ⟨_, _, rfl, rfl, fun result same => Message.first_eq_ok fun a ha => ?_⟩
    obtain ⟨t, offered, rfl⟩ := resolve_stickers same a ha
    exact numbered.snapshot taken t offered

theorem calm_runTemplate (numbered : m.StickersNumbered) (template : Text) (args : List Text) :
    Calm (fun _ => True) (runTemplate s uptime m template args) := by
  refine Calm.bind (calm_resolved numbered template args) fun r first => ?_
  cases r with
  | ok result =>
    obtain ⟨p, made⟩ := first result rfl
    exact Calm.deliver made
  | error fault => exact Calm.explain fault

theorem triggered_outcome (g : Int) (σ : Scene) :
    (triggered s g m).outcome σ = (.ok (σ.keeper.contents.called s g m.content), σ) := by
  unfold triggered Contents.called
  simp only [prefixOf, bind_assoc, pure_bind]
  rw [outcome_bind_ok (outcome_contents σ)]
  cases Invocation.ofText? (σ.keeper.contents.prefixFor (some g) s.defaultPrefix) m.content with
  | none => rfl
  | some call =>
    dsimp only [Option.bind_some]
    split <;> rfl

/-- A message that calls no custom command is left alone. -/
theorem message_idle {bot : Attribute} {server? : Option Int}
    (author : m.author.get "bot" = .ok bot) (server : m.serverId? = .ok server?) {σ : Scene}
    (none : ∀ g ∈ server?, σ.keeper.contents.called s g m.content = none) :
    (message s uptime m).outcome σ = (.ok false, σ) := by
  unfold message
  rw [author, server, outcome_bind_ok (outcome_ofCrash _ σ)]
  split
  · rfl
  · rw [outcome_bind_ok (outcome_ofCrash _ σ)]
    cases server? with
    | none => rfl
    | some g =>
      rw [outcome_bind_ok (triggered_outcome g σ), none g rfl]
      rfl

/-- A message that calls a custom command runs it, and tells that it did if the run does not crash. -/
theorem message_called {g : Int} (human : m.Human g) {σ : Scene} {c : Command} {args : List Text}
    (called : σ.keeper.contents.called s g m.content = some (c, args)) :
    (message s uptime m).outcome σ =
      (runTemplate s uptime m c.response args >>= fun _ => pure true).outcome σ := by
  obtain ⟨bot, author, person⟩ := human.author
  unfold message
  rw [author, human.server, outcome_bind_ok (outcome_ofCrash _ σ), if_neg (by simp [person]),
    outcome_bind_ok (outcome_ofCrash _ σ)]
  dsimp only
  rw [outcome_bind_ok (triggered_outcome g σ), called]

theorem message_runs {g : Int} (human : m.Human g) (numbered : m.StickersNumbered) {σ : Scene}
    {c : Command} {args : List Text}
    (called : σ.keeper.contents.called s g m.content = some (c, args)) :
    (message s uptime m).outcome σ =
      (.ok true, ((runTemplate s uptime m c.response args).outcome σ).2) := by
  have calm : Calm (fun _ => True) (runTemplate s uptime m c.response args) :=
    calm_runTemplate numbered c.response args
  obtain ⟨_, next, ran, -, -⟩ := calm σ
  rw [message_called human called, outcome_bind_ok ran, ran]
  rfl

/-- A command that was added is there under the next id, and is the only one with its name. -/
theorem holds_added {name response : Text} {σ : Scene} {g : Int}
    (server : m.serverId? = .ok (some g))
    (accepted : ((addCommand s m name response).outcome σ).2.keeper.contents ≠
      σ.keeper.contents) :
    Contents.isWord (Contents.key name) = true ∧ s.isBuiltin (Contents.key name) = false ∧
      ((addCommand s m name response).outcome σ).2.keeper.contents.Holds σ.keeper.supply.nextId g
        (Contents.key name) := by
  rcases leads_addCommand s name response σ with same | ⟨g', createdBy, manages, custom, after⟩
  · exact absurd (congrArg Keeper.contents same) accepted
  · cases server.symm.trans manages.server
    rw [after] at accepted ⊢
    unfold Keeper.add at accepted ⊢
    cases made : σ.keeper.store.add g name response createdBy σ.keeper.supply.nextId
        σ.keeper.supply.now with
    | error e =>
      rw [made] at accepted
      exact absurd rfl accepted
    | ok added =>
      obtain ⟨word, -, free, named, put⟩ := Contents.add_eq_ok (Store.change_eq_ok made)
      refine ⟨word, custom, ?_⟩
      change added.2.contents.Holds _ g (Contents.key name)
      rw [put, named]
      exact Contents.holds_put (Contents.key_ne_of_free word free)

end Handle

open Handle in
/-- A command answers to its name, as it was typed when the command was added, for as long as it is
not removed: the message runs the response that the command has by then, with the words that follow.
A message whose first word names a command of the bot itself runs nothing. -/
theorem trigger_follows (s : Setup) (uptime : Binary64) :
    (∀ (m : Incoming) (name response : Text) (σ : Scene) (g : Int) (calls : List Store.Call),
      let added := ((addCommand s m name response).outcome σ).2.keeper
      m.serverId? = .ok (some g) → added.contents ≠ σ.keeper.contents →
      (added.contents.ids ++ Store.newIds calls).Nodup →
      σ.keeper.supply.nextId ∉ (added.store.run calls).1.filterMap Store.removedId? →
      ∀ (τ : Scene) (m' : Incoming) (own rest : Text),
        τ.keeper.contents = (added.store.run calls).2.contents →
        m'.Human g → m'.StickersNumbered →
        own = τ.keeper.contents.prefixFor (some g) s.defaultPrefix → own ≠ [] →
        m'.content = own ++ (Text.strip name ++ rest) →
        (∀ c ∈ rest.head?, Text.isBlank c = true) →
        ∃ c ∈ τ.keeper.contents.commands, c.id = σ.keeper.supply.nextId ∧
          (message s uptime m').outcome τ =
            (.ok true, ((runTemplate s uptime m' c.response (Text.words rest)).outcome τ).2)) ∧
    ∀ (τ : Scene) (m' : Incoming) (bot : Attribute) (server? : Option Int) (own rest first : Text)
      (more : List Text), m'.author.get "bot" = .ok bot → m'.serverId? = .ok server? →
        own = τ.keeper.contents.prefixFor server? s.defaultPrefix →
        m'.content = own ++ rest → Text.words rest = first :: more →
        s.isBuiltin (Text.lower first) = true →
        (message s uptime m').outcome τ = (.ok false, τ) := by
  constructor
  · intro m name response σ g calls added server accepted distinct kept τ m' own rest last human
      numbered shown nonempty content gap
    obtain ⟨word, custom, holds⟩ := holds_added server accepted
    have held := Store.holds_run holds distinct kept
    rw [← last] at held
    obtain ⟨c, mem, same, found⟩ := held.find (Contents.key_key word)
    -- The key is one word exactly if the name as it was typed is, so the first word of the message
    -- is that name, and lowering it gives the key.
    have typed := Contents.isWord_iff.mp ((Contents.isWord_key name).symm.trans word)
    have call : Invocation.ofText? own (own ++ (Text.strip name ++ rest)) =
        some ⟨Contents.key name, Text.words rest⟩ :=
      Invocation.ofText?_append nonempty (Text.words_append typed.1 typed.2 gap)
    refine ⟨c, mem, same, message_runs human numbered ?_⟩
    rw [Contents.called, ← shown, content, call, Option.bind_some, custom, found]
    rfl
  · intro τ m' bot server? own rest first more author server shown content split builtin
    apply message_idle author server
    rintro g rfl
    rw [Contents.called, ← shown, content]
    by_cases empty : own = []
    · rw [empty]
      rfl
    · rw [Invocation.ofText?_append empty split, Option.bind_some, if_pos builtin]

open Handle in
/-- A command that was added as `Greet` and edited since answers to that name, and the word that
belongs to the bot itself does nothing. -/
theorem trigger_follows_greeting :
    let s : Setup := ⟨['!'], 1000, true, fun t => t == "prefix".toList⟩
    let uptime : Binary64 := .finite false 0 0
    let scene (k : Keeper) : Scene := ⟨k, ⟨.finite false 0 0, [], []⟩, [], [], [], []⟩
    let added := ((addCommand s (.inSeven true "") "Greet".toList "hi".toList).outcome
      (scene .fresh)).2.keeper
    let calls : List Store.Call := [.edit 7 "greet".toList "hello".toList ⟨2024, 1, 2, 3, 4, 5, 0, none⟩]
    let τ := scene ⟨(added.store.run calls).2, added.supply⟩
    (∃ c ∈ τ.keeper.contents.commands, c.response = "hello".toList ∧
      (message s uptime (.inSeven false "!Greet  you")).outcome τ = (.ok true,
        ((runTemplate s uptime (.inSeven false "!Greet  you") c.response ["you".toList]).outcome
          τ).2)) ∧
      (message s uptime (.inSeven false "! PREFIX ?")).outcome τ = (.ok false, τ) := by
  intro s uptime scene added calls τ
  have edited : ∀ c ∈ τ.keeper.contents.commands, c.response = "hello".toList := by
    decide +kernel
  have human (manager : Bool) (content : String) : (Incoming.inSeven manager content).Human 7 :=
    ⟨⟨_, rfl, rfl⟩, rfl⟩
  have numbered (manager : Bool) (content : String) :
      (Incoming.inSeven manager content).StickersNumbered := by
    rintro server ⟨⟩ t ht
    cases ht
  have gap : ∀ c ∈ "  you".toList.head?, Text.isBlank c = true := by
    rintro c ⟨⟩
    decide
  constructor
  · obtain ⟨c, mem, -, ran⟩ := (trigger_follows s uptime).1 (.inSeven true "") "Greet".toList
      "hi".toList (scene .fresh) 7 calls rfl (by decide +kernel) (by decide +kernel)
      (by decide +kernel) τ (.inSeven false "!Greet  you") ['!'] "  you".toList rfl (human _ _)
      (numbered _ _) (by decide +kernel) (by decide) (by decide +kernel) gap
    exact ⟨c, mem, edited c mem, ran⟩
  · exact (trigger_follows s uptime).2 τ (.inSeven false "! PREFIX ?") _ (some 7) ['!']
      " PREFIX ?".toList "PREFIX".toList ["?".toList] rfl rfl (by decide +kernel) (by decide +kernel)
      (by decide +kernel) (by decide +kernel)

end ChatCommands
