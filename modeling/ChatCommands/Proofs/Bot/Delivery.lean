import ChatCommands.Proofs.Bot.Trigger

/-!
What is posted for a message.

A message that runs no command gets no answer. One that does gets a denial, or one error, or the
output of its template: the first post and one for each message that follows. A post that is too
long, or has neither content nor stickers, would not be taken by the chat service, and is never made.
-/

namespace ChatCommands

/-! ### Texts -/

namespace Text

theorem length_truncate (t : Text) {limit : Int} (room : 3 ≤ limit) :
    ((truncate t limit).length : Int) ≤ limit := by
  unfold truncate
  split
  · assumption
  · have positive : 0 ≤ limit - 3 := by omega
    have cut : (t.takeSigned (limit - 3)).length ≤ (limit - 3).toNat := by
      rw [takeSigned, if_pos positive]
      exact List.length_take_le _ _
    rw [List.length_append]
    change ((_ + 3 : Nat) : Int) ≤ limit
    omega

theorem blank_truncate {t : Text} (visible : blank t = false) (limit : Int) :
    blank (truncate t limit) = false := by
  unfold truncate
  split
  · exact visible
  -- What is left of the text may be blank, but the dots are not.
  · exact blank_of_mem (c := '.') (by decide) (List.mem_append_right _ List.mem_cons_self)

theorem blank_strip (t : Text) : blank (strip t) = blank t := by
  rw [blank, strip_strip, blank]

end Text

/-! ### The posts of a result -/

/-- The message that is shown in the channel for a fault. -/
def Fault.shown : Fault → Text
  | .template e => e.userMessage
  | .crash _ => genericFailure

/-- What is posted for the result of a template: a reply to whom it denies, one error for any other
fault, or the output. -/
inductive Replies : Except Fault Message → List Post → Prop
  | refusal (e : Denial) : Replies (.error (.template (.denied e))) [.refusal e.message]
  | error {fault : Fault} (other : ∀ e, fault ≠ .template (.denied e)) :
      Replies (.error fault) [.errorEmbed (.error fault.shown)]
  | output {m : Message} {ids : List Int} (named : m.stickers.mapM Attachment.serviceId = .ok ids) :
      Replies (.ok m) (.output m.content ids .usersOnly ::
        (m.followups.filter fun t => !Text.blank t).map fun t =>
          .output (some (Text.truncate (Text.strip t) postLimit)) [] .usersOnly)

/-- Whether a post is output that the chat service takes: it is not too long, and it has content that
shows or a sticker. -/
inductive Post.Fits : Post → Prop
  | content {t : Text} {ids : List Int} (short : t.length ≤ 2000) (visible : Text.blank t = false) :
      Fits (.output (some t) ids .usersOnly)
  | stickers {ids : List Int} (some : ids ≠ []) : Fits (.output none ids .usersOnly)

namespace Message

variable {m : Message}

theorem deliverable_eq :
    m.deliverable = (m.followups.filter fun t => !Text.blank t).map Text.strip := by
  rw [deliverable, List.filter_map]
  rfl

theorem others_eq : m.others = (m.followups.filter fun t => !Text.blank t).map fun t =>
    .output (some (Text.truncate (Text.strip t) postLimit)) [] .usersOnly := by
  rw [others, deliverable_eq, List.map_map]
  rfl

theorem fits_truncate {t : Text} (visible : Text.blank t = false) (ids : List Int) :
    Post.Fits (.output (some (Text.truncate t postLimit)) ids .usersOnly) := by
  have short : ((Text.truncate t postLimit).length : Int) ≤ postLimit :=
    Text.length_truncate t (by decide)
  exact .content (Int.ofNat_le.mp short) (Text.blank_truncate visible postLimit)

theorem first_eq_ok_iff {p : Post} : m.first = .ok p ↔
    ∃ ids, m.stickers.mapM Attachment.serviceId = .ok ids ∧ .output m.content ids .usersOnly = p := by
  rw [first, bind_eq_ok]
  exact exists_congr fun ids => and_congr_right fun _ => ⟨Except.ok.inj, congrArg Except.ok⟩

theorem fits_first {ids : List Int} (named : m.stickers.mapM Attachment.serviceId = .ok ids) :
    Post.Fits (.output m.content ids .usersOnly) := by
  cases empty : m.isEmpty with
  | true =>
    have shown : m.content = some (Text.truncate emptyOutput postLimit) := by
      rw [content, empty, if_pos rfl]
      exact if_neg (by decide)
    rw [shown]
    exact fits_truncate (by decide) ids
  | false =>
    cases blank : Text.blank m.text with
    | false =>
      have shown : m.content = some (Text.truncate m.text postLimit) := by
        simp [content, empty, blank]
      rw [shown]
      exact fits_truncate blank ids
    | true =>
      have hidden : m.content = none := by simp [content, empty, blank]
      rw [hidden]
      have worn : m.stickers ≠ [] := by simpa [isEmpty, blank] using empty
      obtain ⟨a, mem⟩ := List.exists_mem_of_ne_nil _ worn
      obtain ⟨id, made⟩ := (Block.mapM_accepts _ _).mp ⟨ids, named⟩ a mem
      exact .stickers (List.ne_nil_of_mem ((Block.mem_of_mapM named id).mpr ⟨a, mem, made⟩))

end Message

theorem Replies.fits {m : Message} {posts : List Post} (h : Replies (.ok m) posts) :
    ∀ p ∈ posts, p.Fits := by
  cases h with
  | output named =>
    refine List.forall_mem_cons.mpr ⟨Message.fits_first named, fun p hp => ?_⟩
    obtain ⟨t, mem, rfl⟩ := List.mem_map.mp hp
    have visible : Text.blank t = false := by simpa using (List.mem_filter.mp mem).2
    exact Message.fits_truncate ((Text.blank_strip t).trans visible) []

/-! ### What a computation posts -/

/-- A post that was accepted. -/
def Post.accepted (p : Post) : Posted :=
  ⟨p, false⟩

namespace Handle

variable {α β : Type}

/-- Whether a computation makes these posts and gives a value, which has a property, where every
post is accepted. -/
def Sends (posts : List Post) (good : α → Prop) (x : Handle α) : Prop :=
  ∀ σ, σ.failing = [] → ∃ a next, x.outcome σ = (.ok a, next) ∧ next.failing = [] ∧
    next.posts = σ.posts ++ posts.map Post.accepted ∧ good a

namespace Sends

variable {x : Handle α} {f : α → Handle β} {good : α → Prop} {fine : β → Prop}
  {posts more : List Post}

theorem pure {a : α} (h : good a) : Sends [] good (pure a : Handle α) :=
  fun σ accepting => ⟨a, σ, rfl, accepting, (List.append_nil _).symm, h⟩

theorem bind (first : Sends posts good x) (second : ∀ a, good a → Sends more fine (f a)) :
    Sends (posts ++ more) fine (x >>= f) := by
  intro σ accepting
  -- No post fails later either, since the numbers of those that fail are fixed from the start.
  obtain ⟨a, next, here, accepting, made, holds⟩ := first σ accepting
  obtain ⟨b, last, later, accepting, others, holds⟩ := second a holds next accepting
  refine ⟨b, last, (outcome_bind_ok here).trans later, accepting, ?_, holds⟩
  rw [others, made, List.map_append, List.append_assoc]

theorem post (p : Post) : Sends [p] (· = true) (Handle.post p) := by
  intro σ accepting
  have taken : σ.fails p = false := by simp [Scene.fails, accepting]
  refine ⟨!σ.fails p, σ.record p, rfl, accepting, ?_, by rw [taken]; rfl⟩
  rw [Scene.record, taken]
  rfl

theorem report (w : Warning) : Sends [] (fun _ => True) (Handle.report w) :=
  fun _ accepting => ⟨(), _, rfl, accepting, (List.append_nil _).symm, trivial⟩

theorem orReport {sending : Handle Bool} (h : Sends posts (· = true) sending) (w : Warning) :
    Sends posts (fun _ => True)
      (sending >>= fun sent => if sent = true then Pure.pure () else Handle.report w) := by
  rw [← List.append_nil posts]
  refine bind h fun sent accepted => ?_
  rw [if_pos accepted]
  exact pure trivial

theorem postAll (posts : List Post) : Sends posts (· = true) (Handle.postAll posts) := by
  induction posts with
  | nil => exact pure rfl
  | cons p rest ih =>
    refine bind (post p) fun sent accepted => ?_
    rw [if_pos accepted]
    exact ih

theorem postError (t : Text) :
    Sends [.errorEmbed (.error t)] (fun _ => True) (Handle.postError t) :=
  orReport (post _) _

theorem deliver {m : Message} {p : Post} (made : m.first = .ok p) :
    Sends (p :: m.others) (fun _ => True) (Handle.deliver m) := by
  have first : Sends [] (· = p) (ofCrash m.first) :=
    fun σ accepting =>
      ⟨p, σ, made ▸ outcome_ofCrash m.first σ, accepting, (List.append_nil _).symm, rfl⟩
  refine bind first fun q same => ?_
  cases same
  exact orReport (postAll _) _

theorem explain (fault : Fault) :
    ∃ posts, Replies (.error fault) posts ∧ Sends posts (fun _ => True) (Handle.explain fault) := by
  unfold Handle.explain
  split
  · rename_i e
    exact ⟨_, .refusal e, bind (post _) fun _ _ => pure trivial⟩
  · rename_i e other
    refine ⟨_, .error (fun d same => other d (by cases same; rfl)), ?_⟩
    dsimp only
    split
    · exact bind (report _) fun _ _ => bind (report _) fun _ _ => postError _
    · exact bind (report _) fun _ _ => postError _
  · exact ⟨_, .error nofun, bind (report _) fun _ _ => postError _⟩

end Sends

variable (s : Setup) (uptime : Binary64) (m : Incoming)

theorem resolved_outcome (template : Text) (args : List Text) (σ : Scene) :
    ∃ r next, (resolved s uptime m template args).outcome σ = (.ok r, next) ∧
      next.failing = σ.failing ∧ next.posts = σ.posts := by
  unfold resolved
  cases Snapshot.ofMessage m args uptime with
  | error c => exact ⟨_, _, rfl, rfl, rfl⟩
  | ok snapshot => exact ⟨_, _, rfl, rfl, rfl⟩

theorem runTemplate_replies (template : Text) (args : List Text) {σ : Scene}
    (accepting : σ.failing = []) :
    (∃ c τ, (runTemplate s uptime m template args).outcome σ = (.error c, τ) ∧
        τ.posts = σ.posts) ∨
      ∃ r next τ posts, (resolved s uptime m template args).outcome σ = (.ok r, next) ∧
        (runTemplate s uptime m template args).outcome σ = (.ok (), τ) ∧
        Replies r posts ∧ τ.posts = σ.posts ++ posts.map Post.accepted := by
  obtain ⟨r, next, ran, still, before⟩ := resolved_outcome s uptime m template args σ
  have here : next.failing = [] := still.trans accepting
  cases r with
  | error fault =>
    obtain ⟨posts, replies, sends⟩ := Sends.explain fault
    obtain ⟨_, τ, done, -, made, -⟩ := sends next here
    exact .inr ⟨_, next, τ, posts, ran, (outcome_bind_ok ran).trans done, replies, before ▸ made⟩
  | ok body =>
    -- The ids of the stickers are converted before the first post, and that alone may crash.
    cases first : body.first with
    | error c =>
      refine .inl ⟨c, next, (outcome_bind_ok ran).trans ?_, before⟩
      change (deliver body).outcome next = (.error c, next)
      rw [deliver, first, outcome_bind, outcome_ofCrash]
    | ok p =>
      obtain ⟨ids, named, rfl⟩ := Message.first_eq_ok_iff.mp first
      obtain ⟨_, τ, done, -, made, -⟩ := Sends.deliver first next here
      rw [Message.others_eq, before] at made
      exact .inr ⟨_, next, τ, _, ran, (outcome_bind_ok ran).trans done, .output named, made⟩

theorem message_cases (σ : Scene) :
    (∃ r, (message s uptime m).outcome σ = (r, σ) ∧ r ≠ .ok true) ∨
      ∃ g c args, m.Human g ∧ σ.keeper.contents.called s g m.content = some (c, args) ∧
        (message s uptime m).outcome σ =
          (runTemplate s uptime m c.response args >>= fun _ => pure true).outcome σ := by
  cases author : m.author.get "bot" with
  | error c =>
    refine .inl ⟨.error c, ?_, nofun⟩
    rw [message, author, outcome_bind, outcome_ofCrash]
  | ok bot =>
    cases person : bot.truth with
    | true =>
      refine .inl ⟨.ok false, ?_, nofun⟩
      rw [message, author, outcome_bind_ok (outcome_ofCrash _ σ), if_pos person]
      rfl
    | false =>
      cases server : m.serverId? with
      | error c =>
        refine .inl ⟨.error c, ?_, nofun⟩
        rw [message, author, server, outcome_bind_ok (outcome_ofCrash _ σ), if_neg (by simp [person]),
          outcome_bind, outcome_ofCrash]
      | ok server? =>
        by_cases none : ∀ g ∈ server?, σ.keeper.contents.called s g m.content = none
        · exact .inl ⟨.ok false, message_idle author server none, nofun⟩
        · simp only [not_forall, Option.mem_def] at none
          obtain ⟨g, rfl, calls⟩ := none
          obtain ⟨⟨c, args⟩, called⟩ := Option.ne_none_iff_exists'.mp calls
          have human : m.Human g := ⟨⟨bot, author, person⟩, server⟩
          exact .inr ⟨g, c, args, human, called, message_called human called⟩

end Handle

open Handle in
/-- Where every post is accepted, a message that runs no command is not answered, and one that does
is answered as the result of the template asks for: by a denial and nothing else, by one error and
nothing else, or by the output, all of which the chat service takes. -/
theorem message_replies (s : Setup) (uptime : Binary64) (m : Incoming) (σ : Scene)
    (accepting : σ.failing = []) :
    let ran := (message s uptime m).outcome σ
    (ran.1 ≠ .ok true → ran.2.posts = σ.posts) ∧
      (ran.1 = .ok true → ∃ g c args r next posts, m.Human g ∧
        σ.keeper.contents.called s g m.content = some (c, args) ∧
        (resolved s uptime m c.response args).outcome σ = (.ok r, next) ∧
        Replies r posts ∧ ran.2.posts = σ.posts ++ posts.map Post.accepted ∧
        ∀ body, r = .ok body → ∀ p ∈ posts, p.Fits) := by
  intro ran
  rcases message_cases s uptime m σ with ⟨r, idle, other⟩ | ⟨g, c, args, human, called, runs⟩
  · have same : ran = (r, σ) := idle
    rw [same]
    exact ⟨fun _ => rfl, fun wrong => absurd wrong other⟩
  rcases runTemplate_replies s uptime m c.response args accepting with
    ⟨e, τ, crashed, before⟩ | ⟨r, next, τ, posts, resolves, done, replies, made⟩
  · have same : ran = (.error e, τ) := by
      rw [outcome_bind, crashed] at runs
      exact runs
    rw [same]
    exact ⟨fun _ => before, nofun⟩
  · have same : ran = (.ok true, τ) := runs.trans (outcome_bind_ok done)
    rw [same]
    refine ⟨fun wrong => absurd rfl wrong, fun _ => ⟨g, c, args, r, next, posts, human, called,
      resolves, replies, made, ?_⟩⟩
    rintro body rfl
    exact replies.fits

/-- A message to a server that has one sticker. -/
def Incoming.inShop (content : String) : Incoming where
  author := .object [("id".toList, .scalar (.int 42)), ("bot".toList, .scalar (.bool false))] []
  server := some (.object
    [("id".toList, .scalar (.int 7)), ("name".toList, .scalar (.text "shop".toList)),
      ("stickers".toList, .list [.object
        [("id".toList, .scalar (.int 100)), ("name".toList, .scalar (.text "wave".toList))] []])] [])
  channel := .object [("id".toList, .scalar (.int 10))] []
  content := content.toList

/-- A scene with one command, which shows a sticker and has two messages follow, one of them blank. -/
def Scene.waving : Scene where
  keeper := { Keeper.fresh with
    store := ⟨⟨[⟨['a'], 7, "greet".toList,
      "\x7bsticker;wave\x7d\x7bfollowup; bye \x7d\x7bfollowup; \x7d".toList,
      none, none, none⟩], []⟩, none⟩ }
  transport := ⟨.finite false 0 0, [], []⟩
  rolls := []
  failing := []
  posts := []
  warnings := []

/-- The blank message does not follow, and the sticker stands for itself. -/
theorem message_replies_waving :
    let s : Setup := ⟨['!'], 1000, true, fun _ => false⟩
    let ran := (Handle.message s (.finite false 0 0) (.inShop "!Greet")).outcome .waving
    ran.2.posts = [⟨.output none [100] .usersOnly, false⟩,
        ⟨.output (some "bye".toList) [] .usersOnly, false⟩] ∧
      ∃ r posts, Replies r posts ∧ ran.2.posts = Scene.waving.posts ++ posts.map Post.accepted := by
  intro s ran
  refine ⟨by decide +kernel, ?_⟩
  have answered : ran.1 = .ok true := toOption_eq_some_iff.mp (by decide +kernel)
  obtain ⟨_, _, _, r, _, posts, _, _, _, replies, made, _⟩ :=
    (message_replies s (.finite false 0 0) (.inShop "!Greet") .waving rfl).2 answered
  refine ⟨r, posts, replies, ?_⟩
  -- Without this step, comparing the two sides would evaluate the run.
  dsimp only [ran]
  exact made

end ChatCommands
