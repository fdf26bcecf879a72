import ChatCommands.Bot.Routing

/-!
What the parts of handling a message do to the store.

Only a change of the store touches it. Everything else, posts, reports and the run of a template
included, leaves it alone, and whatever is put together of such parts does too.
-/

namespace ChatCommands

namespace Handle

variable {α β : Type}

def outcome (x : Handle α) (s : Scene) : Except Crash α × Scene :=
  x.run.run s

theorem outcome_bind (x : Handle α) (f : α → Handle β) (s : Scene) :
    (x >>= f).outcome s = match x.outcome s with
      | (.ok a, next) => (f a).outcome next
      | (.error c, next) => (.error c, next) := by
  simp only [outcome, bind, ExceptT.bind, ExceptT.run, ExceptT.mk, StateT.bind, StateT.run]
  rcases x s with ⟨_ | _, next⟩ <;> rfl

theorem outcome_bind_ok {x : Handle α} {f : α → Handle β} {s next : Scene} {a : α}
    (h : x.outcome s = (.ok a, next)) : (x >>= f).outcome s = (f a).outcome next := by
  rw [outcome_bind, h]

theorem outcome_ofCrash (r : Except Crash α) (s : Scene) :
    (ofCrash r).outcome s = (r, s) := by
  cases r <;> rfl

theorem outcome_contents (s : Scene) : contents.outcome s = (.ok s.keeper.contents, s) :=
  rfl

/-- Whether a computation always leads from one keeper to another in this way. -/
def Leads (way : Keeper → Keeper → Prop) (x : Handle α) : Prop :=
  ∀ s, way s.keeper (x.outcome s).2.keeper

/-- Whether a computation leaves the keeper alone. -/
def Keeps (x : Handle α) : Prop :=
  Leads Eq x

variable {way : Keeper → Keeper → Prop} {x : Handle α} {f : α → Handle β}

theorem Keeps.leads (h : Keeps x) (stay : ∀ k, way k k) : Leads way x := by
  intro s
  rw [← h s]
  exact stay s.keeper

theorem Leads.bind_keeps (first : Leads way x) (second : ∀ a, Keeps (f a)) :
    Leads way (x >>= f) := by
  intro s
  have here := first s
  rw [outcome_bind]
  rcases hx : x.outcome s with ⟨c | a, next⟩ <;> rw [hx] at here
  · exact here
  · change way s.keeper ((f a).outcome next).2.keeper
    rw [← second a next]
    exact here

theorem Keeps.bind_leads (first : Keeps x) (second : ∀ a, Leads way (f a)) (stay : ∀ k, way k k) :
    Leads way (x >>= f) := by
  intro s
  have here := first s
  rw [outcome_bind]
  rcases hx : x.outcome s with ⟨c | a, next⟩ <;> rw [hx] at here
  · change way s.keeper next.keeper
    rw [← here]
    exact stay s.keeper
  · change way s.keeper ((f a).outcome next).2.keeper
    rw [here]
    exact second a next

theorem leads_change {g : Keeper → Except StoreError α × Keeper} (h : ∀ k, way k (g k).2) :
    Leads way (change g) :=
  fun s => h s.keeper

/-- Whether a computation leaves the keeper alone and gives a value, which has a property. -/
def Calm (good : α → Prop) (x : Handle α) : Prop :=
  ∀ s, ∃ a next, x.outcome s = (.ok a, next) ∧ s.keeper = next.keeper ∧ good a

namespace Calm

variable {good : α → Prop} {fine : β → Prop}

theorem keeps (h : Calm good x) : Keeps x := by
  intro s
  obtain ⟨a, next, same, kept, -⟩ := h s
  rw [same]
  exact kept

theorem pure {a : α} (h : good a) : Calm good (pure a : Handle α) :=
  fun s => ⟨a, s, rfl, rfl, h⟩

theorem bind (first : Calm good x) (second : ∀ a, good a → Calm fine (f a)) :
    Calm fine (x >>= f) := by
  intro s
  obtain ⟨a, next, here, kept, holds⟩ := first s
  obtain ⟨b, last, later, kept', holds'⟩ := second a holds next
  exact ⟨b, last, (outcome_bind_ok here).trans later, kept.trans kept', holds'⟩

theorem post (p : Post) : Calm (fun _ => True) (Handle.post p) :=
  fun _ => ⟨_, _, rfl, rfl, trivial⟩

theorem report (w : Warning) : Calm (fun _ => True) (Handle.report w) :=
  fun _ => ⟨_, _, rfl, rfl, trivial⟩

theorem orReport {sending : Handle Bool} (h : Calm (fun _ => True) sending) (w : Warning) :
    Calm (fun _ => True)
      (sending >>= fun sent => if sent = true then Pure.pure () else Handle.report w) := by
  refine bind h fun sent _ => ?_
  split
  · exact pure trivial
  · exact report w

theorem postAll (posts : List Post) : Calm (fun _ => True) (Handle.postAll posts) := by
  induction posts with
  | nil => exact pure trivial
  | cons p rest ih =>
    refine bind (post p) fun sent _ => ?_
    split
    · exact ih
    · exact pure trivial

theorem postError (t : Text) : Calm (fun _ => True) (Handle.postError t) :=
  orReport (post _) _

theorem explain (f : Fault) : Calm (fun _ => True) (Handle.explain f) := by
  unfold Handle.explain
  split
  · exact bind (post _) fun _ _ => pure trivial
  · dsimp only
    split
    · exact bind (report _) fun _ _ => bind (report _) fun _ _ => postError _
    · exact bind (report _) fun _ _ => postError _
  · exact bind (report _) fun _ _ => postError _

theorem deliver {m : Message} {p : Post} (h : m.first = .ok p) :
    Calm (fun _ => True) (Handle.deliver m) := by
  have first : Calm (fun _ => True) (ofCrash m.first) :=
    fun s => ⟨p, s, h ▸ outcome_ofCrash _ s, rfl, trivial⟩
  exact bind first fun _ _ => orReport (postAll _) _

end Calm

namespace Keeps

theorem pure (a : α) : Keeps (pure a : Handle α) :=
  fun _ => rfl

theorem bind (first : Keeps x) (second : ∀ a, Keeps (f a)) : Keeps (x >>= f) :=
  first.bind_leads second fun _ => rfl

theorem ofCrash (r : Except Crash α) : Keeps (Handle.ofCrash r) := by
  intro s
  rw [outcome_ofCrash]

theorem contents : Keeps Handle.contents :=
  fun _ => rfl

theorem answer (t : Text) : Keeps (Handle.answer t) :=
  bind (Calm.post _).keeps fun _ => pure _

theorem answerEmbed (e : Embed) : Keeps (Handle.answerEmbed e) :=
  bind (Calm.post _).keeps fun _ => pure _

theorem deliver (m : Message) : Keeps (Handle.deliver m) :=
  bind (ofCrash _) fun _ => (Calm.orReport (Calm.postAll _) _).keeps

theorem resolved (s : Setup) (uptime : Binary64) (m : Incoming) (template : Text)
    (args : List Text) : Keeps (Handle.resolved s uptime m template args) := by
  unfold Handle.resolved
  split
  · exact pure _
  · exact fun _ => rfl

theorem runTemplate (s : Setup) (uptime : Binary64) (m : Incoming) (template : Text)
    (args : List Text) : Keeps (Handle.runTemplate s uptime m template args) := by
  refine bind (resolved _ _ _ _ _) fun result => ?_
  cases result with
  | ok body => exact deliver body
  | error fault => exact (Calm.explain fault).keeps

theorem prefixOf (s : Setup) (server : Option Int) : Keeps (Handle.prefixOf s server) :=
  bind contents fun _ => pure _

theorem usage (s : Setup) (server : Int) (form : String) : Keeps (Handle.usage s server form) :=
  bind (prefixOf _ _) fun _ => answer _

theorem authorId (m : Incoming) : Keeps (Handle.authorId m) := by
  refine bind (ofCrash _) fun author => ?_
  split <;> exact pure _

theorem triggered (s : Setup) (server : Int) (m : Incoming) :
    Keeps (Handle.triggered s server m) := by
  refine bind (prefixOf _ _) fun own => ?_
  split
  · exact pure _
  · split
    · exact pure _
    · exact bind contents fun _ => pure _

theorem message (s : Setup) (uptime : Binary64) (m : Incoming) :
    Keeps (Handle.message s uptime m) := by
  refine bind (ofCrash _) fun author => ?_
  split
  · exact pure _
  · refine bind (ofCrash _) fun server? => ?_
    cases server? with
    | none => exact pure _
    | some server =>
      refine bind (triggered _ _ _) fun found => ?_
      cases found with
      | none => exact pure _
      | some call => exact bind (runTemplate _ _ _ _ _) fun _ => pure _

end Keeps

end Handle

end ChatCommands
