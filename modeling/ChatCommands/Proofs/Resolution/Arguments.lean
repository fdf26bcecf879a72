import ChatCommands.Proofs.Resolution.Local

/-!
Which texts an instruction hands on to be resolved as templates of their own.

Between the arguments an instruction does nothing that is counted, nothing that would read a
template, and nothing of what it is for: that comes last, once everything was checked.
-/

namespace ChatCommands

/-- The texts that an instruction may hand on, in the order in which it does so. -/
def Verb.handed (i : Instruction) : Verb → List Text
  | set =>
    match Resolve.setParts i with
    | .ok (name, value) => [name, value]
    | .error _ => []
  | random => i.args.take 2
  | choose => i.args
  | webrequest => if 3 < i.args.length then i.args.take 3 ++ [i.rest 3] else i.args.take 3
  | marker => []
  | reference => [i.body]
  | var | require | exclude | followup | sticker | condition => [i.rest 0]

/-- Whether a request that was sent fails so: without a response, with one that is of no use, or
with a number in it that is too long to be read. -/
def Fault.OfRequest : Fault → Prop
  | .template (.request _) | .crash .tooManyDigits => True
  | _ => False

theorem Fault.OfRequest.own {f : Fault} (h : f.OfRequest) : f.Own := by
  unfold OfRequest at h
  split at h
  · trivial
  · trivial
  · exact h.elim

namespace Run

/-- Whether nothing but random picks happened between two states. -/
def Rolled (r r' : Run) : Prop :=
  ∃ rolls draws, r' = { r with effects := { r.effects with rolls, draws } }

/-- Whether two states have the same variables, followups and stickers. -/
structure Keeps (r r' : Run) : Prop where
  bindings : r'.effects.bindings = r.effects.bindings
  followups : r'.effects.followups = r.effects.followups
  stickers : r'.effects.stickers = r.effects.stickers

def assign (r : Run) (name : Text) (v : Value) : Run :=
  { r with effects := r.effects.assign name v }

theorem Rolled.refl (r : Run) : r.Rolled r :=
  ⟨r.effects.rolls, r.effects.draws, rfl⟩

theorem Rolled.trans {a b c : Run} (first : a.Rolled b) (second : b.Rolled c) : a.Rolled c := by
  obtain ⟨_, _, rfl⟩ := first
  obtain ⟨rolls, draws, rfl⟩ := second
  exact ⟨rolls, draws, rfl⟩

theorem Rolled.keeps {r r' : Run} (h : r.Rolled r') : r.Keeps r' := by
  obtain ⟨_, _, rfl⟩ := h
  exact ⟨rfl, rfl, rfl⟩

theorem Keeps.refl (r : Run) : r.Keeps r :=
  ⟨rfl, rfl, rfl⟩

theorem Sends.keeps {r r' : Run} {request : Request} {reply : Except RequestFailure Response}
    (h : r.Sends request reply r') : r.Keeps r' := by
  obtain ⟨_, _, _, _, _, _, rfl⟩ := h
  exact ⟨rfl, rfl, rfl⟩

end Run

namespace Resolve

variable {α β : Type}

/-- Whether a computation only picks at random, and fails only by itself. -/
def Idle (x : Resolve α) : Prop :=
  ∀ start, start.Rolled (x.outcome start).2 ∧ ∀ f, (x.outcome start).1 = .error f → f.Unsent

/-- Whether a computation counts no instruction, and fails only by itself and before it changes
what the instruction is for. -/
def Quiet (x : Resolve α) : Prop :=
  ∀ start, (x.outcome start).2.trace = start.trace ∧ (x.outcome start).2.steps = start.steps ∧
    ∀ f, (x.outcome start).1 = .error f → f.Own ∧ start.Keeps (x.outcome start).2

/-- Whether a computation resolves some of the given texts, in their order, then ends in one of the
given ways, and is idle otherwise. -/
inductive Asks (inner : Text → Resolve Text) (ends : Resolve α → Prop) :
    List Text → Resolve α → Prop where
  | finish {raws : List Text} {x : Resolve α} : ends x → Asks inner ends raws x
  | ask {raw : Text} {raws : List Text} {f : Text → Resolve α} : '{' ∈ raw →
      (∀ t, Asks inner ends raws (f t)) → Asks inner ends (raw :: raws) (inner raw >>= f)
  | skip {raw : Text} {raws : List Text} {x : Resolve α} : Asks inner ends raws x →
      Asks inner ends (raw :: raws) x
  | bind {β : Type} {raws : List Text} {x : Resolve β} {f : β → Resolve α} : Idle x →
      (∀ a, Asks inner ends raws (f a)) → Asks inner ends raws (x >>= f)

namespace Idle

theorem pure (a : α) : Idle (pure a) :=
  fun start => ⟨.refl start, nofun⟩

theorem throw {f : Fault} (unsent : f.Unsent) : Idle (throw f : Resolve α) := by
  refine fun start => ⟨.refl start, fun g same => ?_⟩
  cases same
  exact unsent

theorem refuse {e : InstructionError} (unsent : (Fault.template (.instruction e)).Unsent) :
    Idle (Resolve.refuse e : Resolve α) :=
  throw unsent

theorem bind {x : Resolve α} {f : α → Resolve β} (h : Idle x) (rest : ∀ a, Idle (f a)) :
    Idle (x >>= f) := by
  intro start
  obtain ⟨rolled, unsent⟩ := h start
  rw [outcome_bind]
  rcases hx : x.outcome start with ⟨e | a, next⟩ <;> simp only [hx] at rolled unsent
  · refine ⟨rolled, fun g same => unsent g ?_⟩
    cases same
    rfl
  · obtain ⟨rolled', unsent'⟩ := rest a next
    exact ⟨rolled.trans rolled', unsent'⟩

theorem ofCrash (r : Except Crash α) : Idle (Resolve.ofCrash r) := by
  cases r with
  | ok a => exact pure a
  | error c => exact throw trivial

theorem ofGate {r : Except TemplateError α}
    (unsent : ∀ e, r = .error e → (Fault.template e).Unsent) : Idle (Resolve.ofGate r) := by
  cases r with
  | ok a => exact pure a
  | error e => exact throw (unsent e rfl)

theorem effects : Idle effects :=
  fun start => ⟨.refl start, nofun⟩

theorem scope (c : Context) : Idle (scope c) :=
  fun start => ⟨.refl start, nofun⟩

theorem lookUp (c : Context) (path : Text) : Idle (lookUp c path) := by
  refine (scope c).bind fun s => (ofCrash _).bind fun found => ?_
  cases found with
  | none => exact pure none
  | some v => exact (ofCrash _).bind fun _ => pure _

theorem quiet {x : Resolve α} (h : Idle x) : Quiet x := by
  intro start
  obtain ⟨⟨rolls, draws, state⟩, unsent⟩ := h start
  rw [state]
  exact ⟨rfl, rfl, fun f same => ⟨(unsent f same).own, ⟨rfl, rfl, rfl⟩⟩⟩

end Idle

/-- A change of the effects alone is quiet, since it cannot fail. -/
theorem Quiet.write (f : Effects → Effects) (a : α) : Quiet (do
    setEffects (f (← effects))
    return a) :=
  fun _ => ⟨rfl, rfl, nofun⟩

/-- What is done once the arguments of a web request are there. -/
def send (name url method : Text) (body : Json) : Resolve Text := do
  let response ← fetch url method body
  let data ← dataOf url response
  setEffects ((← effects).assign name (.json data))
  return []

/-- What a request comes to once it has all its arguments. The variable is assigned only what a
successful response has for a text. -/
inductive Sent (name : Text) (start : Run) : Except Fault Text × Run → Prop where
  | unequipped : Sent name start (.error (.template (.instruction .noTransport)), start)
  | failed {request : Request} {reply : Except RequestFailure Response} {f : Fault} {next : Run} :
      start.Sends request reply next → f.OfRequest → Sent name start (.error f, next)
  | assigned {request : Request} {r : Response} {data : Json} {next : Run} :
      start.Sends request (.ok r) next → r.isSuccess = true → Json.read r.text = .ok data →
      Sent name start (.ok [], next.assign name (.json data))

theorem dataOf_outcome (url : Text) (r : Response) (start : Run) :
    (∃ f, (dataOf url r : Resolve Json).outcome start = (.error f, start) ∧ f.OfRequest) ∨
      ∃ data, (dataOf url r : Resolve Json).outcome start = (.ok data, start) ∧
        r.isSuccess = true ∧ Json.read r.text = .ok data := by
  unfold dataOf
  split
  · split
    · exact .inr ⟨_, rfl, ‹_›, ‹_›⟩
    · exact .inl ⟨_, rfl, trivial⟩
    · exact .inl ⟨_, rfl, trivial⟩
  · exact .inl ⟨_, rfl, trivial⟩

theorem send_outcome (name url method : Text) (body : Json) (start : Run) :
    Sent name start ((send name url method body).outcome start) := by
  rw [send, outcome_bind]
  obtain unequipped | ⟨timeout, reply, next, sends, fetched⟩ := fetch_outcome url method body start
  · rw [unequipped]
    exact .unequipped
  · rw [fetched]
    cases reply with
    | error e => exact .failed sends trivial
    | ok r =>
      change Sent name start ((dataOf url r >>= _ : Resolve Text).outcome next)
      rw [outcome_bind]
      obtain ⟨f, failed, useless⟩ | ⟨data, read, success, json⟩ := dataOf_outcome url r next
      · rw [failed]
        exact .failed sends useless
      · rw [read]
        exact .assigned sends success json

theorem Quiet.send (name url method : Text) (body : Json) : Quiet (send name url method body) := by
  intro start
  have sent := send_outcome name url method body start
  generalize (Resolve.send name url method body).outcome start = result at sent
  cases sent with
  | unequipped =>
    refine ⟨rfl, rfl, fun f same => ?_⟩
    cases same
    exact ⟨trivial, .refl start⟩
  | failed sends refused =>
    have keeps := sends.keeps
    obtain ⟨_, _, _, _, _, _, rfl⟩ := sends
    refine ⟨rfl, rfl, fun f same => ?_⟩
    cases same
    exact ⟨refused.own, keeps⟩
  | assigned sends =>
    obtain ⟨_, _, _, _, _, _, rfl⟩ := sends
    exact ⟨rfl, rfl, nofun⟩

/-- What is done once the variable of a web request is known. -/
def request (inner : Text → Resolve Text) (i : Instruction) (rawUrl : Text)
    (rawMethod : Option Text) (name : Text) : Resolve Text := do
  let url ← urlArgument inner rawUrl
  let method ← methodArgument inner rawMethod
  let body ← bodyArgument inner i url
  send name url method body

theorem webrequest_disabled (c : Context) (inner : Text → Resolve Text) (i : Instruction)
    (disabled : c.requestsEnabled = false) :
    webrequest c inner i = refuse .requestsDisabled := by
  rw [webrequest, disabled]
  rfl

theorem webrequest_eq (c : Context) (inner : Text → Resolve Text) {i : Instruction}
    (enabled : c.requestsEnabled = true) :
    webrequest c inner i =
      match i.args with
      | rawName :: rawUrl :: more =>
        nameArgument inner rawName >>= request inner i rawUrl more.head?
      | _ => refuse .requestWithoutUrl := by
  rw [webrequest, enabled]
  rfl

theorem unsent_of_setParts {i : Instruction} {e : InstructionError} (h : setParts i = .error e) :
    (Fault.template (.instruction e)).Unsent := by
  unfold setParts at h
  repeat' split at h
  all_goals cases h
  all_goals trivial

namespace Asks

variable {inner : Text → Resolve Text} {ends : Resolve α → Prop} {raws : List Text}

theorem mono {raws' : List Text} {x : Resolve α} (h : Asks inner ends raws x)
    (sub : raws.Sublist raws') : Asks inner ends raws' x := by
  induction h generalizing raws' with
  | finish h => exact .finish h
  | @ask raw raws f braced _ ih =>
    generalize whole : raw :: raws = list at sub
    induction sub with
    | slnil => cases whole
    | cons t _ skipped => exact .skip (skipped whole)
    | cons_cons t rest _ =>
      cases whole
      exact .ask braced fun a => ih a rest
  | skip _ ih => exact ih (List.sublist_of_cons_sublist sub)
  | bind idle _ ih => exact .bind idle fun a => ih a sub

theorem imp {ends' : Resolve α → Prop} {x : Resolve α} (h : Asks inner ends raws x)
    (weaken : ∀ y, ends y → ends' y) : Asks inner ends' raws x := by
  induction h with
  | finish h => exact .finish (weaken _ h)
  | ask braced _ ih => exact .ask braced ih
  | skip _ ih => exact .skip ih
  | bind idle _ ih => exact .bind idle ih

theorem argument {raw : Text} {f : Text → Resolve α} (rest : ∀ t, Asks inner ends raws (f t)) :
    Asks inner ends (raw :: raws) (Resolve.argument inner raw >>= f) := by
  unfold Resolve.argument
  split
  · exact .ask ‹_› rest
  · rw [pure_bind]
    exact .skip (rest raw)

theorem nameArgument {raw : Text} {f : Text → Resolve α} (rest : ∀ t, Asks inner ends raws (f t)) :
    Asks inner ends (raw :: raws) (Resolve.nameArgument inner raw >>= f) := by
  rw [Resolve.nameArgument, bind_assoc]
  refine argument fun t => .bind ?_ rest
  dsimp only
  split
  · exact .pure _
  · exact .refuse trivial

theorem bound {i : Instruction} {raw : Text} {f : Int → Resolve α}
    (rest : ∀ n, Asks inner ends raws (f n)) :
    Asks inner ends (raw :: raws) (Resolve.bound inner i raw >>= f) := by
  rw [Resolve.bound, bind_assoc]
  refine argument fun t => .bind ?_ rest
  dsimp only
  split
  · exact .pure _
  · exact .refuse trivial

theorem urlArgument {raw : Text} {f : Text → Resolve α} (rest : ∀ t, Asks inner ends raws (f t)) :
    Asks inner ends (raw :: raws) (Resolve.urlArgument inner raw >>= f) := by
  rw [Resolve.urlArgument, bind_assoc]
  refine argument fun t => ?_
  rw [bind_assoc]
  refine .bind (.ofCrash _) fun scheme => .bind ?_ rest
  split
  · exact .pure _
  · exact .refuse trivial

theorem methodArgument {raw : Option Text} {f : Text → Resolve α}
    (rest : ∀ t, Asks inner ends raws (f t)) :
    Asks inner ends (raw.toList ++ raws) (Resolve.methodArgument inner raw >>= f) := by
  cases raw with
  | none => exact rest _
  | some raw =>
    unfold Resolve.methodArgument
    dsimp only
    split
    · exact .skip (rest _)
    · rw [bind_assoc]
      refine argument fun t => ?_
      exact rest _

theorem bodyArgument {i : Instruction} {url : Text} {f : Json → Resolve α}
    (rest : ∀ body, Asks inner ends [] (f body)) :
    Asks inner ends (if 3 < i.args.length then [i.rest 3] else [])
      (Resolve.bodyArgument inner i url >>= f) := by
  unfold Resolve.bodyArgument
  by_cases few : i.args.length ≤ 3
  · rw [if_pos few, if_neg (by omega), pure_bind]
    exact rest .null
  · rw [if_neg few, if_pos (by omega), bind_assoc]
    refine argument fun t => .bind ?_ rest
    dsimp only
    split
    · exact .pure _
    · exact .refuse trivial
    · exact .throw trivial

theorem single {raw : Text} (member : raw ∈ raws) :
    Asks inner Quiet raws (Resolve.argument inner raw) := by
  have all : Asks inner Quiet [raw] (Resolve.argument inner raw >>= pure) :=
    argument fun t => .finish (Idle.pure t).quiet
  rw [bind_pure] at all
  exact all.mono (List.singleton_sublist.mpr member)

theorem set (i : Instruction) : Asks inner Quiet (Verb.set.handed i) (Resolve.set inner i) := by
  rw [Verb.handed, Resolve.set]
  cases parts : setParts i with
  | error e => exact .finish (Idle.quiet (.refuse (unsent_of_setParts parts)))
  | ok parts => exact nameArgument fun name => argument fun value => .finish (.write _ _)

theorem random (i : Instruction) :
    Asks inner Quiet (Verb.random.handed i) (Resolve.random inner i) := by
  rw [Verb.handed, Resolve.random]
  split
  · rename_i first second rest eq
    rw [eq]
    refine bound fun a => bound fun b => .finish fun start => ⟨rfl, rfl, nofun⟩
  · exact .finish (Idle.quiet (.refuse trivial))

theorem choose (i : Instruction) :
    Asks inner Quiet (Verb.choose.handed i) (Resolve.choose inner i) := by
  have pick : Idle (do
      let e ← effects
      setEffects (e.drawIndex i.args.length).2
      return (e.drawIndex i.args.length).1) :=
    fun start => ⟨⟨_, _, rfl⟩, nofun⟩
  rw [Verb.handed, Resolve.choose]
  split
  · exact .finish (Idle.pure _).quiet
  · -- The pick comes first, so it is split off as what is done before the argument.
    have all : Asks inner Quiet i.args ((do
        let e ← effects
        setEffects (e.drawIndex i.args.length).2
        return (e.drawIndex i.args.length).1) >>= fun n =>
          Resolve.argument inner (i.args[n]?.getD [])) := by
      refine .bind pick fun n => ?_
      cases picked : i.args[n]? with
      | none => exact .finish (Idle.pure _).quiet
      | some raw => exact single (List.mem_of_getElem? picked)
    simpa only [bind_assoc, pure_bind] using all

/-- Behind its variable a web request hands on its other arguments, and then does nothing but
send. -/
theorem request (i : Instruction) (rawUrl : Text) (rawMethod : Option Text) (name : Text) :
    Asks inner (fun x => ∃ url method body, x = send name url method body)
      (rawUrl :: (rawMethod.toList ++ if 3 < i.args.length then [i.rest 3] else []))
      (Resolve.request inner i rawUrl rawMethod name) :=
  urlArgument fun url => methodArgument fun method => bodyArgument fun body =>
    .finish ⟨url, method, body, rfl⟩

theorem handed_webrequest {i : Instruction} {rawName rawUrl : Text} {more : List Text}
    (given : i.args = rawName :: rawUrl :: more) : Verb.webrequest.handed i =
      rawName :: rawUrl :: (more.head?.toList ++
        if 3 < i.args.length then [i.rest 3] else []) := by
  cases more with
  | nil => simp [Verb.handed, given]
  | cons method more => cases more <;> simp [Verb.handed, given]

theorem webrequest (c : Context) (i : Instruction) :
    Asks inner Quiet (Verb.webrequest.handed i) (Resolve.webrequest c inner i) := by
  cases enabled : c.requestsEnabled with
  | false =>
    rw [webrequest_disabled c inner i enabled]
    exact .finish (Idle.quiet (.refuse trivial))
  | true =>
    rw [webrequest_eq c inner enabled]
    split
    · rename_i rawName rawUrl more given
      rw [handed_webrequest given]
      refine nameArgument fun name => (request i rawUrl more.head? name).imp ?_
      rintro _ ⟨url, method, body, rfl⟩
      exact .send name url method body
    · exact .finish (Idle.quiet (.refuse trivial))

/-- What an instruction does hands on nothing else. -/
theorem perform (c : Context) (v : Verb) (i : Instruction) :
    Asks inner Quiet (v.handed i) (Resolve.perform c inner v i) := by
  cases v with
  | set => exact set i
  | random => exact random i
  | choose => exact choose i
  | webrequest => exact webrequest c i
  | var | reference =>
    exact argument fun t => .finish ((Idle.lookUp c t).bind fun _ => .pure _).quiet
  | require =>
    have passes (t : Text) := Idle.ofGate fun _ => Gate.unsent_of_require (t := t) (s := c.snapshot)
    exact argument fun t => .finish ((passes t).bind fun _ => .pure _).quiet
  | exclude =>
    have passes (t : Text) := Idle.ofGate fun _ => Gate.unsent_of_exclude (t := t) (s := c.snapshot)
    exact argument fun t => .finish ((passes t).bind fun _ => .pure _).quiet
  | followup => exact argument fun t => .finish (.write _ _)
  | sticker =>
    refine argument fun t => .finish ?_
    dsimp only
    split
    · exact Idle.quiet (.throw trivial)
    · intro start
      rw [outcome_effects]
      split
      · refine ⟨rfl, rfl, fun f same => ?_⟩
        cases same
        exact ⟨trivial, .refl start⟩
      · exact ⟨rfl, rfl, nofun⟩
  | condition => exact .finish (Idle.pure _).quiet
  | marker => exact .finish (Idle.pure _).quiet

theorem condition (c : Context) (i : Instruction) :
    Asks inner Quiet (Verb.condition.handed i) (Resolve.condition c inner i) :=
  argument fun _ => .finish ((Idle.scope c).bind fun _ => .ofCrash _).quiet

end Asks

end Resolve

end ChatCommands
