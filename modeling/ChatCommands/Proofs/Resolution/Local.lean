import ChatCommands.Proofs.Expr.Evaluation
import ChatCommands.Proofs.Json.Fields
import ChatCommands.Proofs.Resolution.Agreement

/-!
What is done between the arguments of an instruction.

Such a computation counts nothing, reads no template, sends no request, and leaves no user and no
client behind in a variable. The request that an instruction is for is contained in the same way,
but for the sending.
-/

namespace ChatCommands

/-- Whether no variable is a user or a client, as none is that instructions set. -/
def Effects.Plain (e : Effects) : Prop :=
  ∀ b ∈ e.bindings, b.2.Open

/-- Whether a fault is neither the step limit nor a parse error, and one of the given crashes if it
is a crash. -/
def Fault.Within (crashes : Crash → Prop) : Fault → Prop
  | .template (.limit _) | .template (.parse _) => False
  | .template _ => True
  | .crash e => crashes e

/-- Whether an instruction can fail so by itself: neither where a template is read nor where an
instruction is counted or an argument is nested too deep. -/
def Fault.Own : Fault → Prop
  | .template (.parse _) | .template (.limit _) | .template (.instruction (.tooDeep _)) => False
  | _ => True

/-- Whether an instruction can fail so by itself without a request having been sent. -/
def Fault.Unsent : Fault → Prop
  | .template (.request _) => False
  | f => f.Own

theorem Fault.Unsent.own {f : Fault} (unsent : f.Unsent) : f.Own := by
  unfold Unsent at unsent
  split at unsent
  · exact unsent.elim
  · exact unsent

theorem Fault.Own.within {e : TemplateError} (own : (Fault.template e).Own)
    {crashes : Crash → Prop} : (Fault.template e).Within crashes := by
  cases e with
  | parse | limit => exact own
  | instruction | denied | absent | request => trivial

namespace Gate

theorem unsent_of_require {t : Text} {s : Snapshot} {e : TemplateError}
    (refused : require t s = .error e) : (Fault.template e).Unsent := by
  unfold require at refused
  repeat' split at refused
  all_goals cases refused
  all_goals trivial

theorem unsent_of_exclude {t : Text} {s : Snapshot} {e : TemplateError}
    (refused : exclude t s = .error e) : (Fault.template e).Unsent := by
  unfold exclude at refused
  repeat' split at refused
  all_goals cases refused
  all_goals trivial

end Gate

/-- The state after an instruction was counted. -/
def Run.counted (r : Run) (depth : Nat) (i : Instruction) : Run where
  effects := r.effects
  steps := r.steps + 1
  lastInstruction := some i.text
  trace := r.trace ++ [⟨i.text, depth, r.effects⟩]

/-- Whether nothing happened between two states but one request, which got the given reply. -/
def Run.Sends (r : Run) (request : Request) (reply : Except RequestFailure Response)
    (r' : Run) : Prop :=
  ∃ t sent body, r.effects.transport = some t ∧
    t.fetch request.url request.method request.headers body = (reply, sent) ∧
    sent.requests = t.requests ++ [request] ∧
    r' = { r with effects := { r.effects with transport := some sent } }

theorem Effects.Plain.assign {e : Effects} (plain : e.Plain) (name : Text) (j : Json) :
    (e.assign name (.json j)).Plain := by
  intro b member
  rcases Json.mem_setField member with same | old
  · rw [same]
    trivial
  · exact plain b old

namespace Resolve

variable {α β : Type} {crashes : Crash → Prop}

theorem count_outcome (c : Context) (depth : Nat) (i : Instruction) (a : Arena) (start : Run) :
    (count c depth i a : Resolve Unit).outcome start =
      (if c.maxSteps < start.steps + 1 then
        .error (.template (.limit ⟨c.maxSteps, a.text, start.effects.bindings, i.text⟩))
      else .ok (), start.counted depth i) := by
  have unfolded : (count c depth i a : Resolve Unit).outcome start =
      (if c.maxSteps < start.steps + 1 then
        stop (.limit ⟨c.maxSteps, a.text, start.effects.bindings, i.text⟩)
      else pure () : Resolve Unit).outcome (start.counted depth i) := rfl
  rw [unfolded]
  split <;> rfl

/-- Whether a computation that starts here changes effects only, keeps variables plain, and fails
neither at the step limit nor with a parse error, nor with a crash that is not given. -/
def ContainedAt (crashes : Crash → Prop) (x : Resolve α) (start : Run) : Prop :=
  ∃ e, (x.outcome start).2 = { start with effects := e } ∧
    (start.effects.Plain → e.Plain) ∧ ∀ f, (x.outcome start).1 = .error f → f.Within crashes

def Contained (crashes : Crash → Prop) (x : Resolve α) : Prop :=
  ∀ start, ContainedAt crashes x start

/-- Whether a computation is contained and sends no request. -/
def LocalAt (crashes : Crash → Prop) (x : Resolve α) (start : Run) : Prop :=
  ContainedAt crashes x start ∧ (x.outcome start).2.effects.transport = start.effects.transport

def Local (crashes : Crash → Prop) (x : Resolve α) : Prop :=
  ∀ start, LocalAt crashes x start

theorem LocalAt.write {start : Run} {e : Effects} {x : Resolve α}
    (keeps : start.effects.Plain → e.Plain) (unsent : e.transport = start.effects.transport)
    (rest : Local crashes x) : LocalAt crashes (setEffects e >>= fun _ => x) start := by
  obtain ⟨⟨e', state, plain, faults⟩, same⟩ := rest { start with effects := e }
  exact ⟨⟨e', state, fun h => plain (keeps h), faults⟩, same.trans unsent⟩

theorem outcome_effects (f : Effects → Resolve α) (start : Run) :
    (effects >>= f).outcome start = (f start.effects).outcome start := rfl

theorem fetch_outcome (url method : Text) (body : Json) (start : Run) :
    (fetch url method body : Resolve Response).outcome start =
        (.error (.template (.instruction .noTransport)), start) ∨
      ∃ timeout reply next, start.Sends
          ⟨method, url, Transport.defaultHeaders, Transport.dataOf body, timeout⟩ reply next ∧
        (fetch url method body : Resolve Response).outcome start =
          (reply.mapError fun e => .template (.request e), next) := by
  rw [fetch, outcome_effects]
  cases equipped : start.effects.transport with
  | none => exact .inl rfl
  | some t =>
    have recorded : (t.fetch url method Transport.defaultHeaders body).2.requests = t.requests ++
        [⟨method, url, Transport.defaultHeaders, Transport.dataOf body, t.timeout⟩] := by
      unfold Transport.fetch
      dsimp only
      split <;> rfl
    rcases fetched : t.fetch url method Transport.defaultHeaders body with ⟨reply, sent⟩
    rw [fetched] at recorded
    refine .inr ⟨t.timeout, reply, _, ⟨t, sent, body, equipped, fetched, recorded, rfl⟩, ?_⟩
    dsimp only
    rw [fetched]
    cases reply <;> rfl

theorem contained_fetch (url method : Text) (body : Json) :
    Contained crashes (fetch url method body) := by
  intro start
  rw [ContainedAt]
  obtain unequipped | ⟨timeout, reply, next, sends, fetched⟩ := fetch_outcome url method body start
  · rw [unequipped]
    refine ⟨start.effects, rfl, id, fun f same => ?_⟩
    cases same
    trivial
  · obtain ⟨_, sent, _, _, _, _, rfl⟩ := sends
    rw [fetched]
    refine ⟨{ start.effects with transport := some sent }, rfl, id, fun f same => ?_⟩
    cases reply with
    | ok response => cases same
    | error failure =>
      cases same
      trivial

namespace Local

theorem contained {x : Resolve α} (h : Local crashes x) : Contained crashes x :=
  fun start => (h start).1

theorem pure (a : α) : Local crashes (pure a) :=
  fun start => ⟨⟨start.effects, rfl, id, nofun⟩, rfl⟩

theorem throw {f : Fault} (within : f.Within crashes) : Local crashes (throw f : Resolve α) := by
  refine fun start => ⟨⟨start.effects, rfl, id, fun g same => ?_⟩, rfl⟩
  cases same
  exact within

theorem stop {e : TemplateError} (within : (Fault.template e).Within crashes) :
    Local crashes (Resolve.stop e : Resolve α) :=
  throw within

theorem refuse (e : InstructionError) : Local crashes (Resolve.refuse e : Resolve α) :=
  stop trivial

theorem bind {x : Resolve α} {f : α → Resolve β} (first : Local crashes x)
    (second : ∀ a, Local crashes (f a)) : Local crashes (x >>= f) := by
  intro start
  obtain ⟨⟨e, state, plain, faults⟩, unsent⟩ := first start
  rw [LocalAt, ContainedAt, outcome_bind]
  rcases hx : x.outcome start with ⟨f | a, next⟩ <;> simp only [hx] at state faults unsent
  · refine ⟨⟨e, state, plain, fun g same => faults g ?_⟩, unsent⟩
    cases same
    rfl
  · obtain ⟨⟨e', state', plain', faults'⟩, unsent'⟩ := second a next
    subst state
    exact ⟨⟨e', state', fun h => plain' (plain h), faults'⟩, unsent'.trans unsent⟩

theorem effects : Local crashes effects :=
  fun start => ⟨⟨start.effects, rfl, id, nofun⟩, rfl⟩

theorem scope (c : Context) : Local crashes (scope c) :=
  fun start => ⟨⟨start.effects, rfl, id, nofun⟩, rfl⟩

theorem read {f : Effects → Resolve α} (h : ∀ start, LocalAt crashes (f start.effects) start) :
    Local crashes (Resolve.effects >>= f) :=
  h

theorem ofGate {r : Except TemplateError α}
    (h : ∀ e, r = .error e → (Fault.template e).Within crashes) : Local crashes (ofGate r) := by
  cases r with
  | ok a => exact pure a
  | error e => exact stop (h e rfl)

theorem require (t : Text) (s : Snapshot) : Local crashes (Resolve.ofGate (Gate.require t s)) :=
  ofGate fun _ refused => (Gate.unsent_of_require refused).own.within

theorem exclude (t : Text) (s : Snapshot) : Local crashes (Resolve.ofGate (Gate.exclude t s)) :=
  ofGate fun _ refused => (Gate.unsent_of_exclude refused).own.within

theorem ofCrash {r : Except Crash α} (h : ∀ e, r = .error e → crashes e) :
    Local crashes (ofCrash r) := by
  cases r with
  | ok a => exact pure a
  | error e => exact throw (h e rfl)

theorem dataOf {url : Text} {r : Response} (h : crashes .tooManyDigits) :
    Local crashes (dataOf url r) := by
  unfold Resolve.dataOf
  repeat' split
  · exact pure _
  · exact stop trivial
  · exact throw h
  · exact stop trivial

theorem lookUp {c : Context} {path : Text} (all : ∀ e, crashes e) :
    Local crashes (lookUp c path) := by
  refine (scope c).bind fun s => (ofCrash fun e _ => all e).bind fun found => ?_
  cases found with
  | none => exact pure none
  | some v => exact (ofCrash fun e _ => all e).bind fun _ => pure _

end Local

end Resolve

end ChatCommands
