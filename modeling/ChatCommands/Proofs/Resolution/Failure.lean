import ChatCommands.Proofs.Resolution.Arguments
import ChatCommands.Proofs.Resolution.Composition

/-!
What an instruction that fails leaves behind.

Either an instruction in its arguments failed, or it did so itself and then has added nothing to
what they did. What a web request comes to depends on whether it was sent.
-/

namespace ChatCommands

namespace Resolve

/-- What becomes of a state while some of the given texts are resolved, in their order, up to the
first that fails. Only random picks happen in between. -/
inductive Nested (inner : Text → Resolve Text) : List Text → Run → Option Fault → Run → Prop where
  | done {raws : List Text} {start : Run} : Nested inner raws start none start
  | rolled {raws : List Text} {start next final : Run} {cause : Option Fault} :
      start.Rolled next → Nested inner raws next cause final → Nested inner raws start cause final
  | failed {raw : Text} {raws : List Text} {start final : Run} {f : Fault} : '{' ∈ raw →
      (inner raw).outcome start = (.error f, final) →
      Nested inner (raw :: raws) start (some f) final
  | passed {raw t : Text} {raws : List Text} {start next final : Run} {cause : Option Fault} :
      '{' ∈ raw → (inner raw).outcome start = (.ok t, next) →
      Nested inner raws next cause final → Nested inner (raw :: raws) start cause final
  | skipped {raw : Text} {raws : List Text} {start final : Run} {cause : Option Fault} :
      Nested inner raws start cause final → Nested inner (raw :: raws) start cause final

/-- How a computation that hands on texts comes out: with the fault of one of them, with a fault of
its own before it comes to its end, or as the end does. -/
inductive Ended {α : Type} (inner : Text → Resolve Text) (ends : Resolve α → Prop)
    (raws : List Text) (start : Run) : Except Fault α × Run → Prop where
  | nested {f : Fault} {final : Run} : Nested inner raws start (some f) final →
      Ended inner ends raws start (.error f, final)
  | refused {f : Fault} {final : Run} : Nested inner raws start none final → f.Unsent →
      Ended inner ends raws start (.error f, final)
  | last {mid : Run} {x : Resolve α} : Nested inner raws start none mid → ends x →
      Ended inner ends raws start (x.outcome mid)

/-- What becomes of a web request. It is sent once at most, and only what a successful response has
for a text is assigned, to the variable that the first argument names. -/
inductive Requested (inner : Text → Resolve Text) (i : Instruction) (start : Run) :
    Except Fault Text × Run → Prop where
  | nested {f : Fault} {final : Run} :
      Nested inner (Verb.webrequest.handed i) start (some f) final →
      Requested inner i start (.error f, final)
  | refused {f : Fault} {final : Run} :
      Nested inner (Verb.webrequest.handed i) start none final → f.Unsent →
      Requested inner i start (.error f, final)
  | failed {request : Request} {reply : Except RequestFailure Response} {f : Fault}
      {mid final : Run} :
      Nested inner (Verb.webrequest.handed i) start none mid → mid.Sends request reply final →
      f.OfRequest → Requested inner i start (.error f, final)
  | assigned {rawName name : Text} {request : Request} {r : Response} {data : Json}
      {mid sent : Run} :
      Nested inner (Verb.webrequest.handed i) start none mid → mid.Sends request (.ok r) sent →
      r.isSuccess = true → Json.read r.text = .ok data → i.args.head? = some rawName →
      ((nameArgument inner rawName).outcome start).1 = .ok name →
      Requested inner i start (.ok [], sent.assign name (.json data))

section

variable {α β : Type} {inner : Text → Resolve Text} {ends : Resolve α → Prop}
  {raws raws' : List Text} {start next final : Run} {cause : Option Fault}

namespace Nested

theorem cons_mono {raw : Text} (sub : (raw :: raws).Sublist raws')
    (h : ∀ tail, raws.Sublist tail → Nested inner (raw :: tail) start cause final) :
    Nested inner raws' start cause final := by
  induction raws' with
  | nil => cases sub
  | cons other raws' ih =>
    cases sub with
    | cons _ rest => exact .skipped (ih rest)
    | cons_cons _ rest => exact h raws' rest

theorem mono (h : Nested inner raws start cause final) (sub : raws.Sublist raws') :
    Nested inner raws' start cause final := by
  induction h generalizing raws' with
  | done => exact .done
  | rolled roll _ ih => exact .rolled roll (ih sub)
  | failed braced resolved => exact cons_mono sub fun _ _ => .failed braced resolved
  | passed braced resolved _ ih =>
    exact cons_mono sub fun _ rest => .passed braced resolved (ih rest)
  | skipped _ ih => exact ih (List.sublist_of_cons_sublist sub)

theorem append (first : Nested inner raws start none next)
    (second : Nested inner raws' next cause final) :
    Nested inner (raws ++ raws') start cause final := by
  generalize passed : (none : Option Fault) = quiet at first
  induction first with
  | done => exact second.mono (List.sublist_append_right _ _)
  | rolled roll _ ih => exact .rolled roll (ih second passed)
  | failed => cases passed
  | passed braced resolved _ ih => exact .passed braced resolved (ih second passed)
  | skipped _ ih => exact .skipped (ih second passed)

end Nested

namespace Ended

theorem before {result : Except Fault α × Run}
    (step : ∀ {cause final}, Nested inner raws next cause final →
      Nested inner raws' start cause final)
    (h : Ended inner ends raws next result) : Ended inner ends raws' start result := by
  cases h with
  | nested failed => exact .nested (step failed)
  | refused passed unsent => exact .refused (step passed) unsent
  | last passed holds => exact .last (step passed) holds

theorem bind {x : Resolve β} {f : β → Resolve α}
    (first : Ended inner (fun y => ∃ b, y = pure b) raws start (x.outcome start))
    (second : ∀ b next, x.outcome start = (.ok b, next) →
      Ended inner ends raws' next ((f b).outcome next)) :
    Ended inner ends (raws ++ raws') start ((x >>= f).outcome start) := by
  rw [outcome_bind]
  generalize outcome : x.outcome start = result at first second
  cases first with
  | nested failed => exact .nested (failed.mono (List.sublist_append_left _ _))
  | refused passed unsent =>
    exact .refused (passed.mono (List.sublist_append_left _ _)) unsent
  | last passed ends =>
    obtain ⟨b, rfl⟩ := ends
    exact (second b _ rfl).before passed.append

end Ended

theorem Asks.ended {x : Resolve α} (h : Asks inner ends raws x) (start : Run) :
    Ended inner ends raws start (x.outcome start) := by
  induction h generalizing start with
  | finish holds => exact .last .done holds
  | @ask raw raws f braced _ ih =>
    rw [outcome_bind]
    rcases resolved : (inner raw).outcome start with ⟨fault | t, next⟩
    · exact .nested (.failed braced resolved)
    · exact (ih t next).before (.passed braced resolved)
  | skip _ ih => exact (ih start).before .skipped
  | @bind β raws x f idle _ ih =>
    obtain ⟨roll, unsent⟩ := idle start
    rw [outcome_bind]
    rcases outcome : x.outcome start with ⟨fault | a, next⟩ <;> rw [outcome] at roll unsent
    · exact .refused (.rolled roll .done) (unsent fault rfl)
    · exact (ih a next).before (.rolled roll)

theorem nameArgument_ended (raw : Text) (start : Run) :
    Ended inner (fun x => ∃ name, x = pure name) [raw] start
      ((nameArgument inner raw).outcome start) := by
  have asks : Asks inner (fun x => ∃ name, x = pure name) [raw]
      (nameArgument inner raw >>= pure) :=
    .nameArgument fun name => .finish ⟨name, rfl⟩
  rw [bind_pure] at asks
  exact asks.ended start

theorem webrequest_requested (c : Context) (i : Instruction) :
    Requested inner i start ((webrequest c inner i).outcome start) := by
  cases enabled : c.requestsEnabled with
  | false =>
    rw [webrequest_disabled c inner i enabled]
    exact .refused .done trivial
  | true =>
    rw [webrequest_eq c inner enabled]
    split
    · rename_i rawName rawUrl more given
      -- The name is known at the start already, the rest of the arguments comes after it.
      have ended : Ended inner
          (fun x => ∃ name url method body, x = send name url method body ∧
            ((nameArgument inner rawName).outcome start).1 = .ok name)
          (Verb.webrequest.handed i) start
          ((nameArgument inner rawName >>= request inner i rawUrl more.head?).outcome start) := by
        rw [Asks.handed_webrequest given]
        refine (nameArgument_ended rawName start).bind fun name next named => ?_
        refine ((Asks.request i rawUrl more.head? name).imp ?_).ended next
        rintro _ ⟨url, method, body, rfl⟩
        exact ⟨name, url, method, body, rfl, congrArg Prod.fst named⟩
      generalize (nameArgument inner rawName >>= _).outcome start = result at ended
      cases ended with
      | nested failed => exact .nested failed
      | refused passed unsent => exact .refused passed unsent
      | @last mid x passed ends =>
        obtain ⟨name, url, method, body, rfl, named⟩ := ends
        have sent := send_outcome name url method body mid
        generalize (send name url method body).outcome mid = result at sent
        cases sent with
        | unequipped => exact .refused passed trivial
        | failed sends useless => exact .failed passed sends useless
        | assigned sends success json =>
          exact .assigned passed sends success json (by rw [given]; rfl) named
    · exact .refused .done trivial

/-- An instruction that fails leaves the variables, followups and stickers as its arguments left
them, and a web request is sent once at most, never where it fails before it. -/
theorem perform_failure (c : Context) (i : Instruction) (start : Run) :
    (∀ v f final, (perform c inner v i).outcome start = (.error f, final) →
      Nested inner (v.handed i) start (some f) final ∨
        ∃ mid, Nested inner (v.handed i) start none mid ∧ mid.Keeps final ∧ f.Own) ∧
    Requested inner i start ((perform c inner .webrequest i).outcome start) := by
  refine ⟨fun v f final failed => ?_, webrequest_requested c i⟩
  have asks : Asks inner Quiet (v.handed i) _ := Asks.perform c v i
  have ended := asks.ended start
  rw [failed] at ended
  generalize result : ((.error f, final) : Except Fault Text × Run) = ended' at ended
  cases ended with
  | nested failed =>
    cases result
    exact .inl failed
  | refused passed unsent =>
    cases result
    exact .inr ⟨final, passed, .refl final, unsent.own⟩
  | @last mid x passed quiet =>
    obtain ⟨_, _, own⟩ := quiet mid
    rw [← result] at own
    exact .inr ⟨mid, passed, (own f rfl).2, (own f rfl).1⟩

end

/-- The followup in the argument stays, though there is no sticker. -/
theorem perform_failure_sticker :
    let inner (raw : Text) : Resolve Text := followup pure (Instruction.decode raw)
    let start : Run := .start ⟨[], [], [], [], [], none⟩
    let i := Instruction.decode "\x7bsticker;\x7bfollowup;hi\x7d\x7d".toList
    ∃ f final, (perform .bare inner .sticker i).outcome start = (.error f, final) ∧
      final.effects.followups = ["hi".toList] ∧
      (Nested inner (Verb.sticker.handed i) start (some f) final ∨
        ∃ mid, Nested inner (Verb.sticker.handed i) start none mid ∧ mid.Keeps final ∧ f.Own) := by
  intro inner start i
  exact ⟨_, _, rfl, rfl, (perform_failure .bare i start).1 .sticker _ _ rfl⟩

end Resolve

end ChatCommands
