import ChatCommands.Proofs.Resolution.Escape
import ChatCommands.Proofs.Text.Upper

/-!
Which requests a resolution sends.

Only a web request that was counted sends one, and it does so last: what its arguments came to, one
after the other, is the request. The URL, the method and the data of every request follow from that.
-/

namespace ChatCommands

open Resolve

def Effects.requests (e : Effects) : List Request :=
  (e.transport.map Transport.requests).getD []

namespace Resolve

/-- What a web request that starts here sends, once all its arguments are there. -/
inductive Submits (inner : Text → Resolve Text) (i : Instruction) (start : Run) :
    Request → Prop where
  | submit {rawName rawUrl : Text} {more : List Text} {name url method : Text} {body : Json}
      {named located chosen written : Run} {timeout : Binary64} :
      i.args = rawName :: rawUrl :: more →
      (nameArgument inner rawName).outcome start = (.ok name, named) →
      (urlArgument inner rawUrl).outcome named = (.ok url, located) →
      (methodArgument inner more.head?).outcome located = (.ok method, chosen) →
      (bodyArgument inner i url).outcome chosen = (.ok body, written) →
      Submits inner i start
        ⟨method, url, Transport.defaultHeaders, Transport.dataOf body, timeout⟩

end Resolve

/-- Whether an instruction that was counted is a web request that sends this. -/
def Moment.Submits (c : Context) (m : Moment) (r : Request) : Prop :=
  Verb.ofKeyword m.instruction.keyword = .webrequest ∧
    ∃ start, start.effects = m.effects ∧ Resolve.Submits (m.inner c) m.instruction start r

namespace Resolve

variable {α β : Type} {c : Context}

/-- Whether a computation only adds to what was counted and to what was sent, and sends a request
for a given cause or for an instruction that it counted. -/
def Reports (c : Context) (cause : Run → Request → Prop) (x : Resolve α) : Prop :=
  ∀ start, ∃ (counted : List Moment) (sent : List Request),
    (x.outcome start).2.trace = start.trace ++ counted ∧
    (x.outcome start).2.effects.requests = start.effects.requests ++ sent ∧
    ∀ r ∈ sent, cause start r ∨ ∃ m ∈ counted, m.Submits c r

def Accounted (c : Context) (x : Resolve α) : Prop :=
  Reports c (fun _ _ => False) x

namespace Reports

variable {cause cause' : Run → Request → Prop}

theorem mono {x : Resolve α} (h : Reports c cause x) (weaken : ∀ s r, cause s r → cause' s r) :
    Reports c cause' x := by
  intro start
  obtain ⟨counted, sent, trace, requests, all⟩ := h start
  exact ⟨counted, sent, trace, requests, fun r hr => (all r hr).imp_left (weaken start r)⟩

theorem bind {causes : α → Run → Request → Prop} {x : Resolve α} {f : α → Resolve β}
    (first : Reports c cause x) (second : ∀ a, Reports c (causes a) (f a)) :
    Reports c (fun s r => cause s r ∨ ∃ a s', x.outcome s = (.ok a, s') ∧ causes a s' r)
      (x >>= f) := by
  intro start
  obtain ⟨counted, sent, trace, requests, all⟩ := first start
  rw [outcome_bind]
  rcases hx : x.outcome start with ⟨f | a, next⟩ <;> simp only [hx] at trace requests
  · exact ⟨counted, sent, trace, requests, fun r hr => (all r hr).imp_left .inl⟩
  · obtain ⟨more, sent', trace', requests', all'⟩ := second a next
    refine ⟨counted ++ more, sent ++ sent', ?_, ?_, fun r hr => ?_⟩
    · rw [trace', trace, List.append_assoc]
    · rw [requests', requests, List.append_assoc]
    · rcases List.mem_append.mp hr with earlier | later
      · rcases all r earlier with here | ⟨m, member, submits⟩
        · exact .inl (.inl here)
        · exact .inr ⟨m, List.mem_append_left _ member, submits⟩
      · rcases all' r later with here | ⟨m, member, submits⟩
        · exact .inl (.inr ⟨a, next, hx, here⟩)
        · exact .inr ⟨m, List.mem_append_right _ member, submits⟩

theorem throw (f : Fault) : Reports c cause (throw f : Resolve α) :=
  fun _ => ⟨[], [], (List.append_nil _).symm, (List.append_nil _).symm, nofun⟩

theorem ofLocal {x : Resolve α} (h : Local (fun _ => True) x) : Reports c cause x := by
  intro start
  obtain ⟨⟨e, state, _, _⟩, unsent⟩ := h start
  refine ⟨[], [], ?_, ?_, nofun⟩
  · rw [state, List.append_nil]
  · rw [Effects.requests, unsent, List.append_nil]
    rfl

theorem fetch (url method : Text) (body : Json) : Reports c (fun _ r => ∃ timeout,
    r = ⟨method, url, Transport.defaultHeaders, Transport.dataOf body, timeout⟩)
      (fetch url method body) := by
  intro start
  obtain unequipped | ⟨timeout, reply, next, sends, fetched⟩ := fetch_outcome url method body start
  · rw [unequipped]
    exact ⟨[], [], (List.append_nil _).symm, (List.append_nil _).symm, nofun⟩
  · obtain ⟨t, sent, _, equipped, _, recorded, rfl⟩ := sends
    rw [fetched]
    let request : Request :=
      ⟨method, url, Transport.defaultHeaders, Transport.dataOf body, timeout⟩
    refine ⟨[], [request], (List.append_nil _).symm, ?_, ?_⟩
    · rw [Effects.requests, Effects.requests, equipped]
      exact recorded
    · exact List.forall_mem_singleton.mpr (.inl ⟨timeout, rfl⟩)

end Reports

def reporting (c : Context) : Lifting fun _ => True where
  rel x _ := Accounted c x
  refl := Reports.ofLocal
  bind first second := (first.bind second).mono fun _ _ => by
    rintro (absurd | ⟨_, _, _, absurd⟩) <;> exact absurd

theorem accounted_count (depth : Nat) (i : Instruction) (a : Arena) :
    Accounted c (count c depth i a) := by
  intro start
  rw [count_outcome]
  exact ⟨_, [], rfl, (List.append_nil _).symm, nofun⟩

theorem accounted_counted {depth : Nat} {t : Text} {a : Arena} {cause : Run → Request → Prop}
    {x : Resolve α} (h : Reports c cause x)
    (submits : ∀ start r, cause start r → Moment.Submits c ⟨t, depth, start.effects⟩ r) :
    Accounted c (count c depth (Instruction.decode t) a >>= fun _ => x) := by
  intro start
  let here : Moment := ⟨t, depth, start.effects⟩
  let next : Run := start.counted depth (Instruction.decode t)
  rw [outcome_bind, count_outcome]
  by_cases last : c.maxSteps < start.steps + 1
  · rw [if_pos last]
    exact ⟨[here], [], rfl, (List.append_nil _).symm, nofun⟩
  · rw [if_neg last]
    -- What the rest sends for a cause of its own is sent by the instruction counted here.
    obtain ⟨more, sent, trace, requests, all⟩ := h next
    refine ⟨here :: more, sent, ?_, requests, fun r hr => .inr ?_⟩
    · rw [trace]
      exact List.append_assoc start.trace [here] more
    · rcases all r hr with cause | ⟨m, member, submitted⟩
      · exact ⟨here, List.mem_cons_self, submits next r cause⟩
      · exact ⟨m, List.mem_cons_of_mem _ member, submitted⟩

theorem Reports.send (name url method : Text) (body : Json) : Reports c (fun _ r => ∃ timeout,
    r = ⟨method, url, Transport.defaultHeaders, Transport.dataOf body, timeout⟩)
      (send name url method body) := by
  have rest (response : Response) : Accounted c (do
      let data ← dataOf url response
      setEffects ((← effects).assign name (.json data))
      return ([] : Text)) := by
    refine .ofLocal (.bind (.dataOf trivial) fun data => .read fun _ => ?_)
    exact LocalAt.write (Effects.Plain.assign · name data) rfl (.pure _)
  refine ((Reports.fetch url method body).bind rest).mono fun s r => ?_
  rintro (sent | ⟨_, _, _, absurd⟩)
  · exact sent
  · exact absurd.elim

theorem reports_webrequest {inner : Text → Resolve Text}
    (nested : ∀ t, (reporting c).rel (inner t) (inner t)) (i : Instruction) :
    Reports c (Submits inner i) (webrequest c inner i) := by
  cases enabled : c.requestsEnabled with
  | false =>
    rw [webrequest_disabled c inner i enabled]
    exact .throw _
  | true =>
    rw [webrequest_eq c inner enabled]
    split
    · rename_i rawName rawUrl more args
      have all := Reports.bind ((reporting c).nameArgument nested rawName) fun name =>
        Reports.bind ((reporting c).urlArgument nested (fun _ => trivial) rawUrl) fun url =>
        Reports.bind ((reporting c).methodArgument nested more.head?) fun method =>
        Reports.bind ((reporting c).bodyArgument nested (fun _ => trivial) i url) fun body =>
        Reports.send name url method body
      refine all.mono fun s r => ?_
      -- The arguments send nothing by themselves, so that only the last cause is left.
      rintro (absurd | ⟨name, named, first, absurd | ⟨url, located, second, absurd |
        ⟨method, chosen, third, absurd | ⟨body, written, fourth, timeout, rfl⟩⟩⟩⟩)
      · exact absurd.elim
      · exact absurd.elim
      · exact absurd.elim
      · exact absurd.elim
      · exact .submit args first second third fourth
    · exact .throw _

theorem accounted_all {levels : Nat} (below : levels ≤ maxNestedInstructions)
    (inside : ∀ t, Accounted c (nested c levels t)) :
    (reporting c).Executes c c (nested c levels) (nested c levels)
      (maxNestedInstructions - levels) := by
  have counted (i : Instruction) (a : Arena) : (reporting c).rel
      (count c (maxNestedInstructions - levels) i a)
      (count c (maxNestedInstructions - levels) i a) := accounted_count _ i a
  constructor
  · intro t a i
    refine (reporting c).perform inside rfl (counted i a) fun v hv verb => ?_
    simp only [List.mem_cons, List.not_mem_nil, or_false] at hv
    rcases hv with rfl | rfl | rfl | rfl | rfl
    · refine (reporting c).bind (counted i a) fun _ => ?_
      exact (reporting c).lookUp inside (fun _ => trivial) rfl _ _
    · exact (reporting c).bind (counted i a) fun _ => (reporting c).require inside rfl i
    · exact (reporting c).bind (counted i a) fun _ => (reporting c).exclude inside rfl i
    · refine accounted_counted (reports_webrequest inside i) fun start r submits => ?_
      exact ⟨verb, start, rfl, by rwa [Moment.inner_eq_nested c below]⟩
    · refine (reporting c).bind (counted i a) fun _ => ?_
      exact (reporting c).lookUp inside (fun _ => trivial) rfl _ _
  · intro t a i _
    refine (reporting c).bind (counted i a) fun _ => ?_
    exact (reporting c).condition inside (fun _ => trivial) rfl i

theorem accounted_text {levels : Nat} (below : levels ≤ maxNestedInstructions) (t : Text) :
    Accounted c (text c levels t) := by
  have whole {levels : Nat} (below : levels ≤ maxNestedInstructions)
      (inside : ∀ t, Accounted c (nested c levels t)) (t : Text) :
      Accounted c (text c levels t) := by
    rw [text_eq_level]
    exact (reporting c).level (accounted_all below inside) trivial (fun _ => Reports.throw _) t
  -- By induction on the levels that are left: the innermost refuses, and sends nothing.
  induction levels generalizing t with
  | zero => exact whole below (fun _ => Reports.throw _) t
  | succ levels ih => exact whole below (ih (Nat.le_of_succ_le below)) t

end Resolve

/-- Whether a web request that was counted resolves its third argument to this. -/
def Moment.Names (c : Context) (m : Moment) (t : Text) : Prop :=
  ∃ name url raw more, m.instruction.args = name :: url :: raw :: more ∧ Gives (do
    let _ ← nameArgument (m.inner c) name
    let _ ← urlArgument (m.inner c) url
    argument (m.inner c) raw) m.effects t

/-- Whether a web request that was counted resolves its arguments from the fourth on to this. -/
def Moment.Carries (c : Context) (m : Moment) (t : Text) : Prop :=
  ∃ name url more, m.instruction.args = name :: url :: more ∧ Gives (do
    let _ ← nameArgument (m.inner c) name
    let _ ← urlArgument (m.inner c) url
    let _ ← methodArgument (m.inner c) more.head?
    argument (m.inner c) (m.instruction.rest 3)) m.effects t

theorem Transport.dataOf_eq_some {v : Json} (other : v ≠ .null) :
    dataOf v = some (v.write true) := by
  unfold dataOf
  split
  · exact absurd rfl other
  · rfl

/-- What every request has, wherever its parts come from. -/
structure Request.Formed (r : Request) : Prop where
  url_trimmed : Text.strip r.url = r.url
  scheme : ∃ s ∈ ["http".toList, "https".toList], Url.scheme r.url = .ok s
  headers : r.headers = [("Content-Type".toList, "application/json".toList),
    ("Accept".toList, "application/json".toList)]
  method_trimmed : Text.strip r.method = r.method
  method_upper : Text.upper r.method = r.method

namespace Resolve

variable {inner : Text → Resolve Text} {start next : Run}

theorem urlArgument_ok {raw url : Text}
    (h : (urlArgument inner raw).outcome start = (.ok url, next)) :
    ∃ t, url = Text.strip t ∧ ∃ s ∈ ["http".toList, "https".toList], Url.scheme url = .ok s := by
  obtain ⟨t, resolved, _, parsed⟩ := outcome_bind_eq_ok.mp h
  obtain ⟨s, checked, scheme, allowed⟩ := outcome_bind_eq_ok.mp parsed
  cases known : Url.scheme (Text.strip t) with
  | error e =>
    rw [known] at scheme
    cases scheme
  | ok s' =>
    rw [known] at scheme
    cases scheme
    split at allowed
    · rename_i web
      cases allowed
      exact ⟨t, rfl, s, by simpa using web, known⟩
    · cases allowed

theorem methodArgument_ok {rawMethod : Option Text} {method : Text}
    (h : (methodArgument inner rawMethod).outcome start = (.ok method, next)) :
    (method = defaultMethod ∧ ∀ raw ∈ rawMethod, Text.blank raw = true) ∨
      ∃ raw ∈ rawMethod, Text.blank raw = false ∧ ∃ t,
        (argument inner raw).outcome start = (.ok t, next) ∧
        method = Text.upper (Text.strip t) := by
  cases rawMethod with
  | none =>
    cases h
    exact .inl ⟨rfl, nofun⟩
  | some raw =>
    rw [methodArgument] at h
    cases blank : Text.blank raw with
    | true =>
      rw [if_pos blank] at h
      cases h
      refine .inl ⟨rfl, fun _ same => ?_⟩
      cases same
      exact blank
    | false =>
      rw [if_neg (by simp [blank])] at h
      obtain ⟨t, _, resolved, raised⟩ := outcome_bind_eq_ok.mp h
      cases raised
      exact .inr ⟨raw, rfl, blank, t, resolved, rfl⟩

theorem bodyArgument_ok {i : Instruction} {url : Text} {body : Json}
    (h : (bodyArgument inner i url).outcome start = (.ok body, next)) :
    if i.args.length ≤ 3 then body = .null
    else ∃ t, (argument inner (i.rest 3)).outcome start = (.ok t, next) ∧
      Json.read (unescape bodyCharacters t) = .ok body := by
  rw [bodyArgument] at h
  split
  · rw [if_pos ‹_›] at h
    cases h
    rfl
  · rw [if_neg ‹_›] at h
    obtain ⟨t, _, resolved, read⟩ := outcome_bind_eq_ok.mp h
    dsimp only at read
    split at read
    · cases read
      exact ⟨t, resolved, ‹_›⟩
    · cases read
    · cases read

theorem methodArgument_settled {rawMethod : Option Text} {method : Text}
    (h : (methodArgument inner rawMethod).outcome start = (.ok method, next)) :
    Text.strip method = method ∧ Text.upper method = method := by
  obtain ⟨rfl, _⟩ | ⟨_, _, _, t, _, rfl⟩ := methodArgument_ok h
  · decide +kernel
  · exact ⟨Text.strip_upper_strip t, Text.upper_upper _⟩

theorem Submits.formed {i : Instruction} {r : Request} (h : Submits inner i start r) :
    r.Formed := by
  obtain ⟨_, _, located, chosen, _⟩ := h
  obtain ⟨_, rfl, scheme⟩ := urlArgument_ok located
  obtain ⟨trimmed, upper⟩ := methodArgument_settled chosen
  exact ⟨Text.strip_strip _, scheme, rfl, trimmed, upper⟩

end Resolve

namespace Moment.Submits

variable {c : Context} {m : Moment} {r : Request}

theorem method (h : m.Submits c r) :
    match m.instruction.args[2]? with
    | none => r.method = "GET".toList
    | some raw =>
      if Text.blank raw then r.method = "GET".toList
      else ∃ t, m.Names c t ∧ r.method = Text.upper (Text.strip t) := by
  obtain ⟨_, start, same, submitted⟩ := h
  obtain @⟨name, url, more, _, _, _, _, _, _, next, _, _, args, named, located, chosen, _⟩ :=
    submitted
  have third : m.instruction.args[2]? = more.head? := by
    rw [args, List.head?_eq_getElem?]
    rfl
  rw [third]
  obtain ⟨default, blank⟩ | ⟨raw, given, visible, t, resolved, raised⟩ := methodArgument_ok chosen
  · cases more with
    | nil => exact default
    | cons raw more =>
      rw [List.head?_cons]
      dsimp only
      rw [if_pos (blank raw rfl)]
      exact default
  · rw [given]
    dsimp only
    rw [if_neg (by simp [visible])]
    cases more with
    | nil => cases given
    | cons first more =>
      cases given
      refine ⟨t, ⟨name, url, raw, more, args, start, next, same, ?_⟩, raised⟩
      rw [outcome_bind_ok named, outcome_bind_ok located, resolved]

theorem data (h : m.Submits c r) :
    if m.instruction.args.length ≤ 3 then r.data = none
    else ∃ t v, m.Carries c t ∧ Json.read (unescape bodyCharacters t) = .ok v ∧
      r.data = Transport.dataOf v := by
  obtain ⟨_, start, same, submitted⟩ := h
  obtain @⟨name, url, more, _, _, _, _, _, _, _, written, _, args, named, located, chosen, read⟩ :=
    submitted
  have body := bodyArgument_ok read
  split at body
  · rw [if_pos ‹_›, body]
    rfl
  · rw [if_neg ‹_›]
    obtain ⟨t, resolved, json⟩ := body
    refine ⟨t, _, ⟨name, url, more, args, start, written, same, ?_⟩, json, rfl⟩
    rw [outcome_bind_ok named, outcome_bind_ok located, outcome_bind_ok chosen, resolved]

end Moment.Submits

/-- What is sent: the URL and the method are trimmed, the method is in upper case. It is empty where
an argument is there for it that is not blank as it is written, but comes to a blank text. -/
theorem resolve_requests (c : Context) (t : Text) (start : Run) :
    ∃ (counted : List Moment) (sent : List Request),
      (resolve c t start).2.trace = start.trace ++ counted ∧
      (resolve c t start).2.effects.requests = start.effects.requests ++ sent ∧
      ∀ r ∈ sent, r.Formed ∧ ∃ m ∈ counted,
        Verb.ofKeyword m.instruction.keyword = .webrequest ∧
        match m.instruction.args[2]? with
        | none => r.method = "GET".toList
        | some raw =>
          if Text.blank raw then r.method = "GET".toList
          else ∃ method, m.Names c method ∧ r.method = Text.upper (Text.strip method) ∧
            (r.method = [] ↔ Text.blank method = true) := by
  obtain ⟨counted, sent, trace, requests, all⟩ :=
    accounted_text (c := c) (Nat.le_refl maxNestedInstructions) t start
  refine ⟨counted, sent, trace, requests, fun r member => ?_⟩
  obtain ⟨m, inside, submits⟩ := (all r member).resolve_left id
  have method := submits.method
  obtain ⟨verb, _, _, submitted⟩ := submits
  refine ⟨submitted.formed, m, inside, verb, ?_⟩
  split
  · simpa [*] using method
  · rename_i raw third
    rw [third] at method
    dsimp only at method
    split at method
    · rwa [if_pos ‹_›]
    · rw [if_neg ‹_›]
      obtain ⟨t, names, raised⟩ := method
      refine ⟨t, names, raised, ?_⟩
      rw [raised, Text.upper_eq_nil_iff, Text.blank, List.isEmpty_iff]

def Run.online : Run :=
  .start ⟨[], [], [], [], [], some ⟨.finite false 0 0, [.response ⟨200, [], "1".toList⟩], []⟩⟩

/-- A method that comes to nothing is sent as it is. -/
theorem empty_method_sent : ¬ ∀ (c : Context) (t : Text) (start : Run),
    start.effects.requests = [] →
      ∀ r ∈ (resolve c t start).2.effects.requests, r.method ≠ [] := by
  intro claim
  have sent : (resolve .bare "\x7bwebrequest;d;http://x;\x7bset;m;POST\x7d\x7d".toList
      .online).2.effects.requests.map Request.method = [[]] := by cbv
  obtain ⟨r, member, empty⟩ := List.mem_map.mp (sent ▸ List.mem_singleton_self ([] : Text))
  exact claim _ _ _ rfl r member empty

/-- The data of a request is the JSON of its body, except that a body which is null is not sent. -/
theorem resolve_request_data (c : Context) (t : Text) (start : Run) :
    ∃ (counted : List Moment) (sent : List Request),
      (resolve c t start).2.trace = start.trace ++ counted ∧
      (resolve c t start).2.effects.requests = start.effects.requests ++ sent ∧
      ∀ r ∈ sent, ∃ m ∈ counted, Verb.ofKeyword m.instruction.keyword = .webrequest ∧
        if m.instruction.args.length ≤ 3 then r.data = none
        else ∃ body v, m.Carries c body ∧ Json.read (unescape bodyCharacters body) = .ok v ∧
          (v = .null → r.data = none) ∧
          (v ≠ .null → r.data = some (v.write true) ∧
            (Json.read (v.write true) = .ok v → r.data.map Json.read = some (.ok v))) := by
  obtain ⟨counted, sent, trace, requests, all⟩ :=
    accounted_text (c := c) (Nat.le_refl maxNestedInstructions) t start
  refine ⟨counted, sent, trace, requests, fun r member => ?_⟩
  obtain ⟨m, inside, submits⟩ := (all r member).resolve_left id
  refine ⟨m, inside, submits.1, ?_⟩
  have data := submits.data
  split at data
  · rwa [if_pos ‹_›]
  · rw [if_neg ‹_›]
    obtain ⟨body, v, carries, read, written⟩ := data
    refine ⟨body, v, carries, read, fun null => ?_, fun other => ?_⟩
    · rw [written, null]
      rfl
    · have sent := written.trans (Transport.dataOf_eq_some other)
      refine ⟨sent, fun back => ?_⟩
      rw [sent, Option.map_some, back]

/-- A body that is null is not sent, though it is there. -/
theorem null_body_unsent : ¬ ∀ (c : Context) (t : Text) (start : Run),
    ∃ (counted : List Moment) (sent : List Request),
      (resolve c t start).2.trace = start.trace ++ counted ∧
      (resolve c t start).2.effects.requests = start.effects.requests ++ sent ∧
      ∀ r ∈ sent, ∃ m ∈ counted, Verb.ofKeyword m.instruction.keyword = .webrequest ∧
        (3 < m.instruction.args.length → r.data ≠ none) := by
  intro claim
  have ran : (resolve .bare "\x7bwebrequest;d;http://x;POST;null\x7d".toList
        .online).2.trace.map (fun m => m.instruction.args.length) = [4] ∧
      (resolve .bare "\x7bwebrequest;d;http://x;POST;null\x7d".toList
        .online).2.effects.requests.map Request.data = [none] := by cbv
  obtain ⟨given, unsent⟩ := ran
  obtain ⟨counted, sent, trace, requests, all⟩ := claim .bare _ .online
  rw [trace] at given
  rw [requests] at unsent
  change counted.map _ = _ at given
  change sent.map Request.data = _ at unsent
  obtain ⟨r, member, none⟩ := List.mem_map.mp (unsent ▸ List.mem_singleton_self none)
  obtain ⟨m, inside, _, carried⟩ := all r member
  have four := List.mem_map_of_mem (f := fun m => m.instruction.args.length) inside
  rw [given, List.mem_singleton] at four
  exact carried (by omega) none

end ChatCommands
