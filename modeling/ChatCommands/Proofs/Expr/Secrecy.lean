import Mathlib.Data.List.Forall2
import ChatCommands.Proofs.Expr.Evaluation

/-!
What an expression cannot tell.

Two snapshots show the same where the fields that their records export do. An expression has the
same value for both, unless it is the author or the process itself: those are told apart where
their text is taken, as an argument or as a key.
-/

namespace ChatCommands

theorem Scalar.ofOption_injective : Function.Injective Scalar.ofOption := by
  rintro (_ | s) (_ | t) same <;> cases same <;> rfl

theorem Detail.exports_injective : Function.Injective Detail.exports := by
  rintro (d | d | d | d) (d' | d' | d' | d') same <;> cases d <;> cases d' <;>
    simp only [Detail.exports, List.cons.injEq, Prod.mk.injEq, true_and, and_true, reduceCtorEq,
      Scalar.int.injEq, Scalar.bool.injEq, Scalar.text.injEq, Scalar.ofOption_injective.eq_iff,
      and_false] at same
  all_goals simp only [same]

/-- Whether two exports show templates the same. -/
def Export.ShowsSame : Export → Export → Prop
  | .scalar s, .scalar t => s = t
  | .scalars items, .scalars others => items = others
  | .details items, .details others => items.map Detail.exports = others.map Detail.exports
  | .uptime x, .uptime y => Uptime.text x = Uptime.text y
  | _, _ => False

/-- Whether two records export the same. -/
def Record.ShowsSame (r r' : Record) : Prop :=
  List.Forall₂ (fun f g => f.1 = g.1 ∧ f.2.ShowsSame g.2) r.exports r'.exports

/-- Whether two snapshots have the same words, and records that export the same. -/
structure Snapshot.ShowsSame (s s' : Snapshot) : Prop where
  args : s.args = s'.args
  user : (Record.user s.user).ShowsSame (.user s'.user)
  server : (Record.server s.server).ShowsSame (.server s'.server)
  channel : (Record.detail (.channel s.channel)).ShowsSame (.detail (.channel s'.channel))
  client : (Record.client s.uptime).ShowsSame (.client s'.uptime)

namespace Export

theorem ShowsSame.cases {e e' : Export} (same : e.ShowsSame e') :
    e = e' ∨ ∃ x y, e = .uptime x ∧ e' = .uptime y ∧ Uptime.text x = Uptime.text y := by
  cases e <;> cases e' <;> try exact same.elim
  · exact .inl (congrArg _ same)
  · exact .inl (congrArg _ same)
  · exact .inl (congrArg _ (List.map_injective_iff.mpr Detail.exports_injective same))
  · exact .inr ⟨_, _, rfl, rfl, same⟩

theorem ShowsSame.value {e e' : Export} (same : e.ShowsSame e') : e.value = e'.value := by
  obtain rfl | ⟨x, y, rfl, rfl, text⟩ := same.cases
  · rfl
  · rw [Export.value, Export.value, text]

theorem ShowsSame.plain {e e' : Export} (same : e.ShowsSame e') : e.plain = e'.plain := by
  obtain rfl | ⟨x, y, rfl, rfl, text⟩ := same.cases
  · rfl
  · rw [Export.plain, Export.plain, text]

end Export

namespace Record

variable {r r' : Record}

theorem ShowsSame.field? (same : r.ShowsSame r') (name : Text) :
    r.field? name = r'.field? name := by
  unfold ShowsSame at same
  unfold Record.field?
  generalize r.exports = fields, r'.exports = others at same
  induction same with
  | nil => rfl
  | @cons f g fs gs here _ ih =>
    obtain ⟨key, shown⟩ := here
    rw [← Prod.eta f, ← Prod.eta g, List.lookup_cons, List.lookup_cons, ← key]
    cases name == f.1
    · exact ih
    · exact congrArg (Except.map some) shown.value

theorem ShowsSame.plain (same : r.ShowsSame r') : r.plain = r'.plain := by
  unfold ShowsSame at same
  unfold Record.plain
  generalize r.exports = fields, r'.exports = others at same
  suffices alike : (fields.mapM fun f => f.2.plain.map fun j => (f.1, j)) =
      others.mapM fun f => f.2.plain.map fun j => (f.1, j) by rw [alike]
  induction same with
  | nil => rfl
  | cons here _ ih => rw [List.mapM_cons, List.mapM_cons, ih, here.1, here.2.plain]

end Record

namespace Snapshot.ShowsSame

variable {s s' : Snapshot} (same : s.ShowsSame s')
include same

theorem server_eq : s.server = s'.server := by
  have fields := same.server
  obtain ⟨_, _, server, _, _⟩ := s
  obtain ⟨_, _, server', _, _⟩ := s'
  obtain ⟨⟩ := server
  obtain ⟨⟩ := server'
  have details {α : Type} {f : α → Detail} (injective : Function.Injective f) (xs ys : List α) :
      (Export.details (xs.map f)).ShowsSame (.details (ys.map f)) ↔ xs = ys := by
    have whole := List.map_injective_iff.mpr (Detail.exports_injective.comp injective)
    rw [Export.ShowsSame, List.map_map, List.map_map, whole.eq_iff]
  have roles := details fun _ _ => Detail.role.inj
  have channels := details fun _ _ => Detail.channel.inj
  have events := details fun _ _ => Detail.event.inj
  have stickers := details fun _ _ => Detail.sticker.inj
  simp only [Record.ShowsSame, Record.exports, List.forall₂_cons, roles, channels, events, stickers]
    at fields
  simp only [Export.ShowsSame, Scalar.int.injEq, Scalar.ofOption_injective.eq_iff] at fields
  simp only [fields]

theorem channel_eq : s.channel = s'.channel := by
  have fields := same.channel
  obtain ⟨_, _, _, channel, _⟩ := s
  obtain ⟨_, _, _, channel', _⟩ := s'
  obtain ⟨⟩ := channel
  obtain ⟨⟩ := channel'
  simp only [Record.ShowsSame, Record.exports, Detail.exports, List.map_cons, List.map_nil,
    List.forall₂_cons, Export.ShowsSame, Scalar.text.injEq] at fields
  simp only [fields]

theorem user_eq : s'.user =
    { s.user with roleIds := s'.user.roleIds, manageGuild := s'.user.manageGuild } := by
  have fields := same.user
  obtain ⟨_, user, _, _, _⟩ := s
  obtain ⟨_, user', _, _, _⟩ := s'
  obtain ⟨⟩ := user
  obtain ⟨⟩ := user'
  simp only [Record.ShowsSame, Record.exports, List.forall₂_cons, Export.ShowsSame,
    Scalar.text.injEq] at fields
  simp only [fields]

theorem roles_eq : s.user.roles = s'.user.roles := by
  rw [same.user_eq]

end Snapshot.ShowsSame

theorem Export.ShowsSame.refl (e : Export) : e.ShowsSame e := by
  cases e <;> exact rfl

theorem Record.ShowsSame.refl (r : Record) : r.ShowsSame r :=
  List.forall₂_same.mpr fun f _ => ⟨rfl, .refl f.2⟩

/-- Two snapshots show the same where only the ids of the author's roles, the right to moderate
and an uptime of the same text differ. -/
theorem Snapshot.showsSame_iff {s s' : Snapshot} : s.ShowsSame s' ↔
    ∃ roleIds manageGuild uptime, Uptime.text s.uptime = Uptime.text uptime ∧
      s' = { s with user := { s.user with roleIds, manageGuild }, uptime } := by
  constructor
  · intro same
    refine ⟨s'.user.roleIds, s'.user.manageGuild, s'.uptime, ?_, ?_⟩
    · obtain _ | ⟨client, _⟩ := same.client
      exact client.2
    · rw [same.args, same.server_eq, same.channel_eq, ← same.user_eq]
  · rintro ⟨roleIds, manageGuild, uptime, text, rfl⟩
    exact ⟨rfl, Record.ShowsSame.refl (.user s.user), .refl _, .refl _, .cons ⟨rfl, text⟩ .nil⟩

namespace Value

/-- Whether two values stand for each other where one snapshot stands for another. -/
inductive Mirrors (s s' : Snapshot) : Value → Value → Prop where
  | same {v : Value} : v.Open → Mirrors s s' v v
  | user : Mirrors s s' (.record (.user s.user)) (.record (.user s'.user))
  | client : Mirrors s s' (.record (.client s.uptime)) (.record (.client s'.uptime))

namespace Mirrors

variable {s s' : Snapshot} {v v' : Value}

theorem eq_of_open (mirrors : Mirrors s s' v v') (shown : v.Open) : v = v' := by
  cases mirrors with
  | same => rfl
  | user | client => exact shown.elim

theorem reached (mirrors : Mirrors s s' v v') : v.Reached s := by
  cases mirrors with
  | same shown => exact .inl shown
  | user => exact .inr (.inl rfl)
  | client => exact .inr (.inr rfl)

theorem truth (mirrors : Mirrors s s' v v') : v.truth = v'.truth := by
  cases mirrors <;> rfl

theorem kind (mirrors : Mirrors s s' v v') : v.kind = v'.kind := by
  cases mirrors <;> rfl

theorem number? (mirrors : Mirrors s s' v v') : v.number? = v'.number? := by
  cases mirrors <;> rfl

theorem isDeadEnd (mirrors : Mirrors s s' v v') : isDeadEnd (some v) = isDeadEnd (some v') := by
  cases mirrors <;> rfl

theorem asTruth (mirrors : Mirrors s s' v v') : Mirrors s s' v.asTruth v'.asTruth := by
  cases mirrors with
  | @same v shown =>
    refine .same ?_
    cases v with
    | json j => cases j <;> trivial
    | tuple items => trivial
    | record r => exact shown
  | user => exact .user
  | client => exact .client

variable {w w' : Value}

theorem same_eq (left : Mirrors s s' v v') (right : Mirrors s s' w w') : v.same w = v'.same w' := by
  have apart {u : Value} (shown : u.Open) {r : Record} (hidden : ¬(Value.record r).Open) :
      u.same (.record r) = false ∧ (Value.record r).same u = false := by
    cases u with
    | json j => exact ⟨rfl, rfl⟩
    | tuple items => exact ⟨rfl, rfl⟩
    | record q =>
      have different : q ≠ r := by
        rintro rfl
        exact hidden shown
      exact ⟨beq_false_of_ne different, beq_false_of_ne different.symm⟩
  cases left with
  | same shown =>
    cases right with
    | same => rfl
    | user => rw [(apart shown id).1, (apart shown id).1]
    | client => rw [(apart shown id).1, (apart shown id).1]
  | user =>
    cases right with
    | same shown => rw [(apart shown id).2, (apart shown id).2]
    | user => rw [Value.same, Value.same, beq_self_eq_true, beq_self_eq_true]
    | client => rfl
  | client =>
    cases right with
    | same shown => rw [(apart shown id).2, (apart shown id).2]
    | user => rfl
    | client => rw [Value.same, Value.same, beq_self_eq_true, beq_self_eq_true]

theorem order (left : Mirrors s s' v v') (right : Mirrors s s' w w') : v.order w = v'.order w' := by
  have after (r : Record) (a : Value) : (Value.record r).order a = .error (r.kind, a.kind) := rfl
  have before (a : Value) (r : Record) : a.order (.record r) = .error (a.kind, r.kind) := by
    unfold Value.order
    split
    · contradiction
    · split
      · contradiction
      · rfl
  have kind := right.kind
  cases left with
  | same =>
    cases right with
    | same => rfl
    | user | client => rw [before, before]; rfl
  | user | client => rw [after, after, kind]; rfl

theorem relate (left : Mirrors s s' v v') (right : Mirrors s s' w w') (r : Relation) :
    v.relate r w = v'.relate r w' := by
  have loose : v.looseEq w = v'.looseEq w' := by
    unfold looseEq isBool isNumber
    rw [left.kind, right.kind, left.number?, right.number?, left.same_eq right,
      left.asTruth.same_eq right.asTruth]
  have strict : v.strictEq w = v'.strictEq w' := by
    unfold strictEq isBool isNumber
    rw [left.kind, right.kind, left.same_eq right]
  cases r <;> simp only [Value.relate, loose, strict, left.order right]

theorem joinFrom? (mirrors : Mirrors s s' v v') (start : Nat) :
    v.joinFrom? start = v'.joinFrom? start := by
  cases mirrors <;> rfl

section Shown

variable (shown : s.ShowsSame s') (mirrors : Mirrors s s' v v')
include shown mirrors

theorem field? (name : Text) : v.field? name = v'.field? name := by
  cases mirrors with
  | same => rfl
  | user => exact shown.user.field? name
  | client => exact shown.client.field? name

theorem index? (key : Value) : v.index? key = v'.index? key := by
  have named {r r' : Record} (same : r.ShowsSame r') :
      (Value.record r).index? key = (Value.record r').index? key := by
    simp only [Value.index?, Value.items?, same.field?]
  cases mirrors with
  | same => rfl
  | user => exact named shown.user
  | client => exact named shown.client

theorem call? (name : Text) (args : List Value) : v.call? name args = v'.call? name args := by
  cases mirrors with
  | same => rfl
  | user =>
    rw [Value.call?, Value.call?]
    rcases args with _ | ⟨role, _ | _⟩
    · rfl
    · rw [callRecord?, callRecord?, shown.roles_eq]
    · rfl
  | client => rfl

theorem rendered : v.rendered = v'.rendered := by
  cases mirrors with
  | same => rfl
  | user => rw [Value.rendered, Value.rendered, shown.user.plain]
  | client => rw [Value.rendered, Value.rendered, shown.client.plain]

end Shown

end Mirrors

end Value

/-- Whether an expression is the author or the process itself, and no part of it. -/
def Expr.isBare : Expr → Bool
  | .path root [] _ => root == "user".toList || root == "client".toList
  | _ => false

/-- Whether no key and no argument in an expression is the author or the process itself. -/
def Expr.Discreet (e : Expr) : Prop :=
  e.Throughout (fun _ => True) fun e => e.isBare = false

def Step.Discreet (s : Step) : Prop :=
  s.Throughout (fun _ => True) fun e => e.isBare = false

/-- Whether two results are related values, or the same failure. -/
def Paired {ε α β : Type} (related : α → β → Prop) : Except ε α → Except ε β → Prop
  | .ok a, .ok b => related a b
  | .error e, .error f => e = f
  | _, _ => False

namespace Paired

variable {ε α β γ δ : Type} {related : α → β → Prop} {r : Except ε α} {r' : Except ε β}

theorem bind {next : γ → δ → Prop} {f : α → Except ε γ} {g : β → Except ε δ}
    (first : Paired related r r') (second : ∀ a b, related a b → Paired next (f a) (g b)) :
    Paired next (r >>= f) (r' >>= g) := by
  cases r <;> cases r' <;> try exact first.elim
  · exact first
  · exact second _ _ first

theorem bind_eq {f : α → Except ε γ} {g : β → Except ε γ} (first : Paired related r r')
    (second : ∀ a b, related a b → f a = g b) : r >>= f = r' >>= g := by
  cases r <;> cases r' <;> try exact first.elim
  · exact congrArg _ first
  · exact second _ _ first

theorem eq_of_open {s s' : Snapshot} {crashes : Crash → Prop} {r r' : Except Halt Value}
    (paired : Paired (Value.Mirrors s s') r r') (shown : Yields Value.Open crashes r) : r = r' := by
  cases r <;> cases r' <;> try exact paired.elim
  · exact congrArg _ paired
  · exact congrArg _ (Value.Mirrors.eq_of_open paired shown)

end Paired

section Opening

variable {scope : Scope} (plain : scope.Plain)
include plain

theorem Step.walk_open {steps : List Step}
    (h : AllThroughout (fun v => ∃ j, v = .json j) (fun _ => True) steps) {reached : Option Value}
    (shown : Value.Steps reached) :
    Yields Value.Steps scope.Timeless (walk scope reached steps) := by
  induction steps generalizing reached with
  | nil => exact shown
  | cons step rest ih =>
    cases reached with
    | none => exact fun _ same => nomatch same
    | some v =>
      rw [walk]
      split
      · exact fun _ same => nomatch same
      · exact (step.take_yields plain.bounds h.1 (.inl (shown v rfl))).bind fun _ => ih h.2

/-- A step leaves the author and the process. -/
theorem Step.walk_cons_open {step : Step} {rest : List Step}
    (h : AllThroughout (fun v => ∃ j, v = .json j) (fun _ => True) (step :: rest))
    {reached : Option Value} (known : ∀ v, reached = some v → v.Reached scope.snapshot) :
    Yields Value.Steps scope.Timeless (walk scope reached (step :: rest)) := by
  cases reached with
  | none => exact fun _ same => nomatch same
  | some v =>
    rw [walk]
    split
    · exact fun _ same => nomatch same
    · exact (step.take_yields plain.bounds h.1 (known v rfl)).bind fun _ => walk_open plain h.2

theorem Scope.Plain.root_open {name : Text} (other : name ≠ "user".toList)
    (another : name ≠ "client".toList) : Value.Steps (scope.root? name) := by
  intro v found
  unfold Scope.root? Scope.fixed? at found
  rw [if_neg other, if_neg another] at found
  repeat' split at found
  · cases found
    trivial
  · cases found
    trivial
  · cases found
    trivial
  · obtain ⟨before, after, split, _⟩ := List.lookup_eq_some_iff.mp found
    refine plain (name, v) ?_
    rw [split]
    exact List.mem_append_right _ List.mem_cons_self

/-- An expression gives the author or the process only where it is one of them itself. -/
theorem Expr.eval_open {e : Expr} (h : e.Plain) (part : e.isBare = false) :
    Yields Value.Open scope.Timeless (e.eval scope) := by
  cases e with
  | literal v =>
    obtain ⟨j, rfl⟩ := h
    trivial
  | path root steps source =>
    have shown : Yields Value.Steps scope.Timeless (Step.walk scope (scope.root? root) steps) := by
      cases steps with
      | nil =>
        obtain ⟨other, another⟩ := Bool.or_eq_false_iff.mp part
        rw [Step.walk]
        exact plain.root_open (ne_of_beq_false other) (ne_of_beq_false another)
      | cons step rest => exact Step.walk_cons_open plain h fun v => plain.root?
    rw [Expr.eval]
    refine shown.bind fun found shown => ?_
    cases found with
    | none => trivial
    | some v => exact shown v rfl
  | not e =>
    have inner : e.Plain := h
    rw [Expr.eval]
    refine (Expr.eval_yields plain.bounds inner).bind fun _ _ => ?_
    trivial
  | all es =>
    rw [Expr.eval]
    refine (Expr.evalAll_yields plain.bounds h).bind fun _ _ => ?_
    trivial
  | any es =>
    rw [Expr.eval]
    refine (Expr.evalAny_yields plain.bounds h).bind fun _ _ => ?_
    trivial
  | compare relation left right =>
    rw [Expr.eval]
    refine (Expr.eval_yields plain.bounds h.1).bind fun a _ => ?_
    refine (Expr.eval_yields plain.bounds h.2).bind fun b _ => ?_
    split <;> trivial

end Opening

/-- Whether two scopes have the same variables, none of them a user or a client, and snapshots that
show the same. -/
structure Scope.Mirrors (scope scope' : Scope) : Prop where
  shown : scope.snapshot.ShowsSame scope'.snapshot
  bindings : scope.bindings = scope'.bindings
  plain : scope.Plain

section Evaluation

variable {scope scope' : Scope}

theorem Scope.Mirrors.root? (m : scope.Mirrors scope') (name : Text) :
    Option.Rel (Value.Mirrors scope.snapshot scope'.snapshot) (scope.root? name)
      (scope'.root? name) := by
  by_cases author : name = "user".toList
  · subst author
    exact .some .user
  by_cases process : name = "client".toList
  · subst process
    exact .some .client
  have same : scope.root? name = scope'.root? name := by
    unfold Scope.root? Scope.fixed?
    rw [if_neg author, if_neg author, if_neg process, if_neg process, m.shown.args,
      m.shown.server_eq, m.shown.channel_eq, m.bindings]
  rw [← same]
  cases found : scope.root? name with
  | none => exact .none
  | some v => exact .some (.same (m.plain.root_open author process v found))

mutual
theorem Expr.eval_paired (m : scope.Mirrors scope') : ∀ {e : Expr}, e.Plain → e.Discreet →
    Paired (Value.Mirrors scope.snapshot scope'.snapshot) (e.eval scope) (e.eval scope')
  | .literal v, h, _ => by
    obtain ⟨j, rfl⟩ := h
    exact .same trivial
  | .path root steps source, h, d => by
    rw [Expr.eval, Expr.eval]
    refine (Step.walk_paired m h d (m.root? root)).bind fun _ _ mirrors => ?_
    cases mirrors with
    | none => rfl
    | some mirrors => exact mirrors
  | .not e, h, d => by
    have inner : e.Plain := h
    have discreet : e.Discreet := d
    rw [Expr.eval, Expr.eval]
    refine (Expr.eval_paired m inner discreet).bind fun v v' mirrors => ?_
    rw [mirrors.truth]
    exact Value.Mirrors.same trivial
  | .all es, h, d => by
    rw [Expr.eval, Expr.eval, Expr.evalAll_eq m h d]
    cases Expr.evalAll scope' es with
    | error e => rfl
    | ok b => exact Value.Mirrors.same trivial
  | .any es, h, d => by
    rw [Expr.eval, Expr.eval, Expr.evalAny_eq m h d]
    cases Expr.evalAny scope' es with
    | error e => rfl
    | ok b => exact Value.Mirrors.same trivial
  | .compare relation left right, h, d => by
    rw [Expr.eval, Expr.eval]
    refine (Expr.eval_paired m h.1 d.1).bind fun a a' first => ?_
    refine (Expr.eval_paired m h.2 d.2).bind fun b b' second => ?_
    rw [first.relate second]
    cases a'.relate relation b' with
    | error kinds => rfl
    | ok holds => exact Value.Mirrors.same trivial

theorem Expr.evalAll_eq (m : scope.Mirrors scope') : ∀ {es : List Expr},
    Expr.AllThroughout (fun v => ∃ j, v = .json j) (fun _ => True) es →
    Expr.AllThroughout (fun _ => True) (fun e => e.isBare = false) es →
    Expr.evalAll scope es = Expr.evalAll scope' es
  | [], _, _ => rfl
  | e :: es, h, d => by
    rw [Expr.evalAll, Expr.evalAll]
    refine (Expr.eval_paired m h.1 d.1).bind_eq fun v v' mirrors => ?_
    rw [mirrors.truth, Expr.evalAll_eq m h.2 d.2]

theorem Expr.evalAny_eq (m : scope.Mirrors scope') : ∀ {es : List Expr},
    Expr.AllThroughout (fun v => ∃ j, v = .json j) (fun _ => True) es →
    Expr.AllThroughout (fun _ => True) (fun e => e.isBare = false) es →
    Expr.evalAny scope es = Expr.evalAny scope' es
  | [], _, _ => rfl
  | e :: es, h, d => by
    rw [Expr.evalAny, Expr.evalAny]
    refine (Expr.eval_paired m h.1 d.1).bind_eq fun v v' mirrors => ?_
    rw [mirrors.truth, Expr.evalAny_eq m h.2 d.2]

theorem Expr.evalList_eq (m : scope.Mirrors scope') : ∀ {es : List Expr},
    Expr.AllThroughout (fun v => ∃ j, v = .json j) (fun _ => True) es →
    (∀ e ∈ es, e.isBare = false) →
    Expr.AllThroughout (fun _ => True) (fun e => e.isBare = false) es →
    Expr.evalList scope es = Expr.evalList scope' es
  | [], _, _, _ => rfl
  | e :: es, h, parts, d => by
    obtain ⟨part, parts⟩ := List.forall_mem_cons.mp parts
    have first := (Expr.eval_paired m h.1 d.1).eq_of_open (Expr.eval_open m.plain h.1 part)
    rw [Expr.evalList, Expr.evalList, first, Expr.evalList_eq m h.2 parts d.2]

theorem Step.take_eq (m : scope.Mirrors scope') : ∀ {step : Step}, step.Plain → step.Discreet →
    ∀ {v v' : Value}, v.Mirrors scope.snapshot scope'.snapshot v' →
    step.take scope v = step.take scope' v'
  | .field name, _, _, v, v', mirrors => by
    rw [Step.take, Step.take, mirrors.field? m.shown]
  | .index key, h, d, v, v', mirrors => by
    have same := (Expr.eval_paired m h.2 d.2).eq_of_open (Expr.eval_open m.plain h.2 d.1)
    rw [Step.take, Step.take, same, funext (mirrors.index? m.shown)]
  | .joinFrom start, _, _, v, v', mirrors => by
    rw [Step.take, Step.take, mirrors.joinFrom?]
  | .call name args, h, d, v, v', mirrors => by
    have same := Expr.evalList_eq m h.2 d.1 d.2
    rw [Step.take, Step.take, same, funext (mirrors.call? m.shown name)]

theorem Step.walk_paired (m : scope.Mirrors scope') : ∀ {steps : List Step},
    Step.AllThroughout (fun v => ∃ j, v = .json j) (fun _ => True) steps →
    Step.AllThroughout (fun _ => True) (fun e => e.isBare = false) steps →
    ∀ {reached reached' : Option Value},
    Option.Rel (Value.Mirrors scope.snapshot scope'.snapshot) reached reached' →
    Paired (Option.Rel (Value.Mirrors scope.snapshot scope'.snapshot))
      (Step.walk scope reached steps) (Step.walk scope' reached' steps)
  | [], _, _, _, _, mirrors => mirrors
  | step :: rest, _, _, _, _, .none => .none
  | step :: rest, h, d, some v, some v', .some mirrors => by
    rw [Step.walk, Step.walk, mirrors.isDeadEnd]
    split
    · exact .none
    · have next := Step.take_yields m.plain.bounds h.1 mirrors.reached
      rw [Step.take_eq m h.1 d.1 mirrors] at next ⊢
      cases taken : step.take scope' v' with
      | error e => rfl
      | ok found =>
        rw [taken] at next
        refine Step.walk_paired m h.2 d.2 ?_
        cases found with
        | none => exact .none
        | some w => exact .some (.same (next w rfl))
end

namespace Scope.Mirrors

variable {t : Text}

theorem resolve (m : scope.Mirrors scope')
    (discreet : ∀ p, Path.parse t = .ok p → p.expr.Discreet) :
    Paired (Option.Rel (Value.Mirrors scope.snapshot scope'.snapshot)) (scope.resolve t)
      (scope'.resolve t) := by
  have walked : Paired (Option.Rel (Value.Mirrors scope.snapshot scope'.snapshot)) (do
        let p ← Path.parse t
        Step.walk scope (scope.root? p.root) p.steps) (do
        let p ← Path.parse t
        Step.walk scope' (scope'.root? p.root) p.steps) := by
    have plain := Path.parse_yields t
    cases parsed : Path.parse t with
    | error e => rfl
    | ok p =>
      rw [parsed] at plain
      have all := Step.allThroughout_iff.mpr plain
      exact Step.walk_paired m all (discreet p parsed) (m.root? p.root)
  unfold Scope.resolve
  generalize (do
    let p ← Path.parse t
    Step.walk scope (scope.root? p.root) p.steps) = r, (do
    let p ← Path.parse t
    Step.walk scope' (scope'.root? p.root) p.steps) = r' at walked
  cases r <;> cases r' <;> try exact walked.elim
  · rename_i e _
    cases walked
    cases e with
    | eval e => exact .none
    | crash e => rfl
  · exact walked

theorem holds (m : scope.Mirrors scope') (discreet : ∀ e, Expr.parse t = .ok e → e.Discreet) :
    scope.holds t = scope'.holds t := by
  have evaluated : Paired (Value.Mirrors scope.snapshot scope'.snapshot)
      ((Expr.parse t).bind (Expr.eval scope)) ((Expr.parse t).bind (Expr.eval scope')) := by
    have plain := Expr.parse_yields t
    cases parsed : Expr.parse t with
    | error e => rfl
    | ok p =>
      rw [parsed] at plain
      exact Expr.eval_paired m plain (discreet p parsed)
  unfold Scope.holds
  generalize (Expr.parse t).bind (Expr.eval scope) = r,
    (Expr.parse t).bind (Expr.eval scope') = r' at evaluated
  cases r <;> cases r' <;> try exact evaluated.elim
  · cases evaluated
    rfl
  · dsimp only
    rw [Value.Mirrors.truth evaluated]

end Scope.Mirrors

end Evaluation

end ChatCommands
