import ChatCommands.Expr.Eval
import ChatCommands.Proofs.Expr.Reading

/-!
What a path can lead to, and what its evaluation crashes for.

The records of the user and of the client are reached by their names only, never by a step. The
one crash is that of the uptime of the process, where that is no finite number. What holds of the
roots of a scope and of all other values holds of whatever an evaluation reaches.
-/

namespace ChatCommands

namespace Value

/-- Whether a value is neither a user nor a client, the records that are reached by name only. -/
def Open : Value → Prop
  | .record (.user _) => False
  | .record (.client _) => False
  | _ => True

/-- Whether a value may be reached where nothing but the snapshot holds a user or a client. -/
def Reached (s : Snapshot) (v : Value) : Prop :=
  v.Open ∨ v = .record (.user s.user) ∨ v = .record (.client s.uptime)

/-- The crash of asking a value for the text of an uptime. -/
def Untimed (v : Value) (e : Crash) : Prop :=
  ∃ seconds, v = .record (.client seconds) ∧ Uptime.text seconds = .error e

end Value

theorem error_of_map {α β : Type} {r : Except Crash α} {f : α → β} {c : Crash}
    (h : r.map f = .error c) : r = .error c := by
  cases r with
  | error e => cases h; rfl
  | ok a => cases h

theorem Item.value_open (i : Item) : i.value.Open := by
  cases i <;> trivial

namespace Export

theorem value_open {e : Export} {v : Value} (h : e.value = .ok v) : v.Open := by
  cases e with
  | scalar s => cases h; trivial
  | scalars items => cases h; trivial
  | details items => cases h; trivial
  | uptime seconds =>
    rw [value] at h
    cases text : Uptime.text seconds with
    | error c =>
      rw [text] at h
      cases h
    | ok t =>
      rw [text] at h
      cases h
      trivial

theorem value_crash {e : Export} {c : Crash} (h : e.value = .error c) :
    ∃ seconds, e = .uptime seconds ∧ Uptime.text seconds = .error c := by
  cases e with
  | scalar s => cases h
  | scalars items => cases h
  | details items => cases h
  | uptime seconds => exact ⟨seconds, rfl, error_of_map h⟩

theorem plain_crash {e : Export} {c : Crash} (h : e.plain = .error c) :
    ∃ seconds, e = .uptime seconds ∧ Uptime.text seconds = .error c := by
  cases e with
  | scalar s => cases h
  | scalars items => cases h
  | details items => cases h
  | uptime seconds => exact ⟨seconds, rfl, error_of_map h⟩

end Export

namespace Record

theorem eq_client {r : Record} {f : Text × Export} (member : f ∈ r.exports) {seconds : Binary64}
    (uptime : f.2 = .uptime seconds) : r = .client seconds := by
  cases r with
  | detail d =>
    obtain ⟨g, _, rfl⟩ := List.mem_map.mp member
    cases uptime
  | user u =>
    simp only [exports, List.mem_cons, List.not_mem_nil, or_false] at member
    rcases member with rfl | rfl | rfl | rfl | rfl | rfl <;> cases uptime
  | server s =>
    simp only [exports, List.mem_cons, List.not_mem_nil, or_false] at member
    rcases member with
      rfl | rfl | rfl | rfl | rfl | rfl | rfl | rfl | rfl | rfl | rfl | rfl | rfl <;> cases uptime
  | client x =>
    rw [exports, List.mem_singleton] at member
    subst member
    cases uptime
    rfl

theorem plain_crash (r : Record) {f : Json → Text} {c : Crash} (h : r.plain.map f = .error c) :
    ∃ g ∈ r.exports, g.2.plain = .error c := by
  have collected : (r.exports.mapM fun f => f.2.plain.map fun j => (f.1, j)) = .error c := by
    have failed := error_of_map h
    rw [plain] at failed
    cases fields : r.exports.mapM fun f => f.2.plain.map fun j => (f.1, j) with
    | error e =>
      rw [fields] at failed
      cases failed
      rfl
    | ok found =>
      rw [fields] at failed
      cases failed
  obtain ⟨g, member, failed⟩ := error_of_mapM collected
  exact ⟨g, member, error_of_map failed⟩

theorem field?_cases (r : Record) (name : Text) :
    (∃ found, r.field? name = .ok found ∧ ∀ v ∈ found, v.Open) ∨
      ∃ seconds c, r = .client seconds ∧ r.field? name = .error c ∧
        Uptime.text seconds = .error c := by
  rw [field?]
  cases looked : r.exports.lookup name with
  | none => exact .inl ⟨none, rfl, by simp⟩
  | some e =>
    dsimp only
    cases value : e.value with
    | ok v =>
      refine .inl ⟨some v, rfl, fun w same => ?_⟩
      cases same
      exact Export.value_open value
    | error c =>
      obtain ⟨seconds, uptime, text⟩ := Export.value_crash value
      obtain ⟨before, after, split, _⟩ := List.lookup_eq_some_iff.mp looked
      have member : (name, e) ∈ r.exports := by
        rw [split]
        exact List.mem_append_right _ List.mem_cons_self
      exact .inr ⟨seconds, c, eq_client member uptime, rfl, text⟩

end Record

namespace Value

variable {s : Snapshot} {v : Value}

/-- What a step may lead to: nothing, or a value that is neither a user nor a client. -/
def Steps (found : Option Value) : Prop :=
  ∀ v ∈ found, v.Open

theorem Reached.untimed (reached : v.Reached s) {e : Crash} (untimed : v.Untimed e) :
    Uptime.text s.uptime = .error e := by
  obtain ⟨seconds, rfl, text⟩ := untimed
  rcases reached with shown | same | same
  · exact shown.elim
  · cases same
  · cases same
    exact text

theorem steps_itemAt (items : List Item) (n : Int) : (itemAt items n).Open := by
  unfold itemAt
  split
  · trivial
  · cases items[n.toNat]? with
    | none => trivial
    | some i => exact i.value_open

theorem field?_yields (v : Value) (name : Text) :
    Yields Steps v.Untimed ((v.field? name).mapError .crash) := by
  unfold Value.field?
  split
  · rename_i r
    rcases r.field?_cases name with ⟨found, looked, shown⟩ | ⟨seconds, c, rfl, crash, text⟩
    · rw [looked]
      exact shown
    · rw [crash]
      exact ⟨seconds, rfl, text⟩
  · rintro w same
    obtain ⟨j, _, rfl⟩ := Option.map_eq_some_iff.mp same
    trivial
  · rintro w same
    split at same
    · cases same
      trivial
    · cases same
  · rintro w same
    obtain ⟨items, _, same⟩ := Option.bind_eq_some_iff.mp same
    split at same
    · cases same
      trivial
    · cases same

theorem index?_yields (v key : Value) :
    Yields Steps v.Untimed ((v.index? key).mapError .crash) := by
  unfold Value.index?
  split
  · split
    · rintro w same
      cases same
      exact steps_itemAt _ _
    · split
      · exact field?_yields _ _
      · exact fun w same => nomatch same
  · split
    · rintro w same
      obtain ⟨j, _, rfl⟩ := Option.map_eq_some_iff.mp same
      trivial
    · split
      · exact field?_yields _ _
      · exact fun w same => nomatch same
    · exact fun w same => nomatch same

theorem steps_joinFrom? (v : Value) (start : Nat) : Steps (v.joinFrom? start) := by
  rintro w same
  obtain ⟨items, _, rfl⟩ := Option.map_eq_some_iff.mp same
  trivial

theorem steps_callItems? (items : List Item) (name : Text) (args : List Value) :
    Steps (callItems? items name args) := by
  unfold callItems?
  repeat' split
  all_goals
    rintro w same
    cases same
  all_goals trivial

theorem steps_callText? (t name : Text) (args : List Value) : Steps (callText? t name args) := by
  unfold callText?
  dsimp only
  repeat' split
  all_goals
    rintro w same
    cases same
  all_goals trivial

theorem steps_callRecord? (r : Record) (name : Text) (args : List Value) :
    Steps (callRecord? r name args) := by
  unfold callRecord?
  repeat' split
  all_goals
    rintro w same
    cases same
  all_goals trivial

theorem steps_call? (v : Value) (name : Text) (args : List Value) : Steps (v.call? name args) := by
  unfold call?
  split
  · exact steps_callRecord? _ name args
  · exact steps_callText? _ name args
  · rintro w same
    obtain ⟨items, _, same⟩ := Option.bind_eq_some_iff.mp same
    exact steps_callItems? items name args w same

theorem rendered_crash {c : Crash} (h : v.rendered = .error c) : v.Untimed c := by
  unfold Value.rendered at h
  split at h
  · cases h
  · cases h
  · cases h
  · cases h
  · rename_i r
    obtain ⟨f, member, failed⟩ := r.plain_crash h
    obtain ⟨seconds, uptime, text⟩ := Export.plain_crash failed
    exact ⟨seconds, congrArg _ (Record.eq_client member uptime), text⟩

end Value

/-- Whether no variable of a scope is a user or a client. -/
def Scope.Plain (s : Scope) : Prop :=
  ∀ b ∈ s.bindings, b.2.Open

theorem Scope.Plain.root? {scope : Scope} (plain : scope.Plain) {name : Text} {v : Value}
    (h : scope.root? name = some v) : v.Reached scope.snapshot := by
  unfold Scope.root? at h
  cases fixed : Scope.fixed? scope.snapshot name with
  | some w =>
    rw [fixed] at h
    cases h
    unfold Scope.fixed? at fixed
    repeat' split at fixed
    all_goals cases fixed
    · exact .inl trivial
    · exact .inr (.inl rfl)
    · exact .inl trivial
    · exact .inl trivial
    · exact .inr (.inr rfl)
  | none =>
    rw [fixed] at h
    obtain ⟨before, after, split, _⟩ := List.lookup_eq_some_iff.mp h
    refine .inl (plain (name, v) ?_)
    rw [split]
    exact List.mem_append_right _ List.mem_cons_self

/-- The crash that an evaluation may end in: the uptime has no text. -/
def Scope.Timeless (scope : Scope) (e : Crash) : Prop :=
  Uptime.text scope.snapshot.uptime = .error e

/-- What bounds an evaluation in a scope: what its roots and all open values are, and the crashes
that such values can cause. -/
structure Scope.Bounds (scope : Scope) (good : Value → Prop) (crashes : Crash → Prop) : Prop where
  shown : ∀ v, v.Open → good v
  root : ∀ {name v}, scope.root? name = some v → good v
  untimed : ∀ {v e}, good v → v.Untimed e → crashes e

theorem Scope.Plain.bounds {scope : Scope} (plain : scope.Plain) :
    scope.Bounds (Value.Reached scope.snapshot) scope.Timeless where
  shown _ := .inl
  root := plain.root?
  untimed reached := reached.untimed

section Evaluation

variable {scope : Scope} {good : Value → Prop} {crashes : Crash → Prop}

mutual
theorem Expr.eval_yields (bounds : scope.Bounds good crashes) : ∀ {e : Expr}, e.Plain →
    Yields good crashes (e.eval scope)
  | .literal v, h => by
    obtain ⟨j, rfl⟩ := h
    exact bounds.shown _ trivial
  | .path root steps source, h => by
    have walked := Step.walk_yields bounds h (scope.root? root) fun v same => bounds.root same
    rw [Expr.eval]
    refine walked.bind fun found reached => ?_
    cases found with
    | none => trivial
    | some v => exact reached v rfl
  | .not e, h => by
    have inner : e.Plain := h
    rw [Expr.eval]
    refine (Expr.eval_yields bounds inner).bind fun v _ => ?_
    exact bounds.shown _ trivial
  | .all es, h => by
    rw [Expr.eval]
    refine (Expr.evalAll_yields bounds h).bind fun b _ => ?_
    exact bounds.shown _ trivial
  | .any es, h => by
    rw [Expr.eval]
    refine (Expr.evalAny_yields bounds h).bind fun b _ => ?_
    exact bounds.shown _ trivial
  | .compare relation left right, h => by
    rw [Expr.eval]
    refine (Expr.eval_yields bounds h.1).bind fun a _ => ?_
    refine (Expr.eval_yields bounds h.2).bind fun b _ => ?_
    split
    · exact bounds.shown _ trivial
    · trivial

theorem Expr.evalAll_yields (bounds : scope.Bounds good crashes) : ∀ {es : List Expr},
    Expr.AllThroughout (fun v => ∃ j, v = .json j) (fun _ => True) es →
    Yields (fun _ => True) crashes (Expr.evalAll scope es)
  | [], _ => trivial
  | e :: es, h => by
    rw [Expr.evalAll]
    refine (Expr.eval_yields bounds h.1).bind fun v _ => ?_
    split
    · exact Expr.evalAll_yields bounds h.2
    · trivial

theorem Expr.evalAny_yields (bounds : scope.Bounds good crashes) : ∀ {es : List Expr},
    Expr.AllThroughout (fun v => ∃ j, v = .json j) (fun _ => True) es →
    Yields (fun _ => True) crashes (Expr.evalAny scope es)
  | [], _ => trivial
  | e :: es, h => by
    rw [Expr.evalAny]
    refine (Expr.eval_yields bounds h.1).bind fun v _ => ?_
    split
    · trivial
    · exact Expr.evalAny_yields bounds h.2

theorem Expr.evalList_yields (bounds : scope.Bounds good crashes) : ∀ {es : List Expr},
    Expr.AllThroughout (fun v => ∃ j, v = .json j) (fun _ => True) es →
    Yields (fun _ => True) crashes (Expr.evalList scope es)
  | [], _ => trivial
  | e :: es, h => by
    rw [Expr.evalList]
    refine (Expr.eval_yields bounds h.1).bind fun v _ => ?_
    exact (Expr.evalList_yields bounds h.2).bind fun vs _ => trivial

theorem Step.take_yields (bounds : scope.Bounds good crashes) : ∀ {step : Step}, step.Plain →
    ∀ {v : Value}, good v → Yields Value.Steps crashes (step.take scope v)
  | .field name, _, v, reached => by
    rw [Step.take]
    exact (v.field?_yields name).mono (fun _ => id) fun _ => bounds.untimed reached
  | .index key, h, v, reached => by
    rw [Step.take]
    exact (Expr.eval_yields bounds h.2).bind fun k _ =>
      (v.index?_yields k).mono (fun _ => id) fun _ => bounds.untimed reached
  | .joinFrom start, _, v, _ => by
    rw [Step.take]
    exact Value.steps_joinFrom? v start
  | .call name args, h, v, _ => by
    rw [Step.take]
    exact (Expr.evalList_yields bounds h.2).bind fun vs _ => Value.steps_call? v name vs

theorem Step.walk_yields (bounds : scope.Bounds good crashes) : ∀ {steps : List Step},
    Step.AllThroughout (fun v => ∃ j, v = .json j) (fun _ => True) steps →
    ∀ (reached : Option Value), (∀ v, reached = some v → good v) →
    Yields (fun found => ∀ v, found = some v → good v) crashes
      (Step.walk scope reached steps)
  | [], _, reached, known => by
    rw [Step.walk]
    exact known
  | step :: rest, _, none, _ => fun v same => nomatch same
  | step :: rest, h, some v, known => by
    rw [Step.walk]
    split
    · exact fun v same => nomatch same
    · refine (Step.take_yields bounds h.1 (known v rfl)).bind fun next shown => ?_
      exact Step.walk_yields bounds h.2 next fun w same => bounds.shown w (shown w same)
end

/-- A path that can be read leads where its steps do. -/
theorem Scope.resolve_of_parse (scope : Scope) {t : Text} {p : Path} (read : Path.parse t = .ok p) :
    scope.resolve t = match Step.walk scope (scope.root? p.root) p.steps with
      | .ok found => .ok found
      | .error (.eval _) => .ok none
      | .error (.crash c) => .error c := by
  rw [resolve, read]
  rfl

namespace Scope

/-- A path crashes for a number in it that is too long, or for the uptime. -/
theorem resolve_yields (bounds : scope.Bounds good crashes) (t : Text) : match scope.resolve t with
    | .ok found => ∀ v, found = some v → good v
    | .error e => (Text.strip t).Unreadable e ∨ crashes e := by
  have read : Yields (fun found => ∀ v, found = some v → good v)
      (fun e => (Text.strip t).Unreadable e ∨ crashes e) (do
        let p ← Path.parse t
        Step.walk scope (scope.root? p.root) p.steps) := by
    refine ((Path.parse_yields t).mono (fun _ => id) fun _ => .inl).bind fun p all => ?_
    have walked := Step.walk_yields bounds (Step.allThroughout_iff.mpr all) (scope.root? p.root)
      fun v same => bounds.root same
    exact walked.mono (fun _ => id) fun _ => .inr
  rw [resolve]
  generalize (do
    let p ← Path.parse t
    Step.walk scope (scope.root? p.root) p.steps) = result at read
  rcases result with (_ | e) | found
  · exact fun v same => nomatch same
  · exact read
  · exact read

theorem holds_crash (bounds : scope.Bounds good crashes) {t : Text} {e : Crash}
    (h : scope.holds t = .error e) : t.Unreadable e ∨ crashes e := by
  have read : Yields (fun _ => True) (fun e => t.Unreadable e ∨ crashes e)
      ((Expr.parse t).bind (Expr.eval scope)) := by
    refine ((Expr.parse_yields t).mono (fun _ => id) fun _ => .inl).bind fun p all => ?_
    exact (Expr.eval_yields bounds all).mono (fun _ _ => trivial) fun _ => .inr
  rw [holds] at h
  split at h
  · cases h
  · split at h
    · cases h
    · cases h
    · rename_i same
      rw [same] at read
      cases h
      exact read

end Scope

end Evaluation

end ChatCommands
