import ChatCommands.Proofs.Expr.Chains
import ChatCommands.Proofs.Expr.Quotation

/-!
A name behind a dot, and the same name in brackets and quotation marks.

The two are read as different steps, a field and an index with a text for its key. No name reads
as an integer, so that the index falls back on the field wherever a value has fields of its own
or a length, with the one exception of texts.
-/

namespace ChatCommands

namespace Text.IsName

variable {n : Text} (named : n.IsName)
include named

theorem letters : ∀ c ∈ n, Token.isNameChar c = true := by
  obtain ⟨c, rest, rfl, start, letters⟩ := named
  exact List.forall_mem_cons.mpr ⟨Token.isNameChar_of_isNameStart start, letters⟩

theorem visible : ∀ c ∈ n, isBlank c = false :=
  fun c member => Token.isNameChar_visible (named.letters c member)

/-- No character of a name is escaped. -/
theorem quotation_eq {mark : Char} (quotes : mark = '\x27' ∨ mark = '\x22') :
    n.quotation mark = mark :: (n ++ [mark]) := by
  have plain : ∀ c ∈ n, (if c = mark ∨ c = '\\' then ['\\', c] else [c]) = [c] := by
    intro c member
    refine if_neg ?_
    have letter := named.letters c member
    rintro (rfl | rfl)
    · rcases quotes with rfl | rfl <;> cases letter
    · cases letter
  rw [quotation, escape, List.flatMap_congr plain, List.flatMap_singleton']

/-- A name may read as a float, as `inf` does, but never as an integer. -/
theorem readInt_eq_none : Numeral.readInt n = none := by
  have trimmed := Numeral.trim_eq_self named.visible
  obtain ⟨c, rest, rfl, start, _⟩ := named
  have noDigit : digitValue c = none := Option.not_isSome_iff_eq_none.mp (by
    rw [← isDigit, Token.isNameStart_digit start]
    exact Bool.false_ne_true)
  have unsigned : Numeral.sign (c :: rest) = (false, c :: rest) := by
    unfold Numeral.sign
    split
    · rename_i same
      cases same
      cases start
    · rename_i same
      cases same
      cases start
    · rfl
  have run : Numeral.digitRun false (c :: rest) = ([], c :: rest) := by
    unfold Numeral.digitRun
    split
    · rename_i same
      cases same
    · rename_i same
      cases same
      rfl
    · rename_i same
      cases same
      rw [noDigit]
  rw [Numeral.readInt, trimmed, unsigned]
  dsimp only
  rw [run]

end Text.IsName

namespace Value

variable {v : Value} {n : Text}

theorem number?_name (named : n.IsName) (k : Int) : number? (.text n) ≠ some (.int k) := by
  have trimmed := Text.strip_of_visible named.visible
  intro number
  simp only [number?, Scalar.number?, trimmed, named.readInt_eq_none,
    Option.map_eq_some_iff] at number
  obtain ⟨x, _, same⟩ := number
  cases same

theorem index?_items (named : n.IsName) {items : List Item} (list : v.items? = some items) :
    v.index? (.text n) = v.field? n := by
  unfold index?
  rw [list]
  dsimp only
  split
  · rename_i k number
    exact absurd number (number?_name named k)
  · rfl

theorem field?_text (t : Text) : field? (.text t) n =
    .ok (if n = lengthName then some (.scalar (.int t.length)) else none) := rfl

theorem index?_text (t : Text) (key : Value) : index? (.text t) key = .ok none := rfl

/-- The key of an index that is a name is taken for a field. -/
theorem index?_name (named : n.IsName) (other : ∀ t, v ≠ .text t) :
    v.index? (.text n) = v.field? n := by
  cases v with
  | json j =>
    cases j with
    | scalar s =>
      cases s with
      | text t => exact absurd rfl (other t)
      | _ => rfl
    | array items => exact index?_items named rfl
    | object fields => rfl
  | tuple items => exact index?_items named rfl
  | record r => rfl

end Value

namespace Path

open Token (Scans)

variable {root n : Text}

theorem parse_dotted (rooted : root.IsName) (named : n.IsName) :
    Path.parse (root ++ '.' :: n) = .ok ⟨root, [.field n], root ++ '.' :: n⟩ := by
  have step (p : Nat) : Scans p ('.' :: n) [⟨.op, ['.'], p⟩, ⟨.name, n, p + 1⟩] := by
    have scans := Token.scans_dot (p := p) (Token.scans_name named (s := []) nofun .done)
    rwa [List.append_nil] at scans
  have scans := Token.scans_name rooted (p := 0) (by rintro _ ⟨⟩; rfl) (step _)
  refine parse_of_steps scans rfl ?_ rfl (.field rfl rfl .none)
  simp [Token.lastStop, Token.stop]
  omega

theorem parse_bracketed (rooted : root.IsName) {mark : Char}
    (quotes : mark = '\x27' ∨ mark = '\x22') (key : Text) :
    let text := root ++ '[' :: (key.quotation mark ++ [']'])
    Path.parse text = .ok ⟨root, [.index (.literal (.text key))], text⟩ := by
  intro text
  have step (p : Nat) : Scans p ('[' :: (key.quotation mark ++ [']'])) [⟨.op, ['['], p⟩,
      ⟨.string, key.quotation mark, p + 1⟩,
      ⟨.op, [']'], p + 1 + (key.quotation mark).length⟩] :=
    .whole [] rfl (Token.scans_quoted quotes key (.whole [] (s := []) rfl .done))
  have steps (p q : Nat) : Grammar.Steps (Text.slice text) 64 (⟨.op, ['['], p⟩ ::
      ([⟨.string, key.quotation mark, p + 1⟩] ++ [⟨.op, [']'], q⟩])) _ :=
    .key rfl (Grammar.disjunction_quotation quotes _ 63 _ key) rfl .none
  have scans := Token.scans_name rooted (p := 0) (by rintro _ ⟨⟩; rfl) (step _)
  refine parse_of_steps scans rfl ?_ rfl (steps _ _)
  simp [Token.lastStop, Token.stop]
  omega

end Path

namespace Step

variable {scope : Scope} {n : Text}

theorem walk_none (rest : List Step) : walk scope none rest = .ok none := by
  cases rest <;> rw [walk]

theorem walk_congr {v : Value} {a b : Step} (same : a.take scope v = b.take scope v)
    (rest : List Step) : walk scope (some v) (a :: rest) = walk scope (some v) (b :: rest) := by
  rw [walk, walk, same]

theorem take_key (v : Value) : (Step.index (.literal (.text n))).take scope v =
    (v.index? (.text n)).mapError .crash := by
  rw [take, Expr.eval]
  rfl

end Step

/-- A name in brackets and quotation marks leads from every value where it leads behind a dot,
whatever steps follow, unless a text is asked for its length, which is a field only. -/
theorem Scope.name_in_brackets (scope : Scope) {n : Text} (named : n.IsName) :
    (∀ v rest, ¬ (n = Value.lengthName ∧ ∃ t, v = .text t) →
      Step.walk scope (some v) (.index (.literal (.text n)) :: rest) =
        Step.walk scope (some v) (.field n :: rest)) ∧
    (∀ t rest, n = Value.lengthName →
      Step.walk scope (some (.text t)) (.field n :: rest) =
        Step.walk scope (some (.scalar (.int t.length))) rest ∧
      Step.walk scope (some (.text t)) (.index (.literal (.text n)) :: rest) = .ok none) ∧
    ∀ (root : Text) (mark : Char), root.IsName → mark = '\x27' ∨ mark = '\x22' →
      let dotted := root ++ '.' :: n
      let bracketed := root ++ '[' :: mark :: (n ++ [mark, ']'])
      Path.parse dotted = .ok ⟨root, [.field n], dotted⟩ ∧
      Path.parse bracketed = .ok ⟨root, [.index (.literal (.text n))], bracketed⟩ := by
  refine ⟨fun v rest other => ?_, fun t rest length => ⟨?_, ?_⟩, fun root mark rooted quotes => ?_⟩
  · refine Step.walk_congr ?_ rest
    rw [Step.take_key, Step.take]
    by_cases text : ∃ t, v = .text t
    · obtain ⟨t, rfl⟩ := text
      rw [Value.index?_text, Value.field?_text, if_neg fun length => other ⟨length, t, rfl⟩]
    · rw [Value.index?_name named fun t same => text ⟨t, same⟩]
  · rw [Step.walk, Step.take, Value.field?_text, if_pos length]
    rfl
  · rw [Step.walk, Step.take_key, Value.index?_text]
    exact Step.walk_none rest
  · have bracketed := Path.parse_bracketed rooted quotes n
    rw [named.quotation_eq quotes, List.cons_append, List.append_assoc] at bracketed
    exact ⟨Path.parse_dotted rooted named, bracketed⟩

/-- A field whose name reads as a float, which a list would not take for an index either. -/
theorem Scope.name_in_brackets_float :
    let scope : Scope := ⟨⟨[], ⟨.null, [], [], [], [], [], false⟩,
      ⟨.null, .null, 0, none, .null, .null, none, none, none, [], [], [], []⟩,
      ⟨.null, [], [], .null⟩, .finite false 0 0⟩, []⟩
    let object : Value := .json (.object [("inf".toList, .int 1)])
    let list : Value := .json (.array [.int 1])
    Value.number? (.text "inf".toList) = some (.float (.infinite false)) ∧
      Step.walk scope (some object) [.index (.literal (.text "inf".toList))] =
        .ok (some (.scalar (.int 1))) ∧
      Step.walk scope (some list) [.index (.literal (.text "inf".toList))] = .ok none ∧
      Path.parse "x['inf']".toList =
        .ok ⟨['x'], [.index (.literal (.text "inf".toList))], "x['inf']".toList⟩ := by
  intro scope object list
  have named : Text.IsName "inf".toList := ⟨'i', ['n', 'f'], rfl, rfl, List.all_eq_true.mp rfl⟩
  obtain ⟨same, -, read⟩ := scope.name_in_brackets named
  have other : "inf".toList ≠ Value.lengthName := by decide
  exact ⟨by cbv, (same object [] fun both => other both.1).trans rfl,
    (same list [] fun both => other both.1).trans rfl,
    (read ['x'] '\x27' ⟨'x', [], rfl, rfl, nofun⟩ (.inl rfl)).2⟩

/-- The length of a text is its field, and nothing in brackets. -/
theorem Scope.text_length_in_brackets :
    let scope : Scope := ⟨⟨[], ⟨.null, [], [], [], [], [], false⟩,
      ⟨.null, .null, 0, none, .null, .null, none, none, none, [], [], [], []⟩,
      ⟨.null, [], [], .null⟩, .finite false 0 0⟩, [("word".toList, .text "abc".toList)]⟩
    scope.resolve "word.length".toList = .ok (some (.scalar (.int 3))) ∧
      scope.resolve "word['length']".toList = .ok none := by
  intro scope
  have root : Text.IsName "word".toList := ⟨'w', "ord".toList, rfl, rfl, List.all_eq_true.mp rfl⟩
  have dotted := Path.parse_dotted (n := "length".toList) root
    ⟨'l', "ength".toList, rfl, rfl, List.all_eq_true.mp rfl⟩
  have bracketed := Path.parse_bracketed root (.inl rfl) "length".toList
  constructor
  · exact scope.resolve_of_parse dotted
  · exact scope.resolve_of_parse bracketed

end ChatCommands
