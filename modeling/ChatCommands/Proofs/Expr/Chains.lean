import Mathlib.Algebra.Group.Nat.Even
import Mathlib.Data.List.Induction
import ChatCommands.Proofs.Expr.Sources

/-!
A chain of numbers behind the root of a path.

The numbers come in pairs, each pair with its point as one token. Every number is an index all the
same, but only a number that is left over can join the items from there on: a plus behind a pair
is not read.
-/

namespace ChatCommands

open Grammar (indexAt)

namespace Text

/-- Whether a text is one name, whatever word it is. -/
def IsName (t : Text) : Prop :=
  ∃ c rest, t = c :: rest ∧ Token.isNameStart c = true ∧ ∀ d ∈ rest, Token.isNameChar d = true

instance (t : Text) : Decidable t.Digits :=
  decidable_of_iff (t ≠ [] ∧ t.all isDigit = true) (and_congr_right' List.all_eq_true)

/-- Numbers with a point in front of each. -/
def chain (ns : List Text) : Text :=
  ns.flatMap fun n => '.' :: n

/-- What digits are the numeral of. -/
def numeral (t : Text) : Nat :=
  Numeral.ofDigits (t.filterMap digitValue)

theorem chain_cons (n : Text) (ns : List Text) : chain (n :: ns) = '.' :: (n ++ chain ns) := rfl

end Text

namespace Numeral

open Text

theorem digitRun_values {ds : Text} (digits : ∀ c ∈ ds, isDigit c = true) (inside : Bool) :
    digitRun inside ds = (ds.filterMap digitValue, []) := by
  induction ds generalizing inside with
  | nil => rfl
  | cons c ds ih =>
    obtain ⟨digit, others⟩ := List.forall_mem_cons.mp digits
    obtain ⟨d, value⟩ := Option.isSome_iff_exists.mp digit
    rw [List.filterMap_cons_some value]
    unfold digitRun
    split
    · rename_i same
      cases same
    · rename_i same
      obtain ⟨rfl, _⟩ := List.cons.inj same
      cases digit
    · rename_i same
      obtain ⟨rfl, rfl⟩ := List.cons.inj same
      rw [value, ih others]

theorem readInt_numeral {t : Text} (digits : t.Digits) (short : t.length ≤ maxDigits) :
    readInt t = some (t.numeral : Int) := by
  have run := digitRun_values digits.2 false
  have trimmed := trim_eq_self fun c member => isBlank_of_isDigit (digits.2 c member)
  obtain ⟨k, read⟩ := Option.isSome_iff_exists.mp ((readInt_digits digits).mpr short)
  rw [read]
  rw [readInt, trimmed] at read
  cases t with
  | nil => exact absurd rfl digits.1
  | cons c t =>
    rw [sign_eq_self (digits.2 c List.mem_cons_self)] at read
    simp only [run] at read
    rw [numeral]
    generalize (c :: t).filterMap digitValue = values at read ⊢
    cases values with
    | nil => cases read
    | cons d values =>
      dsimp only at read
      split at read
      · exact read.symm
      · cases read

end Numeral

namespace Token

open Text (chain)

/-- The tokens of an even number of numbers: a dot and a number with a point for each two. -/
def pairs (p : Nat) : List Text → List Token
  | n :: m :: ns =>
    ⟨.op, ['.'], p⟩ :: ⟨.number, n ++ '.' :: m, p + 1⟩ ::
      pairs (p + 1 + (n ++ '.' :: m).length) ns
  | _ => []

section Lexemes

variable {c : Char} {ds m s : Text} {p : Nat} {us : List Token}

theorem takeWhile_all {q : Char → Bool} (all : ∀ d ∈ ds, q d = true)
    (ends : ∀ d ∈ s.head?, q d = false) : (ds ++ s).takeWhile q = ds := by
  have none : s.takeWhile q = [] := by
    cases s with
    | nil => rfl
    | cons d s => exact List.takeWhile_cons_of_neg (by simp [ends d rfl])
  rw [List.takeWhile_append_of_pos all, none, List.append_nil]

theorem scans_name {root : Text} (named : root.IsName)
    (ends : ∀ d ∈ s.head?, isNameChar d = false) (behind : Scans (p + root.length) s us) :
    Scans p (root ++ s) (⟨.name, root, p⟩ :: us) := by
  obtain ⟨c, rest, rfl, start, letters⟩ := named
  refine .whole rest ?_ behind
  rw [lexeme_of_isNameStart start, takeWhile_all letters ends]

theorem lexeme_of_digit (digit : Text.isDigit c = true) (rest : Text) :
    lexeme c rest = some (some .number, numberLength rest) :=
  lexeme_iff.mpr (.number (by simp [Text.isBlank_of_isDigit digit]) digit)

theorem scans_number {n : Text} (digits : n.Digits)
    (ends : ∀ d ∈ s.head?, Text.isDigit d = false ∧ d ≠ '.')
    (behind : Scans (p + n.length) s us) : Scans p (n ++ s) (⟨.number, n, p⟩ :: us) := by
  obtain ⟨c, ds, rfl⟩ := List.exists_cons_of_ne_nil digits.1
  obtain ⟨digit, others⟩ := List.forall_mem_cons.mp digits.2
  have whole := takeWhile_all others fun d first => (ends d first).1
  have alone : fractionLength s = 0 := by
    cases s with
    | nil => rfl
    | cons d s => exact fractionLength_of_ne (ends d rfl).2 s
  have length : numberLength (ds ++ s) = ds.length := by
    rw [numberLength_eq, whole, List.drop_left, alone, Nat.add_zero]
  exact .whole ds ((lexeme_of_digit digit _).trans (by rw [length])) behind

/-- Two numbers with a point between them are one token, which a further point does not join. -/
theorem scans_pair {n : Text} (first : n.Digits) (second : m.Digits)
    (ends : ∀ d ∈ s.head?, Text.isDigit d = false)
    (behind : Scans (p + (n ++ '.' :: m).length) s us) :
    Scans p (n ++ '.' :: m ++ s) (⟨.number, n ++ '.' :: m, p⟩ :: us) := by
  obtain ⟨c, ds, rfl⟩ := List.exists_cons_of_ne_nil first.1
  obtain ⟨digit, others⟩ := List.forall_mem_cons.mp first.2
  have whole : (ds ++ '.' :: (m ++ s)).takeWhile Text.isDigit = ds :=
    takeWhile_all others (by rintro _ ⟨⟩; rfl)
  have fraction : fractionLength ('.' :: (m ++ s)) = 1 + m.length := by
    rw [fractionLength, takeWhile_all second.2 ends, if_neg (by simp [second.1])]
  have length : numberLength (ds ++ '.' :: m ++ s) = (ds ++ '.' :: m).length := by
    rw [List.append_assoc, List.cons_append, numberLength_eq, whole, List.drop_left, fraction,
      List.length_append, List.length_cons, Nat.add_comm 1]
  exact Scans.whole (ds ++ '.' :: m) ((lexeme_of_digit digit _).trans (by rw [length])) behind

theorem scans_dot (behind : Scans (p + 1) s us) : Scans p ('.' :: s) (⟨.op, ['.'], p⟩ :: us) :=
  Scans.whole [] rfl behind

theorem head_chain {q : Char → Bool} (point : q '.' = false) (ends : ∀ d ∈ s.head?, q d = false)
    (ns : List Text) : ∀ d ∈ (chain ns ++ s).head?, q d = false := by
  cases ns with
  | nil => exact ends
  | cons n ns =>
    rintro _ ⟨⟩
    exact point

theorem scans_pairs {ns : List Text} (even : Even ns.length) (digits : ∀ n ∈ ns, n.Digits)
    (ends : ∀ d ∈ s.head?, Text.isDigit d = false)
    (behind : Scans (p + (chain ns).length) s us) :
    Scans p (chain ns ++ s) (pairs p ns ++ us) := by
  induction ns using List.twoStepInduction generalizing p with
  | nil => exact behind
  | singleton n => simp at even
  | cons_cons n m ns ih _ =>
    obtain ⟨first, second, others⟩ := by simpa only [List.forall_mem_cons] using digits
    have even : Even ns.length := by simpa [Nat.even_add_one] using even
    have later : Scans (p + 1 + (n ++ '.' :: m).length) (chain ns ++ s)
        (pairs (p + 1 + (n ++ '.' :: m).length) ns ++ us) := by
      refine ih even others ?_
      convert behind using 1
      simp [Text.chain_cons]
      omega
    have scans := scans_dot (scans_pair first second (head_chain rfl ends ns) later)
    simpa [Text.chain_cons, pairs] using scans

theorem lastStop_pairs {ns : List Text} (even : Even ns.length) (p : Nat) :
    lastStop p (pairs p ns) = p + (chain ns).length := by
  induction ns using List.twoStepInduction generalizing p with
  | nil => rfl
  | singleton n => simp at even
  | cons_cons n m ns ih _ =>
    have even : Even ns.length := by simpa [Nat.even_add_one] using even
    have later := ih even (p + 1 + (n ++ '.' :: m).length)
    rw [pairs, lastStop_cons, lastStop_cons]
    refine later.trans ?_
    simp [Text.chain_cons]
    omega

end Lexemes

end Token

namespace Parse

open Token (lastStop lastStop_cons pairs)

variable {inner : Parse Expr} {ts final : List Token} {ss : List Step}

/-- Whether the steps in front of the tokens `final` are `ss`, which the tokens `ts` write. -/
def Stepping (inner : Parse Expr) (ts final : List Token) (ss : List Step) : Prop :=
  ∀ fuel stop, (ts ++ final).length < fuel →
    steps inner fuel stop (ts ++ final) = .ok ((ss, lastStop stop ts), final)

theorem stepping_none (dot : ∀ t ∈ final.head?, t.isMark "." = false)
    (left : ∀ t ∈ final.head?, t.isMark "[" = false) : Stepping inner [] final [] := by
  intro fuel stop enough
  cases fuel with
  | zero => cases enough
  | succ fuel =>
    cases final with
    | nil => rfl
    | cons t final => simp [steps, dot t rfl, left t rfl, pure, Except.pure, lastStop]

/-- A number with a point is two indices, whatever stands behind it, a plus as well. -/
theorem numericStep_pair {n m : Text} (first : n.Digits) (second : m.Digits) {i j : Int}
    (value : Numeral.readInt n = some i) (value' : Numeral.readInt m = some j) (p : Nat)
    (tokens : List Token) : numericStep ⟨.number, n ++ '.' :: m, p⟩ tokens =
      .ok (([indexAt i, indexAt j], p + (n ++ '.' :: m).length), tokens) := by
  have indices : indexSteps ⟨.number, n ++ '.' :: m, p⟩ = .ok [indexAt i, indexAt j] := by
    refine indexSteps_eq_ok.mpr ⟨[i, j], ?_, rfl⟩
    rw [Token.splitOn_point first second, List.map_cons, value, List.map_singleton, value']
    rfl
  have fraction : (n ++ '.' :: m).contains '.' = true := by simp
  cases tokens with
  | nil => rw [numericStep, indices]; rfl
  | cons t tokens =>
    rw [numericStep, fraction, Bool.not_true, Bool.and_false, indices]
    rfl

theorem stepping_pairs {ns : List Text} (even : Even ns.length) (p : Nat)
    (digits : ∀ n ∈ ns, n.Digits ∧ n.length ≤ Numeral.maxDigits)
    (behind : Stepping inner ts final ss) :
    Stepping inner (pairs p ns ++ ts) final ((ns.map fun n => indexAt n.numeral) ++ ss) := by
  induction ns using List.twoStepInduction generalizing p with
  | nil => exact behind
  | singleton n => simp at even
  | cons_cons n m ns ih _ =>
    obtain ⟨⟨first, short⟩, ⟨second, short'⟩, others⟩ := by
      simpa only [List.forall_mem_cons] using digits
    have even : Even ns.length := by simpa [Nat.even_add_one] using even
    rintro (_ | fuel) stop enough
    · cases enough
    · have later := ih even (p + 1 + (n ++ '.' :: m).length) others fuel
        (p + 1 + (n ++ '.' :: m).length) (by simp [pairs] at enough ⊢; omega)
      have step := numericStep_pair first second (Numeral.readInt_numeral first short)
        (Numeral.readInt_numeral second short') (p + 1)
        (pairs (p + 1 + (n ++ '.' :: m).length) ns ++ ts ++ final)
      have taken : steps inner (fuel + 1) stop
          (⟨.op, ['.'], p⟩ :: ⟨.number, n ++ '.' :: m, p + 1⟩ :: _) = _ :=
        steps_dotted rfl ((dottedStep_number rfl).trans step) later
      simp only [pairs, List.cons_append, lastStop_cons]
      exact taken

theorem stepping_index {n : Text} (digits : n.Digits) (short : n.length ≤ Numeral.maxDigits)
    (p : Nat) : Stepping inner [⟨.op, ['.'], p⟩, ⟨.number, n, p + 1⟩] [] [indexAt n.numeral] := by
  rintro (_ | fuel) stop enough
  · cases enough
  · have step : numericStep ⟨.number, n, p + 1⟩ [] = .ok (([indexAt n.numeral], _), []) :=
      numericStep_whole (digits.ne (by decide)) (Numeral.readInt_numeral digits short) .nil
    exact steps_dotted rfl ((dottedStep_number rfl).trans step) (steps_none fuel _ .nil)

theorem stepping_join {n : Text} (digits : n.Digits) (short : n.length ≤ Numeral.maxDigits)
    (p q : Nat) : Stepping inner [⟨.op, ['.'], p⟩, ⟨.number, n, p + 1⟩, ⟨.op, ['+'], q⟩] []
      [.joinFrom n.numeral] := by
  rintro (_ | fuel) stop enough
  · cases enough
  · have step : numericStep ⟨.number, n, p + 1⟩ [⟨.op, ['+'], q⟩] =
        .ok (([.joinFrom n.numeral], _), []) :=
      numericStep_join (digits.ne (by decide)) (Numeral.readInt_numeral digits short) rfl
    exact steps_dotted rfl ((dottedStep_number rfl).trans step) (steps_none fuel _ .nil)

end Parse

namespace Path

open Token (Scans lastStop pairs)

/-- A path of a root, an even number of numbers, and what stands behind them. -/
theorem parse_pairs {root s : Text} {ns : List Text} {ss : List Step} (ts final : List Token)
    (named : root.IsName) (even : Even ns.length)
    (digits : ∀ n ∈ ns, n.Digits ∧ n.length ≤ Numeral.maxDigits)
    (ends : ∀ d ∈ s.head?, Token.isNameChar d = false ∧ Text.isDigit d = false)
    (scans : Scans (root.length + (Text.chain ns).length) s (ts ++ final))
    (whole : lastStop (root.length + (Text.chain ns).length) (ts ++ final) =
      root.length + (Text.chain ns).length + s.length)
    (stepping : ∀ inner, Parse.Stepping inner ts final ss) :
    let text := root ++ (Text.chain ns ++ s)
    Path.parse text = Parse.finish (⟨root, (ns.map fun n => indexAt n.numeral) ++ ss,
      Text.slice text 0 (lastStop (root.length + (Text.chain ns).length) ts)⟩, final) := by
  intro text
  have numbers := Token.scans_pairs even (fun n member => (digits n member).1)
    (fun d first => (ends d first).2) scans
  have tokens : Scans 0 text (⟨.name, root, 0⟩ :: (pairs root.length ns ++ (ts ++ final))) :=
    Token.scans_name named (Token.head_chain rfl (fun d first => (ends d first).1) ns)
      (by rwa [Nat.zero_add])
  have start : Token.stop ⟨.name, root, 0⟩ = root.length := Nat.zero_add _
  have reach : lastStop (Token.stop ⟨.name, root, 0⟩) (pairs root.length ns ++ (ts ++ final)) =
      text.length := by
    rw [start, Token.lastStop_append, Token.lastStop_pairs even, whole]
    simp [text, Nat.add_assoc]
  have read := Parse.stepping_pairs even root.length digits
    (stepping (Parse.disjunction (Text.slice text) 64))
    ((pairs root.length ns ++ (ts ++ final)).length + 1) (Token.stop ⟨.name, root, 0⟩) (by simp)
  rw [List.append_assoc, start, Token.lastStop_append, Token.lastStop_pairs even] at read
  rw [parse_scanned tokens rfl reach, Parse.path, if_pos rfl, start, read]
  rfl

theorem parse_pairs_whole {root s : Text} {ns : List Text} {ts : List Token} {ss : List Step}
    (named : root.IsName) (even : Even ns.length)
    (digits : ∀ n ∈ ns, n.Digits ∧ n.length ≤ Numeral.maxDigits)
    (ends : ∀ d ∈ s.head?, Token.isNameChar d = false ∧ Text.isDigit d = false)
    (scans : Scans (root.length + (Text.chain ns).length) s ts)
    (whole : lastStop (root.length + (Text.chain ns).length) ts =
      root.length + (Text.chain ns).length + s.length)
    (stepping : ∀ inner, Parse.Stepping inner ts [] ss) :
    Path.parse (root ++ Text.chain ns ++ s) =
      .ok ⟨root, (ns.map fun n => indexAt n.numeral) ++ ss, root ++ Text.chain ns ++ s⟩ := by
  have read := parse_pairs ts [] named even digits ends (by rwa [List.append_nil])
    (by rwa [List.append_nil]) stepping
  have length : lastStop (root.length + (Text.chain ns).length) ts =
      (root ++ Text.chain ns ++ s).length := by
    rw [whole, List.length_append, List.length_append]
  dsimp only at read
  rw [← List.append_assoc, length, Text.slice, List.take_length, List.drop_zero] at read
  exact read

/-- Behind pairs alone, a plus has nothing to join from. -/
theorem parse_even {root : Text} {ns : List Text} (named : root.IsName) (even : Even ns.length)
    (digits : ∀ n ∈ ns, n.Digits ∧ n.length ≤ Numeral.maxDigits) :
    let text := root ++ Text.chain ns
    Path.parse text = .ok ⟨root, ns.map fun n => indexAt n.numeral, text⟩ ∧
    Path.parse (text ++ "+".toList) = .error (.eval (.unexpected "+".toList text.length)) := by
  intro text
  constructor
  · have read := parse_pairs_whole named even digits (s := []) nofun .done rfl
      fun inner => Parse.stepping_none nofun nofun
    rwa [List.append_nil, List.append_nil] at read
  · let plus : Token := ⟨.op, ['+'], root.length + (Text.chain ns).length⟩
    have scans : Scans (root.length + (Text.chain ns).length) "+".toList [plus] :=
      .whole [] (s := []) rfl .done
    -- The last number is a fraction, after which no plus is looked for: it stays where it is.
    have left (inner : Parse Expr) : Parse.Stepping inner [] [plus] [] :=
      Parse.stepping_none (by rintro _ ⟨⟩; rfl) (by rintro _ ⟨⟩; rfl)
    have read := parse_pairs [] [plus] named even digits (by rintro _ ⟨⟩; exact ⟨rfl, rfl⟩) scans
      rfl left
    rw [List.append_assoc, read, List.length_append]
    rfl

/-- The number that is left over behind pairs is an index, or joins the items from there on. -/
theorem parse_odd {root last : Text} {front : List Text} (named : root.IsName)
    (even : Even front.length)
    (digits : ∀ n ∈ front ++ [last], n.Digits ∧ n.length ≤ Numeral.maxDigits) :
    let text := root ++ Text.chain (front ++ [last])
    Path.parse text = .ok ⟨root, (front ++ [last]).map fun n => indexAt n.numeral, text⟩ ∧
    Path.parse (text ++ "+".toList) = .ok ⟨root,
      (front.map fun n => indexAt n.numeral) ++ [.joinFrom last.numeral], text ++ "+".toList⟩ := by
  intro text
  obtain ⟨earlier, alone⟩ := List.forall_mem_append.mp digits
  obtain ⟨number, short⟩ := alone last List.mem_cons_self
  have split : text = root ++ Text.chain front ++ '.' :: last := by
    simp [text, Text.chain]
  have point (s : Text) : ∀ d ∈ ('.' :: s).head?,
      Token.isNameChar d = false ∧ Text.isDigit d = false := by
    rintro _ ⟨⟩
    exact ⟨rfl, rfl⟩
  constructor
  · have scans (p : Nat) : Scans p ('.' :: last) [⟨.op, ['.'], p⟩, ⟨.number, last, p + 1⟩] := by
      have scans := Token.scans_dot (p := p) (Token.scans_number number (s := []) nofun .done)
      rwa [List.append_nil] at scans
    have read := parse_pairs_whole named even earlier (point last) (scans _)
      (by simp [lastStop, Token.stop]; omega) fun inner => Parse.stepping_index number short _
    rw [← split] at read
    simpa using read
  · have scans (p : Nat) : Scans p ('.' :: (last ++ "+".toList)) [⟨.op, ['.'], p⟩,
        ⟨.number, last, p + 1⟩, ⟨.op, ['+'], p + 1 + last.length⟩] :=
      Token.scans_dot (Token.scans_number number (by rintro _ ⟨⟩; exact ⟨rfl, by decide⟩)
        (.whole [] (s := []) rfl .done))
    have read := parse_pairs_whole named even earlier (point _) (scans _)
      (by simp [lastStop, Token.stop]; omega) fun inner => Parse.stepping_join number short _ _
    rw [← List.cons_append, ← List.append_assoc, ← split] at read
    exact read

/-- Every number of a chain is an index. A plus behind it joins the items from its last number on
when an even number of numbers stand before that, and is not read otherwise. -/
theorem parse_chain {root last : Text} {front : List Text} (named : root.IsName)
    (digits : ∀ n ∈ front ++ [last], n.Digits ∧ n.length ≤ Numeral.maxDigits) :
    let text := root ++ Text.chain (front ++ [last])
    (∀ n ∈ front ++ [last], Numeral.readInt n = some (n.numeral : Int)) ∧
    Path.parse text = .ok ⟨root, (front ++ [last]).map fun n => indexAt n.numeral, text⟩ ∧
    Path.parse (text ++ "+".toList) =
      if Even front.length then
        .ok ⟨root, (front.map fun n => indexAt n.numeral) ++ [.joinFrom last.numeral],
          text ++ "+".toList⟩
      else .error (.eval (.unexpected "+".toList text.length)) := by
  intro text
  refine ⟨fun n member => Numeral.readInt_numeral (digits n member).1 (digits n member).2, ?_⟩
  -- The last number is left over, or completes a pair.
  by_cases even : Even front.length
  · rw [if_pos even]
    exact parse_odd named even digits
  · rw [if_neg even]
    exact parse_even named (by simpa [Nat.even_add_one] using even) digits

theorem parse_chain_items :
    Path.parse "items.0.1.20+".toList = .ok ⟨"items".toList,
      [indexAt 0, indexAt 1, .joinFrom 20], "items.0.1.20+".toList⟩ ∧
    Path.parse "items.0.1+".toList = .error (.eval (.unexpected "+".toList 9)) := by
  have named : Text.IsName "items".toList :=
    ⟨'i', "tems".toList, rfl, rfl, List.all_eq_true.mp rfl⟩
  have three : ∀ n ∈ ["0".toList, "1".toList] ++ ["20".toList],
      Text.Digits n ∧ n.length ≤ Numeral.maxDigits := by decide
  have two : ∀ n ∈ ["0".toList] ++ ["1".toList],
      Text.Digits n ∧ n.length ≤ Numeral.maxDigits := by decide
  have odd := (parse_chain named three).2.2
  have even := (parse_chain named two).2.2
  rw [if_pos (by decide)] at odd
  rw [if_neg (by decide)] at even
  exact ⟨odd, even⟩

/-- Behind two numbers a plus does not join. -/
theorem paired_join_unread :
    ¬ ∀ (root last : Text) (front : List Text), root.IsName →
      (∀ n ∈ front ++ [last], n.Digits ∧ n.length ≤ Numeral.maxDigits) →
      let text := root ++ Text.chain (front ++ [last])
      Path.parse text = .ok ⟨root, (front ++ [last]).map fun n => indexAt n.numeral, text⟩ ∧
      Path.parse (text ++ "+".toList) = .ok ⟨root,
        (front.map fun n => indexAt n.numeral) ++ [.joinFrom last.numeral],
        text ++ "+".toList⟩ := by
  intro claim
  have named : Text.IsName "items".toList :=
    ⟨'i', "tems".toList, rfl, rfl, List.all_eq_true.mp rfl⟩
  have refused : Path.parse "items.0.1+".toList =
      .error (.eval (.unexpected "+".toList 9)) := by cbv
  have joined := (claim "items".toList "1".toList ["0".toList] named (by decide)).2
  cases refused.symm.trans joined

end Path

end ChatCommands
