import ChatCommands.Store.File

/-!
Calls on a store, one after another.

A call carries what the program takes from outside when it is made: adding a command the id of the
command, and what dates a command the time. A refused call has no use for them.

What a call does to the contents is said once, by `Contents.Change`; every invariant of the store
is a case analysis over it.
-/

namespace ChatCommands

namespace Store

inductive Call where
  | add (server : Int) (name response : Text) (createdBy : Option Int) (id : Text) (now : Instant)
  | edit (server : Int) (identifier response : Text) (now : Instant)
  | remove (server : Int) (identifier : Text)
  | setPrefix (server : Int) (own : Text)
  | find (server : Int) (name : Text)
  | findByIdentifier (server : Int) (identifier : Text)
  | list (server : Int)
  | prefixFor (server : Option Int) (fallback : Text)

/-- What a call gives back: the outcome of a change, or the result of a query. -/
inductive Answer where
  | command (r : Except StoreError Command)
  | ownPrefix (r : Except StoreError Text)
  | found (c : Option Command)
  | listed (commands : List Command)
  | shown (t : Text)

namespace Call

/-- The server that makes a call. Only the prefix can be asked for outside of every server. -/
def server? : Call → Option Int
  | add server .. | edit server .. | remove server _ | setPrefix server _ => some server
  | find server _ | findByIdentifier server _ | list server => some server
  | prefixFor server _ => server

def isBy (g : Int) (c : Call) : Bool :=
  c.server? == some g

def newId? : Call → Option Text
  | add _ _ _ _ id _ => some id
  | _ => none

end Call

/-- Whether a call made a change. -/
def Answer.isMade : Answer → Bool
  | .command (.ok _) | .ownPrefix (.ok _) => true
  | _ => false

/-- The commands that an answer shows. -/
def Answer.commands : Answer → List Command
  | command (.ok c) => [c]
  | found c => c.toList
  | listed commands => commands
  | _ => []

/-- The answer to a change, and the state after it, which is `s` where the change is refused. -/
def settle (s : σ) (answer : Except StoreError α → Answer) :
    Except StoreError (α × σ) → Answer × σ
  | .ok (a, t) => (answer (.ok a), t)
  | .error e => (answer (.error e), s)

/-- A call on a store. -/
def answer (s : Store) : Call → Answer × Store
  | .add server name response createdBy id now =>
    settle s .command (s.add server name response createdBy id now)
  | .edit server identifier response now =>
    settle s .command (s.edit server identifier response now)
  | .remove server identifier => settle s .command (s.remove server identifier)
  | .setPrefix server own => settle s .ownPrefix (s.setPrefix server own)
  | .find server name => (.found (s.contents.find server name), s)
  | .findByIdentifier server identifier =>
    (.found (s.contents.findByIdentifier server identifier), s)
  | .list server => (.listed (s.contents.list server), s)
  | .prefixFor server fallback => (.shown (s.contents.prefixFor server fallback), s)

/-- The calls with their answers, and the store after the last of them. -/
def run (s : Store) : List Call → List (Call × Answer) × Store
  | [] => ([], s)
  | c :: rest =>
    let (log, last) := run (s.answer c).2 rest
    ((c, (s.answer c).1) :: log, last)

end Store

namespace Contents

open Store (Answer settle)

/-- A call on the contents alone. -/
def answer (s : Contents) : Store.Call → Answer × Contents
  | .add server name response createdBy id now =>
    settle s .command (s.add server name response createdBy id now)
  | .edit server identifier response now =>
    settle s .command (s.edit server identifier response now)
  | .remove server identifier => settle s .command (s.remove server identifier)
  | .setPrefix server own => settle s .ownPrefix (s.setPrefix server own)
  | .find server name => (.found (s.find server name), s)
  | .findByIdentifier server identifier => (.found (s.findByIdentifier server identifier), s)
  | .list server => (.listed (s.list server), s)
  | .prefixFor server fallback => (.shown (s.prefixFor server fallback), s)

/-- The contents that a call may leave behind. -/
inductive Change (s : Contents) : Store.Call → Contents → Prop
  | kept {c : Store.Call} : Change s c s
  | added {server : Int} {name response : Text} {createdBy : Option Int} {id : Text} {now : Instant}
      (word : isWord (key name) = true) (filled : Text.blank response = false)
      (free : s.find server (key name) = none) :
      Change s (.add server name response createdBy id now)
        (s.put ⟨id, server, key name, response, createdBy, some now, some now⟩)
  | edited {server : Int} {identifier response : Text} {now : Instant} {old : Command}
      (found : s.findByIdentifier server identifier = some old)
      (filled : Text.blank response = false) :
      Change s (.edit server identifier response now)
        (s.put { old with response, updatedAt := some now })
  | removed {server : Int} {identifier : Text} {old : Command}
      (found : s.findByIdentifier server identifier = some old) :
      Change s (.remove server identifier)
        { s with commands := s.commands.filter fun d => d.id != old.id }
  | prefixed {server : Int} {own : Text} (word : isWord (Text.strip own) = true) :
      Change s (.setPrefix server own)
        { s with prefixes := putPrefix server (some (Text.strip own)) s.prefixes }

theorem answer_change (s : Contents) (c : Store.Call) : s.Change c (s.answer c).2 := by
  cases c with
  | add server name response createdBy id now =>
    simp only [answer, add]
    split
    · exact .kept
    split
    · exact .kept
    split
    · exact .kept
    · rename_i word filled free
      exact .added (by simpa using word) (by simpa using filled) (by simpa using free)
  | edit server identifier response now =>
    simp only [answer, edit]
    split
    · exact .kept
    · rename_i old found
      split
      · exact .kept
      · rename_i filled
        exact .edited found (by simpa using filled)
  | remove server identifier =>
    simp only [answer, remove]
    split
    · exact .kept
    · exact .removed ‹_›
  | setPrefix server own =>
    simp only [answer, setPrefix]
    split
    · exact .kept
    · rename_i word
      exact .prefixed (by simpa using word)
  | find | findByIdentifier | list | prefixFor => exact .kept

end Contents

namespace Store

/-- A change of a store is the change of its contents, and writes the file where it is made. -/
theorem settle_change (s : Store) (answer : Except StoreError α → Answer)
    (f : Contents → Except StoreError (α × Contents)) :
    (settle s answer (s.change f)).1 = (settle s.contents answer (f s.contents)).1 ∧
      (settle s answer (s.change f)).2.contents = (settle s.contents answer (f s.contents)).2 := by
  simp only [change]
  cases f s.contents with
  | ok r => exact ⟨rfl, rfl⟩
  | error e => exact ⟨rfl, rfl⟩

theorem answer_eq (s : Store) (c : Call) :
    (s.answer c).1 = (s.contents.answer c).1 ∧
      (s.answer c).2.contents = (s.contents.answer c).2 := by
  cases c with
  | add | edit | remove | setPrefix => exact settle_change ..
  | find | findByIdentifier | list | prefixFor => exact ⟨rfl, rfl⟩

/-- A call that makes a change writes the contents it leaves behind. Any other call leaves the
store, and with it the file, as it is. -/
theorem answer_cases (s : Store) (c : Call) :
    ((s.answer c).1.isMade = true ∧
      (s.answer c).2.file = some (s.answer c).2.contents.fileText) ∨
    ((s.answer c).1.isMade = false ∧ (s.answer c).2 = s) := by
  have change {α : Type} (answer : Except StoreError α → Answer)
      (made : ∀ a, (answer (.ok a)).isMade = true)
      (refused : ∀ e, (answer (.error e)).isMade = false)
      (f : Contents → Except StoreError (α × Contents)) :
      ((settle s answer (s.change f)).1.isMade = true ∧ (settle s answer (s.change f)).2.file =
        some (settle s answer (s.change f)).2.contents.fileText) ∨
      ((settle s answer (s.change f)).1.isMade = false ∧
        (settle s answer (s.change f)).2 = s) := by
    simp only [Store.change]
    cases f s.contents with
    | ok r => exact .inl ⟨made r.1, rfl⟩
    | error e => exact .inr ⟨refused e, rfl⟩
  cases c with
  | add | edit | remove | setPrefix => exact change _ (fun _ => rfl) (fun _ => rfl) _
  | find | findByIdentifier | list | prefixFor => exact .inr ⟨rfl, rfl⟩

end Store

end ChatCommands
