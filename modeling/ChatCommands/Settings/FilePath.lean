import ChatCommands.Crash
import ChatCommands.Settings.Environment

/-!
Paths of files, as names below a root or below the current directory.

A path is kept in one form: empty names and single dots are dropped, and a root of two slashes is
told apart from the usual one. A path that begins with a tilde begins in the home directory.
-/

namespace ChatCommands

structure FilePath where
  root : Text
  names : List Text
deriving DecidableEq

namespace FilePath

/-- The slashes at the start that make the root: none, one, or exactly two. -/
def rootOf (t : Text) : Text :=
  match (t.takeWhile (· == '/')).length with
  | 0 => []
  | 2 => ['/', '/']
  | _ => ['/']

/-- Whether a name between two slashes counts. -/
def isName (name : Text) : Bool :=
  !name.isEmpty && name != ['.']

def ofText (t : Text) : FilePath :=
  ⟨rootOf t, (t.splitOn '/').filter isName⟩

def text (p : FilePath) : Text :=
  if p.root.isEmpty && p.names.isEmpty then ['.']
  else p.root ++ Text.join ['/'] p.names

/-- The home directory, without slashes at its end. One that begins with a tilde is none. -/
def home (directory : Text) : Except Crash FilePath :=
  let trimmed := (directory.reverse.dropWhile (· == '/')).reverse
  if trimmed.head? = some '~' then .error .unknownHome
  else .ok (ofText (if trimmed.isEmpty then ['/'] else trimmed))

/-- The path with a tilde at its start replaced by the home directory. The home of another user is
not known. -/
def expandHome (env : Environment) (p : FilePath) : Except Crash FilePath :=
  match p.names with
  | ('~' :: user) :: rest =>
    if !p.root.isEmpty then .ok p
    else
      match user, env.get? "HOME".toList with
      | [], some directory =>
        (home directory).map fun start => ⟨start.root, start.names ++ rest⟩
      | _, _ => .error .unknownHome
  | _ => .ok p

/-- The path in a variable, unless the variable is blank. -/
def ofEnvironment (env : Environment) (name : Text) : Except Crash (Option FilePath) :=
  match env.trimmed? name with
  | none => .ok none
  | some t => ((ofText t).expandHome env).map some

end FilePath

end ChatCommands
