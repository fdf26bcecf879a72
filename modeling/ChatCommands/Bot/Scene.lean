import ChatCommands.Bot.Embed
import ChatCommands.Store.Keeper
import ChatCommands.Value.Scalar
import ChatCommands.Web.Transport

/-!
What happens while a message is handled: what is posted, what is reported, and what becomes of the
store and the transport.
-/

namespace ChatCommands

/-- Who is notified when a post mentions them. -/
structure Mentions where
  everyone : Bool
  roles : Bool
  users : Bool
deriving DecidableEq

def Mentions.usersOnly : Mentions := ⟨false, false, true⟩

/-- A post of the bot. -/
inductive Post where
  /-- In reply to the message that triggered a template. -/
  | refusal (text : Text)
  /-- In reply to a command. -/
  | answer (text : Text)
  | answerEmbed (e : Embed)
  /-- To the channel, the output of a template. -/
  | output (content : Option Text) (stickers : List Int) (mentions : Mentions)
  /-- To the channel, an error. -/
  | errorEmbed (e : Embed)
deriving DecidableEq

/-- Whether a post goes to the channel and not in reply to a message. -/
def Post.toChannel : Post → Bool
  | .output .. | .errorEmbed _ => true
  | _ => false

structure Posted where
  post : Post
  failed : Bool
deriving DecidableEq

/-- The state while one message is handled. `failing` are the numbers of the posts to the channel
that will fail. -/
structure Scene where
  keeper : Keeper
  transport : Transport
  rolls : List Nat
  failing : List Nat
  posts : List Posted
  warnings : List Warning

abbrev Handle := ExceptT Crash (StateM Scene)

namespace Scene

def channelPosts (s : Scene) : Nat :=
  s.posts.countP fun p => p.post.toChannel

/-- Whether a post is going to fail. -/
def fails (s : Scene) (p : Post) : Bool :=
  p.toChannel && s.failing.contains s.channelPosts

def record (s : Scene) (p : Post) : Scene :=
  { s with posts := s.posts ++ [⟨p, s.fails p⟩] }

end Scene

namespace Handle

/-- Posts, and tells whether that succeeded. -/
def post (p : Post) : Handle Bool := do
  let s ← get
  set (s.record p)
  return !s.fails p

def report (w : Warning) : Handle Unit :=
  modify fun s => { s with warnings := s.warnings ++ [w] }

def answer (t : Text) : Handle Unit := do
  let _ ← post (.answer t)

def answerEmbed (e : Embed) : Handle Unit := do
  let _ ← post (.answerEmbed e)

def ofCrash (r : Except Crash α) : Handle α :=
  match r with
  | .ok a => pure a
  | .error c => throw c

def contents : Handle Contents := do
  return (← get).keeper.contents

/-- A change of the store, which may be refused. -/
def change (f : Keeper → Except StoreError α × Keeper) : Handle (Except StoreError α) := do
  let s ← get
  let (r, keeper) := f s.keeper
  set { s with keeper }
  return r

end Handle

end ChatCommands
