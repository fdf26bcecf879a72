import ChatCommands.Json.Read
import ChatCommands.Json.Write
import ChatCommands.Resolution.Error

/-!
The transport of web requests.

What the network will answer is a list of replies, taken one by one; every request is recorded
with the data that was sent. A reply without a response is a failure of the request.
-/

namespace ChatCommands

/-- A response of a server. -/
structure Response where
  status : Int
  reason : Text
  text : Text
deriving DecidableEq

def Response.isSuccess (r : Response) : Bool :=
  200 ≤ r.status && r.status < 300

/-- What comes of a request: a response, or a failure with its text, where `kind` names a failure
that has none. -/
inductive Reply where
  | response (r : Response)
  | failure (kind text : Text)
deriving DecidableEq

/-- A request as it was sent. -/
structure Request where
  method : Text
  url : Text
  headers : List (Text × Text)
  data : Option Text
  timeout : Binary64
deriving DecidableEq

structure Transport where
  timeout : Binary64
  replies : List Reply
  requests : List Request

namespace Transport

def defaultHeaders : List (Text × Text) := [
  ("Content-Type".toList, "application/json".toList),
  ("Accept".toList, "application/json".toList)]

/-- What comes of a request when the replies have run out. -/
def exhausted : Reply :=
  .failure "ClientError".toList "no more responses".toList

/-- The data of a body: JSON, or nothing where the body is null. -/
def dataOf : Json → Option Text
  | .scalar .null => none
  | body => some (body.write true)

def fetch (t : Transport) (url method : Text) (headers : List (Text × Text)) (body : Json) :
    Except RequestFailure Response × Transport :=
  let request : Request := ⟨method, url, headers, dataOf body, t.timeout⟩
  let sent := { t with replies := t.replies.tail, requests := t.requests ++ [request] }
  match t.replies.head?.getD exhausted with
  | .response r => (.ok r, sent)
  | .failure kind text => (.error ⟨url, none, if text.isEmpty then kind else text⟩, sent)

end Transport

end ChatCommands
