import PipeGuard.Json.Printer
import PipeGuard.Json.Value

/-! Messages of a chat. Of a record three fields are understood: who wrote the message, its body,
and its swipes, which are other bodies to choose from. All other members are carried along. -/
namespace PipeGuard

structure Message where
  isUser : Bool := false
  body : Option String := none
  swipes : Option (List String) := none
  extra : Members := []
  deriving Repr, Inhabited

namespace Message

/-- A message with a body and nothing else. -/
def ofBody (isUser : Bool) (body : String) : Message := { isUser, body := some body }

def withSwipes (message : Message) (swipes : List String) : Message :=
  { message with swipes := some swipes }

open Json (Cursor Read)

/-- The fields of a record that were mentioned so far. -/
structure Given where
  isUser : Option Bool := none
  body : Option (Option String) := none
  swipes : Option (Option (List String)) := none
  extra : Members := []

/-- Fields that were not mentioned have their default. -/
def Given.message (given : Given) : Message :=
  ⟨given.isUser.getD false, given.body.getD none, given.swipes.getD none, given.extra⟩

/-- Reads the value of a field that is mentioned for the first time. -/
def readField {α : Type} (name : String) (known : Option α) (item : Cursor → Read α) (c : Cursor) :
    Read α :=
  match known with
  | some _ => .error (Json.Read.repeated name c)
  | none =>
    match Json.Read.colon c with
    | .error fault => .error fault
    | .ok c => item c

/-- Reads on from the end of a key. -/
def readMember (given : Given) (key : String) (c : Cursor) : Read Given :=
  if key = "is_user" then
    (readField key given.isUser Json.Read.boolean c).map fun (b, c) =>
      ({ given with isUser := some b }, c)
  else if key = "mes" then
    (readField key given.body (Json.Read.optional Json.Read.textValue) c).map fun (s, c) =>
      ({ given with body := some s }, c)
  else if key = "swipes" then
    (readField key given.swipes (Json.Read.optional (Json.Read.sequence Json.Read.textValue)) c).map
      fun (s, c) => ({ given with swipes := some s }, c)
  else
    match Json.Read.colon c with
    | .error fault => .error fault
    | .ok c => (Json.Read.value (Json.depthLimit - 1) c).map fun (x, c) =>
      ({ given with extra := given.extra.put key x }, c)

def read (c : Cursor) : Read Message :=
  let c := c.skipGap
  match c.rest with
  | '\x7b' :: _ =>
    (Json.Read.members readMember {} c.next).map fun (given, c) => (given.message, c)
  | _ => .error (Json.Read.mismatch .message c)

/-- The message that a record holds. -/
def ofText (text : String) : Except Json.Fault Message := Json.readAll read text

/-- A body or swipes that are not there are left out. -/
def toJson (message : Message) : Json :=
  .object <|
    [("is_user", .boolean message.isUser)] ++
    (message.body.map fun s => ("mes", Json.string s)).toList ++
    (message.swipes.map fun ss => ("swipes", Json.array (ss.map .string))).toList ++
    message.extra

def render (message : Message) : String := message.toJson.toCompact

end Message

end PipeGuard
