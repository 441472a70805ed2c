import PipeGuard.Chat.Sweep
import PipeGuard.Failure
import PipeGuard.Text.Blank

/-! A chat kept as a text with one record to a line. Every line keeps its end, and a line with
nothing to fix keeps its text; of the others only the values of the two understood fields change.
A blank line stands for a message with nothing in it. -/
namespace PipeGuard

/-- A line, and the run of line ends that closes it. -/
structure Row where
  text : String
  ending : String
  deriving DecidableEq, Repr

namespace Transcript

def isLineEnd (c : Char) : Bool := c = '\r' || c = '\n'

/-- Cuts a text after every line feed. `row` is the current line so far, last character first. -/
def cutFrom (row : List Char) : List Char → List (List Char)
  | [] => if row.isEmpty then [] else [row.reverse]
  | c :: rest =>
    if c = '\n' then (c :: row).reverse :: cutFrom [] rest else cutFrom (c :: row) rest

def rowOf (raw : List Char) : Row :=
  let back := raw.reverse
  ⟨String.ofList (back.dropWhile isLineEnd).reverse, String.ofList (back.takeWhile isLineEnd).reverse⟩

def rows (content : String) : List Row := (cutFrom [] content.toList).map rowOf

/-- The message on a line. -/
def messageOf (row : Row) : Except Json.Fault Message :=
  if Text.allBlank row.text.toList then .ok {} else Message.ofText row.text

/-- The messages of all lines, the first one having the given number. -/
def messagesFrom (number : Nat) : List Row → Except Failure (List Message)
  | [] => .ok []
  | row :: rest =>
    match messageOf row with
    | .error fault => .error (.record number fault)
    | .ok message => (messagesFrom (number + 1) rest).map (message :: ·)

/-- The members of a record with the fields of a message put in. -/
def patchMembers (message : Message) (members : Members) : Members :=
  let members := match message.body with
    | some s => members.put "mes" (.string s)
    | none => members
  match message.swipes with
  | some ss => members.put "swipes" (.array (ss.map .string))
  | none => members

/-- The text of a line whose message changed. -/
def patch (text : String) (message : Message) : Except Failure String :=
  match Json.ofText text with
  | .error fault => .error (.json fault)
  | .ok (.object members) => .ok (Json.object (patchMembers message members)).toCompact
  | .ok value => .ok value.toCompact

/-- The lines put together, the first one having the given index. -/
def joinFrom (changed : List Nat) (index : Nat) : List Row → List Message → Except Failure String
  | row :: rows, message :: messages =>
    match if index ∈ changed then patch row.text message else .ok row.text with
    | .error failure => .error failure
    | .ok text => (joinFrom changed (index + 1) rows messages).map (text ++ row.ending ++ ·)
  | _, _ => .ok ""

/-- A transcript that was read. -/
structure Parsed where
  rows : List Row
  chat : List Message

def parse (content : String) : Except Failure Parsed :=
  let rows := rows content
  (messagesFrom 1 rows).map fun chat => ⟨rows, chat⟩

/-- The text after a sweep of its messages. -/
def Parsed.text (parsed : Parsed) (swept : Sweep) : Except Failure String :=
  joinFrom swept.report.changed 0 parsed.rows swept.chat

end Transcript

end PipeGuard
