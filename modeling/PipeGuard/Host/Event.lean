/-! Events in the life of a chat. -/
namespace PipeGuard

inductive Event
  | generationStarted
  | messageReceived
  | messageEdited
  | chatChanged
  deriving DecidableEq, Repr

namespace Event

/-- Every event, in the order they are subscribed to. -/
def all : List Event := [generationStarted, messageReceived, messageEdited, chatChanged]

def name : Event → String
  | generationStarted => "generation_started"
  | messageReceived => "message_received"
  | messageEdited => "message_edited"
  | chatChanged => "chat_id_changed"

def ofName? (name : String) : Option Event := all.find? fun event => event.name = name

end Event

end PipeGuard
