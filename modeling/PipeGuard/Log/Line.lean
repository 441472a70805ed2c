/-! Lines of the log. A line has a level, which gives its prompt, and a message. How long some work
took is not known where the line is made, so a timed line leaves the time to whoever writes it. -/
namespace PipeGuard

inductive Level
  | debug
  | info
  | warning
  | error
  deriving DecidableEq, Repr

/-- What a reader of the log filters on. -/
def Level.prompt : Level → String
  | debug => "🔍 FSM:DEBUG"
  | info => "✓ FSM:INFO"
  | warning => "⚠ FSM:WARN"
  | error => "✗ FSM:ERROR"

structure Line where
  level : Level
  message : String
  /-- The message ends in the time the work took. -/
  timed : Bool := false
  deriving DecidableEq, Repr

namespace Line

def debug (message : String) : Line := ⟨.debug, message, false⟩
def timing (message : String) : Line := ⟨.debug, message, true⟩
def info (message : String) : Line := ⟨.info, message, false⟩
def warning (message : String) : Line := ⟨.warning, message, false⟩
def error (message : String) : Line := ⟨.error, message, false⟩

/-- The line as written, `elapsed` being the time for a timed one. -/
def render (elapsed : String) (line : Line) : String :=
  line.level.prompt ++ " " ++ line.message ++ (if line.timed then elapsed else "") ++ "\n"

def rule : Line := debug "========================================"

/-- Debug lines between two rules. -/
def banner (messages : List String) : List Line :=
  rule :: messages.map debug ++ [rule]

end Line

def renderLines (elapsed : String) (lines : List Line) : String :=
  String.join (lines.map (Line.render elapsed))

end PipeGuard
