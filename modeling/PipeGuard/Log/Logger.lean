import PipeGuard.Log.Line

/-! Where lines go. Debug lines are dropped unless debugging is on; all others are kept by the sink
that is current when they are written. -/
namespace PipeGuard

/-- The place that takes lines. -/
inductive Sink
  /-- Keeps lines after a given text. -/
  | capture (lead : String) (lines : List Line)
  | file
  | terminal
  | discard
  deriving DecidableEq, Repr

structure Logger where
  debug : Bool := false
  /-- Debugging is on whatever `debug` says. -/
  forced : Bool := false
  sink : Sink := .terminal
  /-- The lines in the log file, once it exists. -/
  file : Option (List Line) := none
  /-- The lines sent to the terminal. -/
  terminal : List Line := []
  deriving DecidableEq, Repr

namespace Logger

def isDebug (logger : Logger) : Bool := logger.debug || logger.forced

def setDebug (logger : Logger) (debug : Bool) : Logger := { logger with debug }

/-- Changes the sink. Lines for the file are added to what it holds. -/
def redirect (logger : Logger) (sink : Sink) : Logger :=
  match sink with
  | .file => { logger with sink := .file, file := some (logger.file.getD []) }
  | other => { logger with sink := other }

/-- Keeps a line whatever its level. -/
def keep (logger : Logger) (line : Line) : Logger :=
  match logger.sink with
  | .capture lead lines => { logger with sink := .capture lead (lines ++ [line]) }
  | .file => { logger with file := some (logger.file.getD [] ++ [line]) }
  | .terminal => { logger with terminal := logger.terminal ++ [line] }
  | .discard => logger

def write (logger : Logger) (line : Line) : Logger :=
  if line.level = .debug ∧ logger.isDebug = false then logger else logger.keep line

def writeAll (logger : Logger) (lines : List Line) : Logger :=
  lines.foldl write logger

/-- The text a capturing sink holds. -/
def captured (logger : Logger) (elapsed : String) : String :=
  match logger.sink with
  | .capture lead lines => lead ++ renderLines elapsed lines
  | _ => ""

/-- Forgets what a capturing sink holds. -/
def clear (logger : Logger) : Logger :=
  match logger.sink with
  | .capture _ _ => { logger with sink := .capture "" [] }
  | _ => logger

theorem isDebug_write (logger : Logger) (line : Line) :
    (logger.write line).isDebug = logger.isDebug := by
  unfold write keep
  split
  · rfl
  · cases logger.sink <;> rfl

end Logger

end PipeGuard
