import PipeGuard.Restore
import PipeGuard.Settings.Store

/-! The host's pipeline. A text goes through the pre-processors before its calls are expanded and
through the post-processors afterwards, in the order they were added. Every processor that is added
gets a handle of its own, and is removed by it. -/
namespace PipeGuard

structure Processor where
  handle : Nat
  /-- Lower runs earlier, for hosts that sort. -/
  priority : Int
  /-- The module that added it. -/
  source : String
  /-- The encoding it works with from its registration on. -/
  encoding : Encoding
  deriving DecidableEq, Repr

inductive Phase
  | pre
  | post
  deriving DecidableEq, Repr

structure Pipeline where
  /-- How many handles were given out. -/
  issued : Nat := 0
  pre : List Processor := []
  post : List Processor := []
  deriving DecidableEq, Repr

def Phase.priority : Phase → Int
  | pre => 0
  | post => 1000

namespace Pipeline

def processors (pipeline : Pipeline) : Phase → List Processor
  | .pre => pipeline.pre
  | .post => pipeline.post

def setProcessors (pipeline : Pipeline) (processors : List Processor) : Phase → Pipeline
  | .pre => { pipeline with pre := processors }
  | .post => { pipeline with post := processors }

/-- The handle the next processor gets. -/
def nextHandle (pipeline : Pipeline) : Nat := pipeline.issued + 1

/-- Adds this module's processor for a phase. -/
def add (pipeline : Pipeline) (phase : Phase) (encoding : Encoding) : Pipeline :=
  let processor := ⟨pipeline.nextHandle, phase.priority, moduleName, encoding⟩
  { pipeline.setProcessors (pipeline.processors phase ++ [processor]) phase with
    issued := pipeline.nextHandle }

def holds (pipeline : Pipeline) (phase : Phase) (handle : Nat) : Bool :=
  (pipeline.processors phase).any fun p => p.handle = handle

def remove (pipeline : Pipeline) (phase : Phase) (handle : Nat) : Pipeline :=
  pipeline.setProcessors ((pipeline.processors phase).filter fun p => p.handle ≠ handle) phase

/-- The host drops the processors of a phase. -/
def forget (pipeline : Pipeline) (phase : Phase) : Pipeline := pipeline.setProcessors [] phase

end Pipeline

/-- What a processor does to a text under the current settings. -/
def Processor.run (processor : Processor) (settings : Settings) : Phase → List Char → Outcome
  | .pre, text => escape processor.encoding settings text
  | .post, text => restore processor.encoding settings text

/-- Runs processors one after the other; gives the text and what they log. -/
def runAll (settings : Settings) (phase : Phase) :
    List Processor → List Char → List Char × List Line
  | [], text => (text, [])
  | processor :: rest, text =>
    let first := processor.run settings phase text
    let later := runAll settings phase rest first.text
    (later.1, first.lines ++ later.2)

end PipeGuard
