import PipeGuard.Log.Line
import PipeGuard.Revision
import PipeGuard.Settings.Basic

/-! Escaping a text before its calls are expanded: in every call that writes a variable, structural
pipes give way to the encoding's token. -/
namespace PipeGuard

/-- The calls that write a variable. -/
def writeNames : List (List Char) :=
  ["setvar".toList, "setglobalvar".toList, "addvar".toList, "addglobalvar".toList]

/-- What a transform did to a text. -/
structure Outcome where
  text : List Char
  /-- At least one pipe was handled. -/
  changed : Bool
  calls : Nat
  pipes : Nat
  lines : List Line
  deriving DecidableEq, Repr

/-- Nothing was done. -/
def Outcome.untouched (text : List Char) : Outcome := ⟨text, false, 0, 0, []⟩

def escapeCalls (encoding : Encoding) (text : List Char) : Revision :=
  reviseAll (Pipe.escapeArgs encoding) writeNames text

/-- The lines that tell of one edited call. -/
def Fix.lines (fix : Fix) : List Line :=
  [.debug ("[PreProcessor] Fixed " ++ String.ofList fix.call.name ++ " at position " ++
      toString fix.start),
   .debug ("  Original: " ++ String.ofList fix.call.whole),
   .debug ("  Fixed:    " ++ String.ofList fix.result.whole),
   .debug ("  Pipes escaped: " ++ toString fix.edited.pipes)]

def escapeLines (r : Revision) : List Line :=
  if r.fixes.isEmpty then []
  else r.fixes.flatMap Fix.lines ++
    [.timing ("[PreProcessor] Fixed " ++ toString r.calls ++ " macro(s) in ")]

/-- Escapes the calls that write, unless the settings turn the guard off. -/
def escape (encoding : Encoding) (settings : Settings) (text : List Char) : Outcome :=
  if settings.enabled then
    let r := escapeCalls encoding text
    ⟨r.text, !r.fixes.isEmpty, r.calls, r.pipes, escapeLines r⟩
  else .untouched text

end PipeGuard
