import PipeGuard.Text.Lowercase

/-! The two ways to keep a pipe from ending an argument: a backslash before it, or a marker of
private characters in its place. -/
namespace PipeGuard

inductive Encoding
  | backslash
  | marker
  deriving DecidableEq, Repr

/-- Stands for a pipe until it is restored. Its ends are private characters, so nobody types it. -/
def pipeMarker : List Char :=
  ['\uE000', 'F', 'S', 'M', ':', 'P', 'I', 'P', 'E', '\uE001']

namespace Encoding

/-- What replaces a structural pipe. -/
def token : Encoding → List Char
  | backslash => ['\\', '|']
  | marker => pipeMarker

def name : Encoding → String
  | backslash => "backslash"
  | marker => "marker"

/-- An encoding by its name or its letter, in either case. -/
def ofName? (text : String) : Option Encoding :=
  let lowered := String.ofList (Text.lowercase text.toList)
  if lowered = "backslash" ∨ lowered = "a" then some backslash
  else if lowered = "marker" ∨ lowered = "b" then some marker
  else none

end Encoding

end PipeGuard
