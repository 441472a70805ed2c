import PipeGuard.Escape

/-! Restoring a text after its calls were expanded. Markers stand for themselves, so they are
replaced wherever they are; backslashes are taken off only inside calls that read a variable. -/
namespace PipeGuard

/-- The calls that read a variable. -/
def readNames : List (List Char) := ["getvar".toList, "getglobalvar".toList]

/-! ### Markers -/

/-- The number of markers, in a text whose first `skip` characters belong to one already seen. -/
def markersFrom : Nat → List Char → Nat
  | _, [] => 0
  | skip + 1, _ :: rest => markersFrom skip rest
  | 0, c :: rest =>
    if pipeMarker.isPrefixOf (c :: rest) then markersFrom (pipeMarker.length - 1) rest + 1
    else markersFrom 0 rest

/-- Puts a pipe for every marker. -/
def unmarkFrom : Nat → List Char → List Char
  | _, [] => []
  | skip + 1, _ :: rest => unmarkFrom skip rest
  | 0, c :: rest =>
    if pipeMarker.isPrefixOf (c :: rest) then '|' :: unmarkFrom (pipeMarker.length - 1) rest
    else c :: unmarkFrom 0 rest

def restoreMarkers (text : List Char) : Outcome :=
  match markersFrom 0 text with
  | 0 => .untouched text
  | pipes + 1 =>
    ⟨unmarkFrom 0 text, true, 0, pipes + 1,
      [.debug ("[PostProcessor] Restored " ++ toString (pipes + 1) ++ " pipe(s)")]⟩

/-! ### Backslashes -/

def unescapeCalls (text : List Char) : Revision :=
  reviseAll Pipe.unescapeArgs readNames text

def restoreCalls (text : List Char) : Outcome :=
  let r := unescapeCalls text
  if r.fixes.isEmpty then .untouched text
  else ⟨r.text, true, r.calls, r.pipes,
    [.debug ("[PostProcessor] Restored " ++ toString r.pipes ++ " pipe(s) in " ++
      toString r.calls ++ " macro(s)")]⟩

/-! ### Both -/

/-- Restores what the encoding left, unless the settings turn the guard off. -/
def restore (encoding : Encoding) (settings : Settings) (text : List Char) : Outcome :=
  if settings.enabled then
    match encoding with
    | .marker => restoreMarkers text
    | .backslash => restoreCalls text
  else .untouched text

end PipeGuard
