import PipeGuard.Call
import PipeGuard.Failure

/-! Matchers. A matcher looks for the calls of one name, which is any text that is not empty. It is
called by that name in lower case, but what it looks for is the name as it was given: beyond ASCII
the case of a letter counts. -/
namespace PipeGuard

structure Matcher where
  /-- The name as it was given. -/
  given : List Char
  given_ne_nil : given ≠ []

namespace Matcher

/-- A matcher for a name. -/
def ofName (name : String) : Except Failure Matcher :=
  if h : name.toList = [] then .error .emptyName else .ok ⟨name.toList, h⟩

/-- The name in lower case. -/
def name (matcher : Matcher) : List Char := Text.lowercase matcher.given

def findCalls (matcher : Matcher) (text : List Char) : List Found :=
  PipeGuard.findCalls matcher.given text

def isMatch (matcher : Matcher) (text : List Char) : Bool := hasCall matcher.given text

/-- There is a matcher for every name but the empty one. -/
theorem ofName_eq_ok {name : String} {matcher : Matcher} :
    ofName name = .ok matcher ↔ name.toList = matcher.given := by
  obtain ⟨given, hgiven⟩ := matcher
  unfold ofName
  split
  · case _ hempty =>
    constructor
    · intro h
      cases h
    · intro h
      exact absurd (h.symm.trans hempty) hgiven
  · rw [Except.ok.injEq, mk.injEq]

end Matcher

end PipeGuard
