import PipeGuard.Encoding

/-! Pipes inside the arguments of one call. A pipe is structural when an even number of backslashes
stands right before it, none included, and escaped when that number is odd. The functions here read
the arguments once from the left and carry only whether the current run of backslashes is odd. -/
namespace PipeGuard

/-- New arguments, and how many pipes were edited to get them. -/
structure Edited where
  args : List Char
  pipes : Nat
  deriving DecidableEq, Repr

namespace Pipe

/-- The number of structural pipes. -/
def structural (odd : Bool) : List Char → Nat
  | [] => 0
  | c :: rest =>
    if c = '\\' then structural (!odd) rest
    else if c = '|' ∧ odd = false then structural false rest + 1
    else structural false rest

/-- Puts `token` for every structural pipe. -/
def protect (token : List Char) (odd : Bool) : List Char → List Char
  | [] => []
  | c :: rest =>
    if c = '\\' then c :: protect token (!odd) rest
    else if c = '|' ∧ odd = false then token ++ protect token false rest
    else c :: protect token false rest

/-- The number of escaped pipes. -/
def escaped (odd : Bool) : List Char → Nat
  | [] => 0
  | c :: rest =>
    if c = '\\' then escaped (!odd) rest
    else if c = '|' ∧ odd = true then escaped false rest + 1
    else escaped false rest

/-- Drops the backslash right before every escaped pipe. -/
def expose (odd : Bool) : List Char → List Char
  | [] => []
  | c :: rest =>
    if c = '\\' then
      if odd = false ∧ rest.head? = some '|' then expose true rest
      else c :: expose (!odd) rest
    else c :: expose false rest

/-- Escapes the structural pipes of an argument text; `none` when it has none. -/
def escapeArgs (encoding : Encoding) (args : List Char) : Option Edited :=
  match structural false args with
  | 0 => none
  | pipes + 1 => some ⟨protect encoding.token false args, pipes + 1⟩

/-- Takes one backslash from every escaped pipe; `none` when there is none. -/
def unescapeArgs (args : List Char) : Option Edited :=
  match escaped false args with
  | 0 => none
  | pipes + 1 => some ⟨expose false args, pipes + 1⟩

theorem protect_of_structural_eq_zero (token : List Char) (odd : Bool) (args : List Char)
    (h : structural odd args = 0) : protect token odd args = args := by
  induction args generalizing odd with
  | nil => rfl
  | cons c rest ih =>
    simp only [structural] at h
    simp only [protect]
    split at h
    · simp [*]
    · split at h
      · simp at h
      · simp [*]

end Pipe

end PipeGuard
