import PipeGuard.Json.Fault

/-! Reading a text from the left. A cursor is the text that is left and the place where it starts;
a reader takes a cursor and gives a value and a later cursor, or the fault that stopped it. A fault
is reported either at the cursor or just past the next byte. -/
namespace PipeGuard.Json

structure Cursor where
  rest : List Char
  position : Position := {}
  deriving Repr

/-- What a reader gives. -/
abbrev Read (α : Type) := Except Fault (α × Cursor)

/-- Blanks between tokens. -/
def isGap (c : Char) : Bool := c = ' ' || c = '\n' || c = '\t' || c = '\r'

def gapFrom : List Char → Position → Cursor
  | [], position => ⟨[], position⟩
  | c :: rest, position =>
    if isGap c then gapFrom rest (position.after c) else ⟨c :: rest, position⟩

namespace Cursor

def start (text : String) : Cursor := ⟨text.toList, {}⟩

/-- Past the next character. -/
def next (c : Cursor) : Cursor :=
  match c.rest with
  | [] => c
  | x :: rest => ⟨rest, c.position.after x⟩

/-- Past the blanks. -/
def skipGap (c : Cursor) : Cursor := gapFrom c.rest c.position

/-- A fault at the cursor. -/
def fault (c : Cursor) (cause : Cause) : Fault := ⟨cause, c.position⟩

/-- A fault at the next byte. -/
def faultNext (c : Cursor) (cause : Cause) : Fault := ⟨cause, c.position.skip 1 c.rest⟩

def fail {α : Type} (c : Cursor) (cause : Cause) : Except Fault α := .error (c.fault cause)

def failNext {α : Type} (c : Cursor) (cause : Cause) : Except Fault α := .error (c.faultNext cause)

/-- The text is used up but for blanks. -/
def finish (c : Cursor) : Except Fault Unit :=
  let c := c.skipGap
  match c.rest with
  | [] => .ok ()
  | _ => c.failNext .trailingCharacters

/-- Reads the letters of a word. -/
def word : List Char → Cursor → Except Fault Cursor
  | [], c => .ok c
  | letter :: letters, c =>
    match c.rest with
    | [] => c.fail .unfinishedValue
    | x :: _ => if x = letter then word letters c.next else c.failNext .badWord

theorem rest_gapFrom (text : List Char) (position : Position) :
    (gapFrom text position).rest = text.dropWhile isGap := by
  induction text generalizing position with
  | nil => rfl
  | cons c rest ih =>
    by_cases h : isGap c = true
    · rw [gapFrom, if_pos h, ih, List.dropWhile_cons_of_pos h]
    · rw [gapFrom, if_neg h, List.dropWhile_cons_of_neg h]

theorem rest_skipGap (c : Cursor) : c.skipGap.rest = c.rest.dropWhile isGap :=
  rest_gapFrom c.rest c.position

theorem rest_next (c : Cursor) : c.next.rest = c.rest.tail := by
  unfold next
  split <;> simp [*]

end Cursor

end PipeGuard.Json
