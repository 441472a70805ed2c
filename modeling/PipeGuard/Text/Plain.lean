/-! Text for a place that is no terminal. Control characters other than white space and the sequences
that would steer a terminal are left out. White space that stands inside a sequence is shown, and so
is the text right after it, up to the next control character; there the sequence goes on, unless a
character beyond ASCII has ended it. -/
namespace PipeGuard.Text

/-- What a reader of terminal text is in the middle of. -/
inductive Steering
  | none
  /-- After the escape character. -/
  | escape
  /-- After characters that only qualify an escape. -/
  | qualified
  /-- A sequence that ends in a letter or the like. -/
  | sequence
  /-- A string that a bell ends. -/
  | title
  /-- The start of a string for a device. -/
  | device
  /-- The numbers that a string for a device starts with. -/
  | deviceNumbers
  /-- After characters that only qualify a string for a device. -/
  | deviceQualified
  /-- A string that is passed over up to its end. -/
  | hidden
  deriving DecidableEq, Repr

/-- White space below the first printable character. -/
def isLayout (c : Char) : Bool := c = '\t' || c = '\n' || c = '\x0c' || c = '\r'

/-- A character that is shown where nothing is being steered. -/
def isShown (c : Char) : Bool := if c < ' ' then isLayout c else c ≠ '\x7f'

/-- The UTF-8 form of a character has the byte that ends a string. It is never the first byte. -/
def holdsTerminator (c : Char) : Bool :=
  let n := c.toNat
  (0x80 ≤ n && n % 64 = 0x1C) || (0x800 ≤ n && n / 64 % 64 = 0x1C) ||
    (0x10000 ≤ n && n / 4096 % 64 = 0x1C)

namespace Steering

/-- What follows the escape character. -/
def afterEscape (c : Char) : Steering :=
  if c = '[' then sequence
  else if c = ']' then title
  else if c = 'P' then device
  else if c = 'X' ∨ c = '^' ∨ c = '_' then hidden
  else if ' ' ≤ c ∧ c ≤ '/' then qualified
  else if '0' ≤ c ∧ c ≤ '~' then none
  else escape

/-- What follows in the first part of a string for a device. -/
def afterDevice (s : Steering) (c : Char) : Steering :=
  if '@' ≤ c ∧ c ≤ '~' then hidden
  else if '0' ≤ c ∧ c ≤ '?' then
    if s = deviceQualified ∨ (s = deviceNumbers ∧ '<' ≤ c) then hidden else deviceNumbers
  else if ' ' ≤ c ∧ c ≤ '/' then deviceQualified
  else s

/-- What a character leads to, and whether it is shown. -/
def next (s : Steering) (c : Char) : Steering × Bool :=
  if c = '\x1b' then (escape, false)
  else if c = '\x18' ∨ c = '\x1a' then (none, false)
  else
    match s with
    | none => (none, isShown c)
    | escape => (afterEscape c, isLayout c)
    | qualified => (if '0' ≤ c ∧ c ≤ '~' then none else qualified, isLayout c)
    | sequence => (if '@' ≤ c ∧ c ≤ '~' then none else sequence, isLayout c)
    | title => (if c = '\x07' then none else title, false)
    | device | deviceNumbers | deviceQualified => (s.afterDevice c, false)
    | hidden => (if holdsTerminator c then none else hidden, false)

/-- The part of a text that is shown. `flowing` says that the last character was. -/
def shown (s : Steering) (flowing : Bool) : List Char → List Char
  | [] => []
  | c :: rest =>
    if flowing && isShown c then c :: shown (if c.toNat < 0x80 then s else none) true rest
    else
      let (s, kept) := s.next c
      if kept then c :: shown s true rest else shown s false rest

end Steering

def plain (s : String) : String := String.ofList (Steering.none.shown false s.toList)

end PipeGuard.Text
