import PipeGuard.Json.Container

/-! Passing over a value that nobody asked for. Only its shape is looked at: strings are not decoded,
numbers may be of any size, and arrays and objects may be open to any depth. The open ones are kept
on a stack. -/
namespace PipeGuard.Json.Skip

inductive Frame
  | array
  | object
  deriving DecidableEq, Repr

/-! ### Strings -/

/-- Passes over an escape, after its backslash. -/
def escapeSequence (c : Cursor) : Except Fault Cursor :=
  match c.rest with
  | [] => c.fail .unfinishedString
  | 'u' :: _ => (Read.codeUnit c.next).map Prod.snd
  | x :: _ => if (Read.shortEscape? x).isSome then .ok c.next else c.failNext .badEscape

/-- Passes over the characters of a string, no more than `bound` has. -/
def stringFrom : List Char → Cursor → Except Fault Cursor
  | [], c => c.fail .unfinishedString
  | _ :: bound, c =>
    match c.rest with
    | [] => c.fail .unfinishedString
    | '"' :: _ => .ok c.next
    | '\\' :: _ =>
      match escapeSequence c.next with
      | .error fault => .error fault
      | .ok c => stringFrom bound c
    | x :: _ => if x.toNat < 0x20 then c.fail .controlCharacter else stringFrom bound c.next

/-- Passes over a string, after its first quote. -/
def string (c : Cursor) : Except Fault Cursor := stringFrom c.rest c

/-! ### Numbers -/

/-- Passes over an exponent, after its letter. -/
def exponent (c : Cursor) : Except Fault Cursor :=
  let c :=
    match c.rest with
    | '+' :: _ | '-' :: _ => c.next
    | _ => c
  match c.rest with
  | d :: _ => if d.isDigit then .ok (Read.digits c).2 else c.failNext .badNumber
  | [] => c.fail .badNumber

/-- Passes over a fraction, after its point. -/
def fraction (c : Cursor) : Except Fault Cursor :=
  match Read.digits c with
  | ([], c) => c.failNext .badNumber
  | (_, c) => if Read.startsExponent c.rest then exponent c.next else .ok c

/-- Passes over a number, after its sign. -/
def number (c : Cursor) : Except Fault Cursor :=
  match c.rest with
  | [] => c.fail .badNumber
  | d :: _ =>
    if d.isDigit then
      let after := if d = '0' then c.next else (Read.digits c).2
      match after.rest with
      | '.' :: _ => fraction after.next
      | x :: _ =>
        if d = '0' ∧ x.isDigit then after.failNext .badNumber
        else if Read.startsExponent after.rest then exponent after.next
        else .ok after
      | [] => .ok after
    else c.failNext .badNumber

/-! ### Values -/

/-- Reads a key and its colon, within an object. -/
def key (c : Cursor) : Except Fault Cursor :=
  let c := c.skipGap
  match c.rest with
  | [] => c.fail .unfinishedObject
  | '"' :: _ =>
    match string c.next with
    | .error fault => .error fault
    | .ok c => Read.colon c
  | _ => c.failNext .keyNotString

/-- Goes on to the next item of the innermost frame. -/
def enter : Frame → Cursor → Except Fault Cursor
  | .array, c => .ok c
  | .object, c => key c

def Frame.unfinished : Frame → Cause
  | array => .unfinishedArray
  | object => .unfinishedObject

def Frame.noEnd : Frame → Cause
  | array => .noArrayEnd
  | object => .noObjectEnd

def Frame.closing : Frame → Char
  | array => ']'
  | object => '\x7d'

/-- Passes over one token that is a whole value; `none` at an opening bracket or brace. -/
def simple? (c : Cursor) : Option (Except Fault Cursor) :=
  match c.rest with
  | [] => some (c.fail .unfinishedValue)
  | 'n' :: _ => some (c.next.word ['u', 'l', 'l'])
  | 't' :: _ => some (c.next.word ['r', 'u', 'e'])
  | 'f' :: _ => some (c.next.word ['a', 'l', 's', 'e'])
  | '"' :: _ => some (string c.next)
  | '-' :: _ => some (number c.next)
  | '[' :: _ => none
  | '\x7b' :: _ => none
  | x :: _ => some (if x.isDigit then number c else c.failNext .noValue)

/-- Where the next turn starts. -/
inductive Turn
  /-- In front of a value. -/
  | value
  /-- Behind a value. -/
  | after
  deriving DecidableEq, Repr

/-- Passes over an opening bracket or brace, and over its partner if that follows. -/
def openFrame (frame : Frame) (frames : List Frame) (c : Cursor) :
    Except Fault (Turn × List Frame × Cursor) :=
  let c := c.next.skipGap
  match c.rest with
  | [] => c.fail frame.unfinished
  | x :: _ =>
    if x = frame.closing then .ok (.after, frames, c.next)
    else (enter frame c).map fun c => (.value, frame :: frames, c)

/-- Passes over a simple value, or opens a frame. -/
def takeValue (frames : List Frame) (c : Cursor) : Except Fault (Turn × List Frame × Cursor) :=
  let c := c.skipGap
  match simple? c with
  | some passed => passed.map fun c => (.after, frames, c)
  | none => openFrame (if c.rest.head? = some '[' then .array else .object) frames c

/-- Passes over what follows a value in the innermost frame. -/
def takeAfter (frame : Frame) (frames : List Frame) (c : Cursor) :
    Except Fault (Turn × List Frame × Cursor) :=
  let c := c.skipGap
  match c.rest with
  | [] => c.fail frame.unfinished
  | x :: _ =>
    if x = ',' then (enter frame c.next).map fun c => (.value, frame :: frames, c)
    else if x = frame.closing then .ok (.after, frames, c.next)
    else c.failNext frame.noEnd

/-- Takes turns until no frame is open. Every turn takes a character of those in `bound`, which are
at least the ones left. -/
def turns : List Char → Turn → List Frame → Cursor → Except Fault Cursor
  | _, .after, [], c => .ok c
  | [], .after, frame :: _, c => c.fail frame.unfinished
  | [], .value, _, c => c.fail .unfinishedValue
  | _ :: bound, .after, frame :: frames, c =>
    match takeAfter frame frames c with
    | .error fault => .error fault
    | .ok (turn, frames, c) => turns bound turn frames c
  | _ :: bound, .value, frames, c =>
    match takeValue frames c with
    | .error fault => .error fault
    | .ok (turn, frames, c) => turns bound turn frames c

/-- Passes over a value. -/
def value (c : Cursor) : Except Fault Cursor := turns c.rest .value [] c

end PipeGuard.Json.Skip
