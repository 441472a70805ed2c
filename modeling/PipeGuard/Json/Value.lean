import PipeGuard.Json.Container

/-! Reading a whole value, and reading a value of a wanted kind. Arrays and objects may stand inside
each other 127 deep. -/
namespace PipeGuard.Json

/-- How many arrays and objects may be open at once. -/
def depthLimit : Nat := 127

namespace Read

/-- Reads a value in which `depth` arrays and objects may be open. -/
def value : Nat → Cursor → Read Json
  | depth, c =>
    let c := c.skipGap
    match c.rest with
    | [] => c.fail .unfinishedValue
    | 'n' :: _ => (c.next.word ['u', 'l', 'l']).map fun c => (.null, c)
    | 't' :: _ => (c.next.word ['r', 'u', 'e']).map fun c => (.boolean true, c)
    | 'f' :: _ => (c.next.word ['a', 'l', 's', 'e']).map fun c => (.boolean false, c)
    | '"' :: _ => (string c.next).map fun (s, c) => (.string s, c)
    | '[' :: _ =>
      match depth with
      | 0 => c.failNext .tooDeep
      | depth + 1 => (items (value depth) c.next).map fun (xs, c) => (.array xs, c)
    | '\x7b' :: _ =>
      match depth with
      | 0 => c.failNext .tooDeep
      | depth + 1 =>
        let member (done : Members) (key : String) (c : Cursor) : Read Members :=
          match colon c with
          | .error fault => .error fault
          | .ok c => (value depth c).map fun (x, c) => (done.put key x, c)
        (members member [] c.next).map fun (ms, c) => (.object ms, c)
    | '-' :: _ => (number true c.next).map fun (n, c) => (.number n, c)
    | x :: _ =>
      if x.isDigit then (number false c).map fun (n, c) => (.number n, c)
      else c.failNext .noValue

/-! ### Values of one kind -/

/-- The fault that a value is not of the wanted kind, or the one met while finding out. -/
def mismatch (wanted : Wanted) (c : Cursor) : Fault :=
  let wrong (found : Finding) (c : Cursor) : Fault := c.fault (.wrongKind found wanted)
  let afterWord (letters : List Char) (found : Finding) : Fault :=
    match c.next.word letters with
    | .ok c => wrong found c
    | .error fault => fault
  let afterNumber (read : Read Number) : Fault :=
    match read with
    | .ok (n, c) => wrong (.number n) c
    | .error fault => fault
  match c.rest with
  | 'n' :: _ => afterWord ['u', 'l', 'l'] .null
  | 't' :: _ => afterWord ['r', 'u', 'e'] (.boolean true)
  | 'f' :: _ => afterWord ['a', 'l', 's', 'e'] (.boolean false)
  | '"' :: _ =>
    match chars c.next with
    | .ok (cs, c) => wrong (.string cs) c
    | .error fault => fault
  | '[' :: _ => wrong .sequence c
  | '\x7b' :: _ => wrong .map c
  | '-' :: _ => afterNumber (number true c.next)
  | x :: _ => if x.isDigit then afterNumber (number false c) else c.faultNext .noValue
  | [] => c.fault .unfinishedValue

def boolean (c : Cursor) : Read Bool :=
  let c := c.skipGap
  match c.rest with
  | 't' :: _ => (c.next.word ['r', 'u', 'e']).map fun c => (true, c)
  | 'f' :: _ => (c.next.word ['a', 'l', 's', 'e']).map fun c => (false, c)
  | _ => .error (mismatch .boolean c)

/-- Reads a value that has to be a string. -/
def textValue (c : Cursor) : Read String :=
  let c := c.skipGap
  match c.rest with
  | '"' :: _ => string c.next
  | _ => .error (mismatch .string c)

/-- Reads a value that may be null. -/
def optional {α : Type} (item : Cursor → Read α) (c : Cursor) : Read (Option α) :=
  let c := c.skipGap
  match c.rest with
  | 'n' :: _ => (c.next.word ['u', 'l', 'l']).map fun c => (none, c)
  | _ => (item c).map fun (x, c) => (some x, c)

/-- Reads an array of items of one kind, within an object that is open. -/
def sequence {α : Type} (item : Cursor → Read α) (c : Cursor) : Read (List α) :=
  let c := c.skipGap
  match c.rest with
  | '[' :: _ => items item c.next
  | _ => .error (mismatch .sequence c)

end Read

/-! ### Whole texts -/

/-- Reads a text to its end. -/
def readAll {α : Type} (read : Cursor → Read α) (text : String) : Except Fault α :=
  match read (.start text) with
  | .error fault => .error fault
  | .ok (x, c) => c.finish.map fun _ => x

/-- The value that a text holds. -/
def ofText (text : String) : Except Fault Json := readAll (Read.value depthLimit) text

end PipeGuard.Json
