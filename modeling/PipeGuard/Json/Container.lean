import PipeGuard.Json.Literal

/-! The punctuation of arrays and objects, and loops over their contents. A loop is given the reader
of one item or member. Every turn takes a character at least, so the text that was left at the start
bounds the turns: a loop that has used it up has no text left either. -/
namespace PipeGuard.Json.Read

/-! ### Arrays -/

/-- Goes to the next item of an array; `none` at its closing bracket, which is left to be read. -/
def nextItem (first : Bool) (c : Cursor) : Except Fault (Bool × Cursor) :=
  let c := c.skipGap
  match c.rest with
  | [] => c.fail .unfinishedArray
  | ']' :: _ => .ok (false, c)
  | x :: _ =>
    if first then .ok (true, c)
    else if x = ',' then
      let c := c.next.skipGap
      match c.rest with
      | [] => c.fail .unfinishedValue
      | ']' :: _ => c.failNext .trailingComma
      | _ => .ok (true, c)
    else c.failNext .noArrayEnd

/-- Reads the closing bracket of an array. -/
def closeArray (c : Cursor) : Except Fault Cursor :=
  let c := c.skipGap
  match c.rest with
  | [] => c.fail .unfinishedArray
  | ']' :: _ => .ok c.next
  | ',' :: _ =>
    let c := c.next.skipGap
    match c.rest with
    | ']' :: _ => c.failNext .trailingComma
    | _ => c.failNext .trailingCharacters
  | _ => c.failNext .trailingCharacters

def itemsFrom {α : Type} (item : Cursor → Read α) :
    List Char → Bool → List α → Cursor → Read (List α)
  | [], _, _, c => c.fail .unfinishedArray
  | _ :: bound, first, seen, c =>
    match nextItem first c with
    | .error fault => .error fault
    | .ok (false, c) => (closeArray c).map fun c => (seen.reverse, c)
    | .ok (true, c) =>
      match item c with
      | .error fault => .error fault
      | .ok (x, c) => itemsFrom item bound false (x :: seen) c

/-- Reads an array after its opening bracket. -/
def items {α : Type} (item : Cursor → Read α) (c : Cursor) : Read (List α) :=
  itemsFrom item c.rest true [] c

/-! ### Objects -/

/-- Reads the next key of an object; `none` at its closing brace, which is left to be read. -/
def nextKey (first : Bool) (c : Cursor) : Read (Option String) :=
  let c := c.skipGap
  let key (c : Cursor) : Read (Option String) := (string c.next).map fun (key, c) => (some key, c)
  match c.rest with
  | [] => c.fail .unfinishedObject
  | '\x7d' :: _ => .ok (none, c)
  | x :: _ =>
    if first then if x = '"' then key c else c.failNext .keyNotString
    else if x = ',' then
      let c := c.next.skipGap
      match c.rest with
      | [] => c.fail .unfinishedValue
      | '"' :: _ => key c
      | '\x7d' :: _ => c.failNext .trailingComma
      | _ => c.failNext .keyNotString
    else c.failNext .noObjectEnd

def colon (c : Cursor) : Except Fault Cursor :=
  let c := c.skipGap
  match c.rest with
  | [] => c.fail .unfinishedObject
  | ':' :: _ => .ok c.next
  | _ => c.failNext .noColon

/-- Reads the closing brace of an object. -/
def closeObject (c : Cursor) : Except Fault Cursor :=
  let c := c.skipGap
  match c.rest with
  | [] => c.fail .unfinishedObject
  | '\x7d' :: _ => .ok c.next
  | ',' :: _ => c.failNext .trailingComma
  | _ => c.failNext .trailingCharacters

def membersFrom {α : Type} (member : α → String → Cursor → Read α) :
    List Char → Bool → α → Cursor → Read α
  | [], _, _, c => c.fail .unfinishedObject
  | _ :: bound, first, done, c =>
    match nextKey first c with
    | .error fault => .error fault
    | .ok (none, c) => (closeObject c).map fun c => (done, c)
    | .ok (some key, c) =>
      match member done key c with
      | .error fault => .error fault
      | .ok (done, c) => membersFrom member bound false done c

/-- Reads an object after its opening brace. `member` reads on from the end of a key. -/
def members {α : Type} (member : α → String → Cursor → Read α) (none : α) (c : Cursor) : Read α :=
  membersFrom member c.rest true none c

/-- The fault that a field of a record comes a second time, its key just read. The place is found
by looking for the end of the record. -/
def repeated (name : String) (c : Cursor) : Fault :=
  match closeObject c with
  | .ok closed => closed.fault (.repeatedField name)
  | .error _ => c.skipGap.fault (.repeatedField name)

end PipeGuard.Json.Read
