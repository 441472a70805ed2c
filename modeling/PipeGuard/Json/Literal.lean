import PipeGuard.Json.Cursor

/-! Strings and numbers.

A string ends at a quote; characters below the space must be escaped, and characters beyond sixteen
bits are escaped as a pair of surrogates.

A number keeps as many leading digits as fit in 64 bits. A whole number that fits is exact; any
other is the double read from those digits and a power of ten. -/
namespace PipeGuard.Json.Read

/-! ### Strings -/

def hexValue? (c : Char) : Option Nat :=
  if '0' ≤ c ∧ c ≤ '9' then some (c.toNat - '0'.toNat)
  else if 'a' ≤ c ∧ c ≤ 'f' then some (c.toNat - 'a'.toNat + 10)
  else if 'A' ≤ c ∧ c ≤ 'F' then some (c.toNat - 'A'.toNat + 10)
  else none

def hexUnit? : List Char → Option Nat
  | [a, b, c, d] => do
    let a ← hexValue? a
    let b ← hexValue? b
    let c ← hexValue? c
    let d ← hexValue? d
    return ((a * 16 + b) * 16 + c) * 16 + d
  | _ => none

/-- The length of a text in bytes, as far as four. -/
def hasFourBytes (text : List Char) : Bool := 4 ≤ ((text.take 4).map Char.utf8Size).foldr (· + ·) 0

/-- Reads the four digits of a code unit. -/
def codeUnit (c : Cursor) : Read Nat :=
  match hexUnit? (c.rest.take 4) with
  | some unit => .ok (unit, c.next.next.next.next)
  | none =>
    if hasFourBytes c.rest then .error ⟨.badEscape, c.position.skip 4 c.rest⟩
    else .error ⟨.unfinishedString, c.position.skip 4 c.rest⟩

def isLeading (unit : Nat) : Bool := 0xD800 ≤ unit && unit ≤ 0xDBFF
def isTrailing (unit : Nat) : Bool := 0xDC00 ≤ unit && unit ≤ 0xDFFF

/-- Reads the next character, which has to be `x` for the second half of a pair to follow. -/
def pairMark (x : Char) (c : Cursor) : Except Fault Cursor :=
  match c.rest with
  | [] => c.fail .unfinishedString
  | y :: _ => if y = x then .ok c.next else c.failNext .halfSurrogatePair

/-- Reads an escaped code point, after the letter that announces it. -/
def codePoint (c : Cursor) : Except Fault (Char × Cursor) := do
  let (unit, c) ← codeUnit c
  if isTrailing unit then c.fail .loneSurrogate
  else if !isLeading unit then return (Char.ofNat unit, c)
  else
    let c ← pairMark '\\' c
    let c ← pairMark 'u' c
    let (trail, c) ← codeUnit c
    if isTrailing trail then
      return (Char.ofNat ((unit - 0xD800) * 0x400 + (trail - 0xDC00) + 0x10000), c)
    else c.fail .loneSurrogate

/-- The character that a short escape stands for. -/
def shortEscape? : Char → Option Char
  | '"' => some '"'
  | '\\' => some '\\'
  | '/' => some '/'
  | 'b' => some '\x08'
  | 'f' => some '\x0c'
  | 'n' => some '\n'
  | 'r' => some '\r'
  | 't' => some '\t'
  | _ => none

/-- Reads an escape, after its backslash. -/
def escapeSequence (c : Cursor) : Read Char :=
  match c.rest with
  | [] => c.fail .unfinishedString
  | 'u' :: _ => codePoint c.next
  | x :: _ =>
    match shortEscape? x with
    | some y => .ok (y, c.next)
    | none => c.failNext .badEscape

/-- Reads the characters of a string up to its quote. There are no more of them than `bound` has,
and `seen` holds those read, last first. -/
def charsFrom : List Char → List Char → Cursor → Read (List Char)
  | [], _, c => c.fail .unfinishedString
  | _ :: bound, seen, c =>
    match c.rest with
    | [] => c.fail .unfinishedString
    | '"' :: _ => .ok (seen.reverse, c.next)
    | '\\' :: _ =>
      match escapeSequence c.next with
      | .error fault => .error fault
      | .ok (x, c) => charsFrom bound (x :: seen) c
    | x :: _ =>
      if x.toNat < 0x20 then c.failNext .controlCharacter else charsFrom bound (x :: seen) c.next

/-- Reads a string, after its first quote. -/
def chars (c : Cursor) : Read (List Char) := charsFrom c.rest [] c

/-- Reads a string, after its first quote, as a text. -/
def string (c : Cursor) : Read String := (chars c).map fun (cs, c) => (String.ofList cs, c)

/-! ### Numbers -/

def digitValue (c : Char) : Nat := c.toNat - '0'.toNat

/-- A significand may grow by one more digit only up to here. -/
def greatestSignificand : Nat := Nat.pow 2 64 - 1

/-- Past the digits at the cursor, which are given too. -/
def digitsFrom : List Char → Position → List Char → List Char × Cursor
  | [], position, seen => (seen.reverse, ⟨[], position⟩)
  | c :: rest, position, seen =>
    if c.isDigit then digitsFrom rest (position.after c) (c :: seen)
    else (seen.reverse, ⟨c :: rest, position⟩)

def digits (c : Cursor) : List Char × Cursor := digitsFrom c.rest c.position []

/-- Takes digits into a significand while they fit, and gives the digits left over. -/
def gather (significand : Nat) : List Char → Nat × List Char
  | [] => (significand, [])
  | d :: ds =>
    let grown := significand * 10 + digitValue d
    if grown ≤ greatestSignificand then gather grown ds else (significand, d :: ds)

/-- An exponent may grow by one more digit only up to here. -/
def greatestExponent : Nat := Nat.pow 2 31 - 1

/-- A double that was read, or the fault that it is too large, placed at the cursor. -/
def realAt (negative : Bool) (significand : Nat) (exponent : Int) (c : Cursor) : Read Number :=
  match Double.ofDecimal? negative significand exponent with
  | some x => .ok (.real x, c)
  | none => c.fail .hugeNumber

/-- Reads the digits of an exponent; `none` when they are too many. -/
def exponentFrom (exponent : Nat) : List Char → Position → Option Nat × Cursor
  | [], position => (some exponent, ⟨[], position⟩)
  | c :: rest, position =>
    if c.isDigit then
      let grown := exponent * 10 + digitValue c
      if grown ≤ greatestExponent then exponentFrom grown rest (position.after c)
      else (none, ⟨rest, position.after c⟩)
    else (some exponent, ⟨c :: rest, position⟩)

/-- Reads an exponent, after its letter. -/
def withExponent (negative : Bool) (significand : Nat) (exponent : Int) (c : Cursor) :
    Read Number :=
  let (down, c) :=
    match c.rest with
    | '+' :: _ => (false, c.next)
    | '-' :: _ => (true, c.next)
    | _ => (false, c)
  match c.rest with
  | [] => c.fail .unfinishedValue
  | d :: _ =>
    if d.isDigit then
      match exponentFrom 0 c.rest c.position with
      | (some power, c) =>
        realAt negative significand (if down then exponent - power else exponent + power) c
      | (none, c) =>
        if significand ≠ 0 ∧ down = false then c.fail .hugeNumber
        else .ok (.real (.zero negative), (digits c).2)
    else c.failNext .badNumber

def startsExponent : List Char → Bool
  | c :: _ => c = 'e' || c = 'E'
  | [] => false

/-- Reads a fraction, after its point. -/
def withFraction (negative : Bool) (significand : Nat) (exponent : Int) (c : Cursor) :
    Read Number :=
  match digits c with
  | ([], c) =>
    match c.rest with
    | [] => c.fail .unfinishedValue
    | _ => c.failNext .badNumber
  | (ds, c) =>
    let (significand, left) := gather significand ds
    let exponent := exponent - (ds.length - left.length)
    if startsExponent c.rest then withExponent negative significand exponent c.next
    else realAt negative significand exponent c

/-- The exact whole number; minus zero is a double. -/
def whole (negative : Bool) (n : Nat) : Number :=
  if negative = false then .natural n
  else if n = 0 then .real (.zero true)
  else if n ≤ Nat.pow 2 63 then .negative n
  else .real ((Double.ofRatio? true n 1).getD (.zero true))

/-- Reads a number, after its sign. -/
def number (negative : Bool) (c : Cursor) : Read Number :=
  match c.rest with
  | [] => c.fail .unfinishedValue
  | d :: _ =>
    if d.isDigit then
      let (ds, after) := if d = '0' then ([d], c.next) else digits c
      let (significand, left) := gather 0 ds
      match after.rest with
      | '.' :: _ => withFraction negative significand left.length after.next
      | x :: _ =>
        if d = '0' ∧ x.isDigit then after.failNext .badNumber
        else if startsExponent after.rest then
          withExponent negative significand left.length after.next
        else if left.isEmpty then .ok (whole negative significand, after)
        else realAt negative significand left.length after
      | [] =>
        if left.isEmpty then .ok (whole negative significand, after)
        else realAt negative significand left.length after
    else c.failNext .badNumber

end PipeGuard.Json.Read
