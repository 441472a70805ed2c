import PipeGuard.Json.Basic
import PipeGuard.Json.Shortest
import PipeGuard.Text.Quoted

/-! Why a text is not the JSON that was asked for, and where reading it stopped. -/
namespace PipeGuard

namespace Double

/-- How doubles are written: digits with a point from `0.00001` up to sixteen digits before it, an
exponent with a sign outside of that, and always a point or an exponent. -/
def render (x : Double) : List Char :=
  let d := x.shortest
  let sign := if x.negative then ['-'] else []
  let digits := d.digits
  let point := d.point
  sign ++
    if x.mantissa = 0 then ['0', '.', '0']
    else if 0 < point ∧ point ≤ 16 then
      let whole := digits ++ List.replicate (point.toNat - digits.length) '0'
      let fraction := whole.drop point.toNat
      whole.take point.toNat ++ '.' :: (if fraction.isEmpty then ['0'] else fraction)
    else if -5 < point ∧ point ≤ 0 then
      ['0', '.'] ++ List.replicate (-point).toNat '0' ++ digits
    else
      let power := point - 1
      let fraction := digits.drop 1
      digits.take 1 ++ (if fraction.isEmpty then [] else '.' :: fraction) ++
        ['e', if 0 ≤ power then '+' else '-'] ++ Nat.toDigits 10 power.natAbs

end Double

def Number.render : Number → List Char
  | natural n => Nat.toDigits 10 n
  | negative n => '-' :: Nat.toDigits 10 n
  | real x => x.render

namespace Json

/-- A place in a text: its line, counted from one, and the bytes of that line before it. -/
structure Position where
  line : Nat := 1
  column : Nat := 0
  deriving DecidableEq, Repr

/-- The place after a character. -/
def Position.after (position : Position) (c : Char) : Position :=
  if c = '\n' then ⟨position.line + 1, 0⟩ else ⟨position.line, position.column + c.utf8Size⟩

/-- The place after the first `bytes` bytes of a text, even if a character is cut. -/
def Position.skip (position : Position) : Nat → List Char → Position
  | _, [] => position
  | bytes, c :: rest =>
    if c.utf8Size ≤ bytes then (position.after c).skip (bytes - c.utf8Size) rest
    else ⟨position.line, position.column + bytes⟩

/-- A value that was found where another kind was wanted. -/
inductive Finding
  | null
  | boolean (b : Bool)
  | number (n : Number)
  | string (text : List Char)
  | sequence
  | map
  deriving DecidableEq, Repr

def Finding.describe : Finding → String
  | null => "null"
  | boolean b => "boolean `" ++ toString b ++ "`"
  | number (.real x) => "floating point `" ++ String.ofList x.render ++ "`"
  | number n => "integer `" ++ String.ofList n.render ++ "`"
  | string text => "string " ++ String.ofList (Text.quoted text)
  | sequence => "sequence"
  | map => "map"

/-- What a place of a record or a record itself asks for. -/
inductive Wanted
  | boolean
  | string
  | sequence
  | settings
  | message
  deriving DecidableEq, Repr

def Wanted.describe : Wanted → String
  | boolean => "a boolean"
  | string => "a string"
  | sequence => "a sequence"
  | settings => "struct Settings"
  | message => "struct ChatMessage"

inductive Cause
  | unfinishedArray
  | unfinishedObject
  | unfinishedString
  | unfinishedValue
  | noColon
  | noArrayEnd
  | noObjectEnd
  | badWord
  | noValue
  | badEscape
  | badNumber
  | hugeNumber
  | controlCharacter
  | keyNotString
  | loneSurrogate
  | halfSurrogatePair
  | trailingComma
  | trailingCharacters
  | tooDeep
  | wrongKind (found : Finding) (wanted : Wanted)
  | repeatedField (name : String)
  deriving DecidableEq, Repr

def Cause.describe : Cause → String
  | unfinishedArray => "EOF while parsing a list"
  | unfinishedObject => "EOF while parsing an object"
  | unfinishedString => "EOF while parsing a string"
  | unfinishedValue => "EOF while parsing a value"
  | noColon => "expected `:`"
  | noArrayEnd => "expected `,` or `]`"
  | noObjectEnd => "expected `,` or `\x7d`"
  | badWord => "expected ident"
  | noValue => "expected value"
  | badEscape => "invalid escape"
  | badNumber => "invalid number"
  | hugeNumber => "number out of range"
  | controlCharacter => "control character (\\u0000-\\u001F) found while parsing a string"
  | keyNotString => "key must be a string"
  | loneSurrogate => "lone leading surrogate in hex escape"
  | halfSurrogatePair => "unexpected end of hex escape"
  | trailingComma => "trailing comma"
  | trailingCharacters => "trailing characters"
  | tooDeep => "recursion limit exceeded"
  | wrongKind found wanted =>
    "invalid type: " ++ found.describe ++ ", expected " ++ wanted.describe
  | repeatedField name => "duplicate field `" ++ name ++ "`"

structure Fault where
  cause : Cause
  position : Position
  deriving DecidableEq, Repr

def Fault.message (fault : Fault) : String :=
  fault.cause.describe ++ " at line " ++ toString fault.position.line ++ " column " ++
    toString fault.position.column

end Json

end PipeGuard
