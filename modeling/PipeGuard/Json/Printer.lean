import PipeGuard.Json.Fault

/-! Writing values as text: on one line without blanks, or with a line to every item and member and
two blanks of indent. Strings escape quotes, backslashes and the characters below the space. -/
namespace PipeGuard.Json

def hexDigit (n : Nat) : Char := Nat.digitChar (n % 16)

/-- One character inside a string. -/
def writtenChar (c : Char) : List Char :=
  if c = '"' then ['\\', '"']
  else if c = '\\' then ['\\', '\\']
  else if c = '\n' then ['\\', 'n']
  else if c = '\r' then ['\\', 'r']
  else if c = '\t' then ['\\', 't']
  else if c = '\x08' then ['\\', 'b']
  else if c = '\x0c' then ['\\', 'f']
  else if c.toNat < 0x20 then ['\\', 'u', '0', '0', hexDigit (c.toNat / 16), hexDigit c.toNat]
  else [c]

def writtenString (s : String) : List Char := '"' :: s.toList.flatMap writtenChar ++ ['"']

def writtenBool (b : Bool) : List Char := if b then "true".toList else "false".toList

/-! ### On one line -/

mutual

def compact : Json → List Char
  | null => "null".toList
  | boolean b => writtenBool b
  | number n => n.render
  | string s => writtenString s
  | array [] => ['[', ']']
  | array (x :: xs) => '[' :: compact x ++ compactItems xs ++ [']']
  | object [] => ['\x7b', '\x7d']
  | object (m :: ms) =>
    '\x7b' :: writtenString m.1 ++ ':' :: compact m.2 ++ compactMembers ms ++ ['\x7d']

def compactItems : List Json → List Char
  | [] => []
  | x :: xs => ',' :: compact x ++ compactItems xs

def compactMembers : List (String × Json) → List Char
  | [] => []
  | m :: ms => ',' :: writtenString m.1 ++ ':' :: compact m.2 ++ compactMembers ms

end

/-! ### On many lines -/

/-- A new line with its indent. -/
def newLine (depth : Nat) : List Char := '\n' :: List.replicate (2 * depth) ' '

mutual

def pretty (depth : Nat) : Json → List Char
  | null => "null".toList
  | boolean b => writtenBool b
  | number n => n.render
  | string s => writtenString s
  | array [] => ['[', ']']
  | array (x :: xs) =>
    '[' :: newLine (depth + 1) ++ pretty (depth + 1) x ++ prettyItems (depth + 1) xs ++
      newLine depth ++ [']']
  | object [] => ['\x7b', '\x7d']
  | object (m :: ms) =>
    '\x7b' :: newLine (depth + 1) ++ writtenString m.1 ++ [':', ' '] ++ pretty (depth + 1) m.2 ++
      prettyMembers (depth + 1) ms ++ newLine depth ++ ['\x7d']

def prettyItems (depth : Nat) : List Json → List Char
  | [] => []
  | x :: xs => ',' :: newLine depth ++ pretty depth x ++ prettyItems depth xs

def prettyMembers (depth : Nat) : List (String × Json) → List Char
  | [] => []
  | m :: ms =>
    ',' :: newLine depth ++ writtenString m.1 ++ [':', ' '] ++ pretty depth m.2 ++
      prettyMembers depth ms

end

def toCompact (value : Json) : String := String.ofList (compact value)

def toPretty (value : Json) : String := String.ofList (pretty 0 value)

end PipeGuard.Json
