import PipeGuard.Text.ShapeTable

/-! Text as a diagnostic shows it: between double quotes, with everything that would not be seen
as itself written as an escape. -/
namespace PipeGuard.Text

/-- Lower-case hexadecimal digits, with no leading zero. -/
def hexDigits (n : Nat) : List Char := Nat.toDigits 16 n

/-- One character inside quotes. -/
def quotedChar (c : Char) : List Char :=
  if c = '\x00' then ['\\', '0']
  else if c = '\t' then ['\\', 't']
  else if c = '\r' then ['\\', 'r']
  else if c = '\n' then ['\\', 'n']
  else if c = '\\' ∨ c = '"' then ['\\', c]
  else if 0x20 ≤ c.toNat ∧ c.toNat < 0x7F then [c]
  else if within attachingRanges c || within shapelessRanges c then
    ['\\', 'u', '\x7b'] ++ hexDigits c.toNat ++ ['\x7d']
  else [c]

def quoted (text : List Char) : List Char := '"' :: text.flatMap quotedChar ++ ['"']

end PipeGuard.Text
