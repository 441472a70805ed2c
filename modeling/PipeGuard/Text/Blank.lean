import PipeGuard.Text.Ranges

/-! White space, in the wide sense of the Unicode property, and trimming by it. -/
namespace PipeGuard.Text

/-- The characters with the `White_Space` property. -/
def blankRanges : Ranges :=
  [(0x09, 0x0D), (0x20, 0x20), (0x85, 0x85), (0xA0, 0xA0), (0x1680, 0x1680), (0x2000, 0x200A),
   (0x2028, 0x2029), (0x202F, 0x202F), (0x205F, 0x205F), (0x3000, 0x3000)]

def isBlank (c : Char) : Bool := within blankRanges c

/-- Drops white space from both ends. -/
def trim (text : List Char) : List Char :=
  (text.dropWhile isBlank).reverse.dropWhile isBlank |>.reverse

/-- Nothing but white space. -/
def allBlank (text : List Char) : Bool := text.all isBlank

end PipeGuard.Text
