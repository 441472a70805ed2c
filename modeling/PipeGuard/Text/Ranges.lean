/-! Ranges of code points. `within` asks whether a code point lies in one of a list of closed
ranges; the character classes of the other text modules are such lists. -/
namespace PipeGuard.Text

/-- A class of characters, as closed ranges of code points in increasing order. -/
abbrev Ranges := List (Nat × Nat)

def within (ranges : Ranges) (c : Char) : Bool :=
  ranges.any fun range => range.1 ≤ c.toNat && c.toNat ≤ range.2

theorem within_iff {ranges : Ranges} {c : Char} :
    within ranges c = true ↔ ∃ range ∈ ranges, range.1 ≤ c.toNat ∧ c.toNat ≤ range.2 := by
  simp [within]

end PipeGuard.Text
