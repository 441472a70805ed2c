import PipeGuard.Text.CaseTable

/-! Lower-casing a text by the full Unicode rules: character by character, except that a capital I
with a dot gives two characters and a capital sigma takes its final form at the end of a word. -/
namespace PipeGuard.Text

/-- The lower-case form of one character, out of context. -/
def lowerChar (c : Char) : Char :=
  if c.toNat < 0x80 then c.toLower
  else match caseRuns.find? fun run =>
      run.first ≤ c.toNat && c.toNat ≤ run.last && (c.toNat - run.first) % run.step == 0 with
    | some run => Char.ofNat (c.toNat + run.shift).toNat
    | none => c

/-- A letter stands next in `text`, once the characters a sigma looks past are dropped. -/
def letterNext (text : List Char) : Bool :=
  match text.dropWhile (within caseIgnorableRanges) with
  | c :: _ => within casedRanges c
  | [] => false

/-- The lower-case form of `c`, after the characters `before` (nearest first) and in front of
`after`. -/
def lowerAt (before : List Char) (c : Char) (after : List Char) : List Char :=
  if c = 'İ' then ['i', '\u0307']
  else if c = 'Σ' then [if letterNext before && !letterNext after then 'ς' else 'σ']
  else [lowerChar c]

def lowercaseFrom (before : List Char) : List Char → List Char
  | [] => []
  | c :: after => lowerAt before c after ++ lowercaseFrom (c :: before) after

def lowercase (text : List Char) : List Char := lowercaseFrom [] text

/-- On ASCII text lower-casing is the map of the letters A to Z. -/
theorem lowercaseFrom_ascii (before text : List Char) (h : ∀ c ∈ text, c.toNat < 0x80) :
    lowercaseFrom before text = text.map Char.toLower := by
  induction text generalizing before with
  | nil => rfl
  | cons c after ih =>
    have hc := h c List.mem_cons_self
    have hdot : c ≠ 'İ' := by rintro rfl; revert hc; decide
    have hsigma : c ≠ 'Σ' := by rintro rfl; revert hc; decide
    simp [lowercaseFrom, lowerAt, hdot, hsigma, lowerChar, hc,
      ih (c :: before) fun x hx => h x (List.mem_cons_of_mem c hx)]

end PipeGuard.Text
