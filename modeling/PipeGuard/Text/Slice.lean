/-! Parts of a text, by its bytes in UTF-8. A part can be taken from one boundary between characters
to a later one, and nothing else can.

A draft is a text made from another one, its source. It copies the source from the left, and puts
words for some parts of it. -/
namespace PipeGuard.Text

/-- The part of `source` between two bytes, if they are boundaries of it in this order. -/
def slice? (source : String) (start stop : Nat) : Option String :=
  if h : start ≤ stop ∧ stop ≤ source.utf8ByteSize ∧
      String.Pos.Raw.IsValid source ⟨start⟩ ∧ String.Pos.Raw.IsValid source ⟨stop⟩ then
    some (source.extract ⟨⟨start⟩, h.2.2.1⟩ ⟨⟨stop⟩, h.2.2.2⟩)
  else none

/-- A word for the part of a source between two bytes. -/
structure Splice where
  start : Nat
  stop : Nat
  word : String
  deriving DecidableEq, Repr

structure Draft where
  /-- What is written so far. Nothing is before the first splice. -/
  text : Option String := none
  /-- The byte of the source at which copying goes on. -/
  last : Nat := 0
  deriving DecidableEq, Repr

namespace Draft

/-- Copies the source up to a splice, and writes the word of that. -/
def splice? (source : String) (draft : Draft) (splice : Splice) : Option Draft :=
  (slice? source draft.last splice.start).map fun copied =>
    ⟨some (draft.text.getD "" ++ copied ++ splice.word), splice.stop⟩

/-- Copies the rest of the source. What comes out is no text at all where nothing was spliced. -/
def finish? (source : String) (draft : Draft) : Option (Option String) :=
  match draft.text with
  | none => some none
  | some text => (slice? source draft.last source.utf8ByteSize).map fun rest => some (text ++ rest)

end Draft

end PipeGuard.Text
