import PipeGuard.Call
import PipeGuard.Pipe

/-! Editing the arguments of calls. A pass takes the calls of one name and edits each where the
edit has something to do; every other character stays. Several names take their passes in turn,
each on the text the last one left. -/
namespace PipeGuard

/-- New arguments for old ones, or `none` to leave a call alone. -/
abbrev Edit := List Char → Option Edited

/-- A call that a pass edited, and the byte of the pass's input at which it starts. -/
structure Fix where
  start : Nat
  call : Call
  edited : Edited
  deriving DecidableEq, Repr

/-- The call as it stands after the pass. -/
def Fix.result (fix : Fix) : Call := fix.call.withArgs fix.edited.args

/-- The text of a piece after an edit. -/
def Piece.edit (edit : Edit) : Piece → List Char
  | plain c => [c]
  | call k =>
    match edit k.args with
    | some edited => (k.withArgs edited.args).whole
    | none => k.whole

/-- The calls that an edit changes. -/
def fixesOf (edit : Edit) (found : List Found) : List Fix :=
  found.filterMap fun f => (edit f.call.args).map fun edited => ⟨f.start, f.call, edited⟩

/-- A text after passes, and the calls that they edited. -/
structure Revision where
  text : List Char
  fixes : List Fix
  deriving DecidableEq, Repr

def Revision.calls (r : Revision) : Nat := r.fixes.length

def Revision.pipes (r : Revision) : Nat := (r.fixes.map (·.edited.pipes)).foldr (· + ·) 0

/-- Edits the calls of one name. -/
def revise (edit : Edit) (name text : List Char) : Revision :=
  let ps := pieces name text
  ⟨ps.flatMap (Piece.edit edit), fixesOf edit (locate 0 ps)⟩

/-- Edits the calls of several names, one name after the other. -/
def reviseAll (edit : Edit) : List (List Char) → List Char → Revision
  | [], text => ⟨text, []⟩
  | name :: names, text =>
    let first := revise edit name text
    let rest := reviseAll edit names first.text
    ⟨rest.text, first.fixes ++ rest.fixes⟩

/-- An edit with nothing to do on a name's calls leaves the text as it is. -/
theorem revise_text_of_fixes_eq_nil {edit : Edit} {name text : List Char}
    (h : (revise edit name text).fixes = []) : (revise edit name text).text = text := by
  have key : ∀ (ps : List Piece) (start : Nat), fixesOf edit (locate start ps) = [] →
      ps.flatMap (Piece.edit edit) = join ps := by
    intro ps
    induction ps with
    | nil => intros; rfl
    | cons p ps ih =>
      intro start hs
      cases p with
      | plain c =>
        simp only [locate] at hs
        simp [Piece.edit, join, Piece.text, ih _ hs]
      | call k =>
        simp only [locate, fixesOf, List.filterMap_cons] at hs
        cases hk : edit k.args with
        | some edited => simp [hk] at hs
        | none =>
          rw [hk] at hs
          simp [Piece.edit, hk, join, Piece.text, ih _ hs]
  rw [← join_pieces name text]
  simpa [revise, join_pieces] using key (pieces name text) 0 (by simpa [revise] using h)

end PipeGuard
