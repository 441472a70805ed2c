import Mathlib.Data.Set.Function
import PipeGuard.Proofs.Counterparts
import PipeGuard.Proofs.Loose

/-! Escaping arguments with backslashes, and taking the backslashes off again.

Neither undoes the other on arguments that have both kinds of pipe: an escape evens them
out one way, and taking backslashes off the other way. So each of the two forgets what
the other one did before it, and they undo each other where there is one kind of pipe.

`backslashes_inverse`: these laws; and that arguments with even runs only and arguments
with odd runs only correspond one to one, pipe for pipe. -/
namespace PipeGuard

/-- Arguments after an edit, which may leave them alone. -/
def Edit.apply (edit : Edit) (args : List Char) : List Char :=
  ((edit args).map Edited.args).getD args

/-- How many pipes an edit reports. -/
def Edit.pipes (edit : Edit) (args : List Char) : Nat :=
  ((edit args).map Edited.pipes).getD 0

namespace Pipe

def withBackslashes (args : List Char) : List Char := Edit.apply (escapeArgs .backslash) args

def withoutBackslashes (args : List Char) : List Char := Edit.apply unescapeArgs args

/-- Arguments whose pipes all have runs of backslashes of the same parity before them. -/
def runs (parity : Nat) : Set (List Char) :=
  {args | ∀ before after, args = before ++ '|' :: after → backslashes before % 2 = parity}

theorem mem_runs_even {args : List Char} : args ∈ runs 0 ↔ Bare [] args := by
  refine forall_congr' fun before => forall_congr' fun after => imp_congr_right fun _ => ?_
  rw [List.nil_append, oddRun_eq_false_iff]

theorem mem_runs_odd {args : List Char} :
    args ∈ runs 1 ↔ ∀ before after, args = before ++ '|' :: after → oddRun before = true :=
  forall_congr' fun _ => forall_congr' fun _ => imp_congr_right fun _ => decide_eq_true_iff.symm

/-! ### What the edits do and report -/

theorem withBackslashes_eq (args : List Char) :
    withBackslashes args = protect escapedPipe false args :=
  Call.escapedArgs_eq .backslash ⟨[], args⟩

theorem withoutBackslashes_eq (args : List Char) : withoutBackslashes args = expose false args := by
  unfold withoutBackslashes Edit.apply unescapeArgs
  cases hpipes : escaped false args with
  | zero => exact (expose_of_escaped_eq_zero hpipes).symm
  | succ n => rfl

theorem pipes_escapeArgs (encoding : Encoding) (args : List Char) :
    Edit.pipes (escapeArgs encoding) args = structural false args :=
  (edit_call encoding ⟨[], args⟩).2

theorem pipes_unescapeArgs (args : List Char) :
    Edit.pipes unescapeArgs args = escaped false args := by
  unfold Edit.pipes unescapeArgs
  cases escaped false args <;> rfl

/-- A pipe is structural or escaped. -/
theorem structural_add_escaped (odd : Bool) (args : List Char) :
    structural odd args + escaped odd args = args.count '|' := by
  induction args generalizing odd with
  | nil => rfl
  | cons c rest ih =>
    rw [structural, escaped]
    by_cases hback : c = '\\'
    · rw [if_pos hback, if_pos hback, ih, List.count_cons_of_ne (by rw [hback]; decide)]
    · rw [if_neg hback, if_neg hback]
      by_cases hpipe : c = '|'
      · subst hpipe
        rw [List.count_cons_self, ← ih false]
        cases odd
        · exact Nat.add_right_comm _ _ _
        · exact (Nat.add_assoc _ _ _).symm
      · rw [if_neg fun h => hpipe h.1, if_neg fun h => hpipe h.1, ih,
          List.count_cons_of_ne hpipe]

/-! ### On a plain text and what is held in it -/

theorem sound_of_bare {before : List Char} {m : List Cell} (h : Bare before (Cell.plain m)) :
    Sound before m := by
  rintro a b rfl
  exact h (Cell.plain a) (Cell.plain b) (Cell.plain_append a (.held :: b))

/-- Where no pipe of the plain text is escaped, it does not matter which pipes are held already. -/
theorem hold_evenAt_plain {before : List Char} {m : List Cell} (h : Bare before (Cell.plain m)) :
    Cell.hold (evenAt before ((Cell.plain m).map .char)) ((Cell.plain m).map .char) =
      Cell.hold (evenAt before m) m := by
  induction m generalizing before with
  | nil => rfl
  | cons x m ih =>
    cases x with
    | held =>
      obtain ⟨heven, hbare⟩ := bare_cons.1 h
      show Cell.hold (evenAt before (.char '|' :: (Cell.plain m).map .char))
        (.char '|' :: (Cell.plain m).map .char) = _
      rw [hold_evenAt_char, hold_evenAt_held, if_pos ⟨rfl, heven rfl⟩, ih hbare]
    | char c =>
      show Cell.hold (evenAt before (.char c :: (Cell.plain m).map .char))
        (.char c :: (Cell.plain m).map .char) = _
      rw [hold_evenAt_char, hold_evenAt_char, ih (bare_cons.1 h).2]

theorem count_spell_escapedPipe (m : List Cell) :
    (Cell.spell escapedPipe m).count '|' = (Cell.plain m).count '|' := by
  induction m with
  | nil => rfl
  | cons x m ih =>
    cases x with
    | held =>
      show (escapedPipe ++ Cell.spell escapedPipe m).count '|' = ('|' :: Cell.plain m).count '|'
      rw [List.count_append, ih, List.count_cons_self, Nat.add_comm]
      rfl
    | char c => simp only [Cell.spell, List.count_cons, ih]

section
variable {m : List Cell} (h : Bare [] (Cell.plain m))
include h

theorem withBackslashes_spell :
    withBackslashes (Cell.spell escapedPipe m) =
      Cell.spell escapedPipe (Cell.hold (evenAt [] m) m) :=
  (withBackslashes_eq _).trans (protect_spell .backslash (sound_of_bare h))

theorem withBackslashes_plain :
    withBackslashes (Cell.plain m) = Cell.spell escapedPipe (Cell.hold (evenAt [] m) m) := by
  have hprotect := protect_spell .backslash (sound_map_char [] (Cell.plain m))
  rw [Cell.spell_map_char, hold_evenAt_plain h] at hprotect
  exact (withBackslashes_eq _).trans hprotect

theorem withoutBackslashes_spell :
    withoutBackslashes (Cell.spell escapedPipe m) = Cell.plain m :=
  (withoutBackslashes_eq _).trans (expose_spell h).1

/-- What was held is not structural any more. -/
theorem structural_hold :
    structural false (Cell.spell escapedPipe (Cell.hold (evenAt [] m) m)) = 0 := by
  have hsound : Sound [] (Cell.hold (evenAt [] m) m) := (sound_of_bare h).hold fun _ hi => hi
  have hagain : Cell.hold (evenAt [] (Cell.hold (evenAt [] m) m)) (Cell.hold (evenAt [] m) m) =
      Cell.hold (evenAt [] m) m := by
    have hsame : evenAt [] (Cell.hold (evenAt [] m) m) = evenAt [] m := by
      funext i
      rw [evenAt, Cell.plain_hold, evenAt]
    rw [hsame, Cell.hold_hold]
    exact congrArg (Cell.hold · m) (funext fun i => Bool.or_self _)
  have hstructural := structural_spell .backslash hsound
  rw [hagain] at hstructural
  exact Nat.add_eq_right.mp hstructural

end

/-! ### Arguments with pipes of one kind -/

theorem withoutBackslashes_even {args : List Char} (h : args ∈ runs 0) :
    withoutBackslashes args = args ∧ escaped false args = 0 := by
  have hbare : Bare [] (Cell.plain (args.map .char)) := by
    rw [Cell.plain, Cell.spell_map_char]
    exact mem_runs_even.mp h
  have hnone : (args.map Cell.char).count .held = 0 := List.count_eq_zero.mpr (by simp)
  obtain ⟨hexpose, hescaped⟩ := expose_spell hbare
  rw [Cell.plain, Cell.spell_map_char, Cell.spell_map_char] at hexpose
  rw [Cell.spell_map_char, hnone] at hescaped
  exact ⟨(withoutBackslashes_eq args).trans hexpose, hescaped⟩

theorem structural_eq_zero {before args : List Char}
    (h : ∀ a b, args = a ++ '|' :: b → oddRun (before ++ a) = true) :
    structural (oddRun before) args = 0 := by
  induction args generalizing before with
  | nil => rfl
  | cons c rest ih =>
    have hfirst : ¬ (c = '|' ∧ oddRun before = false) := by
      rintro ⟨rfl, heven⟩
      have hodd := h [] rest rfl
      rw [List.append_nil, heven] at hodd
      cases hodd
    have hrest : ∀ a b, rest = a ++ '|' :: b → oddRun ((before ++ [c]) ++ a) = true := by
      rintro a b rfl
      rw [List.append_assoc]
      exact h (c :: a) b rfl
    rw [structural_cons, if_neg hfirst, ih hrest]

theorem withBackslashes_odd {args : List Char} (h : args ∈ runs 1) :
    withBackslashes args = args ∧ structural false args = 0 := by
  have hnone : structural false args = 0 := @structural_eq_zero [] args (mem_runs_odd.mp h)
  exact ⟨(withBackslashes_eq args).trans (protect_of_structural_eq_zero _ _ _ hnone), hnone⟩

/-- **Backslashes on and off again.** Each way forgets what the other one did; on arguments with
pipes of one kind they undo each other, and report every pipe. -/
theorem backslashes_inverse :
    (∀ args, withoutBackslashes (withBackslashes args) = withoutBackslashes args) ∧
      (∀ args, withBackslashes (withoutBackslashes args) = withBackslashes args) ∧
      -- one to one
      Set.BijOn withBackslashes (runs 0) (runs 1) ∧
      Set.BijOn withoutBackslashes (runs 1) (runs 0) ∧
      Set.InvOn withoutBackslashes withBackslashes (runs 0) (runs 1) ∧
      -- pipe for pipe
      ∀ args ∈ runs 0,
        Edit.pipes (escapeArgs .backslash) args = args.count '|' ∧
          Edit.pipes unescapeArgs (withBackslashes args) = args.count '|' ∧
          (withBackslashes args).count '|' = args.count '|' := by
  have hcells : ∀ args, ∃ m, Cell.spell escapedPipe m = args ∧ Bare [] (Cell.plain m) :=
    fun args => exists_spell fun _ => rfl
  have hoff : ∀ args, withoutBackslashes (withBackslashes args) = withoutBackslashes args := by
    intro args
    obtain ⟨m, rfl, hbare⟩ := hcells args
    have hheld : Bare [] (Cell.plain (Cell.hold (evenAt [] m) m)) := by rwa [Cell.plain_hold]
    rw [withBackslashes_spell hbare, withoutBackslashes_spell hheld, Cell.plain_hold,
      withoutBackslashes_spell hbare]
  have hon : ∀ args, withBackslashes (withoutBackslashes args) = withBackslashes args := by
    intro args
    obtain ⟨m, rfl, hbare⟩ := hcells args
    rw [withoutBackslashes_spell hbare, withBackslashes_plain hbare, withBackslashes_spell hbare]
  have hodd : ∀ args, withBackslashes args ∈ runs 1 := by
    intro args
    obtain ⟨m, rfl, hbare⟩ := hcells args
    rw [withBackslashes_spell hbare, mem_runs_odd]
    exact fun before after hargs =>
      @oddRun_of_structural_eq_zero [] _ before after (structural_hold hbare) hargs
  have heven : ∀ args, withoutBackslashes args ∈ runs 0 := by
    intro args
    obtain ⟨m, rfl, hbare⟩ := hcells args
    rw [withoutBackslashes_spell hbare, mem_runs_even]
    exact hbare
  have hinverse : Set.InvOn withoutBackslashes withBackslashes (runs 0) (runs 1) :=
    ⟨fun args hargs => (hoff args).trans (withoutBackslashes_even hargs).1,
      fun args hargs => (hon args).trans (withBackslashes_odd hargs).1⟩
  refine ⟨hoff, hon, hinverse.bijOn (fun args _ => hodd args) fun args _ => heven args,
    hinverse.symm.bijOn (fun args _ => heven args) fun args _ => hodd args, hinverse, ?_⟩
  intro args hargs
  have hcount : (withBackslashes args).count '|' = args.count '|' := by
    obtain ⟨m, rfl, hbare⟩ := hcells args
    rw [withBackslashes_spell hbare, count_spell_escapedPipe, count_spell_escapedPipe,
      Cell.plain_hold]
  have hbefore := structural_add_escaped false args
  have hafter := structural_add_escaped false (withBackslashes args)
  rw [(withoutBackslashes_even hargs).2] at hbefore
  rw [(withBackslashes_odd (hodd args)).2, hcount, Nat.zero_add] at hafter
  exact ⟨(pipes_escapeArgs _ args).trans hbefore, (pipes_unescapeArgs _).trans hafter, hcount⟩

/-- On arguments with pipes of both kinds neither way is undone; a run of two backslashes is one of
three for as long as its pipe is escaped. -/
theorem backslashes_inverse_mixed :
    let mixed := "a|b\\|c".toList
    let even := "\\\\|".toList
    withoutBackslashes (withBackslashes mixed) = "a|b|c".toList ∧
      withBackslashes (withoutBackslashes mixed) = "a\\|b\\|c".toList ∧
      even ∈ runs 0 ∧ withBackslashes even = "\\\\\\|".toList ∧
      withoutBackslashes (withBackslashes even) = even ∧
      Edit.pipes unescapeArgs (withBackslashes even) = 1 := by
  intro mixed even
  obtain ⟨hoff, hon, -, -, hinverse, hpipes⟩ := backslashes_inverse
  have heven : even ∈ runs 0 := by
    refine mem_runs_even.mpr (bare_cons.2 ⟨fun h => absurd h (by decide), ?_⟩)
    refine bare_cons.2 ⟨fun h => absurd h (by decide), ?_⟩
    exact bare_cons.2 ⟨fun _ => by decide, bare_nil _⟩
  exact ⟨(hoff mixed).trans (by decide), (hon mixed).trans (by decide), heven, by decide,
    hinverse.1 heven, (hpipes even heven).2.1⟩

end Pipe

end PipeGuard
