import PipeGuard.Proofs.Escaping
import PipeGuard.Proofs.Loose
import PipeGuard.Restore

/-! What restoring does to a text that was escaped with backslashes.

A pass over the calls of one name releases the held pipes of their arguments and
leaves every other place alone (`revise_release`). A released pipe has an even run
before it and stays where it is in the plain text, so no later pass looks at it
again: passes in any order release what stands in a call of one of the names
(`reviseAll_release`).

`restore_text`: one backslash goes right before each loose pipe and nothing else
does, and restoring once more does nothing. -/
namespace PipeGuard

/-! ### One pass -/

theorem unedit_call (k : Call) :
    Piece.edit Pipe.unescapeArgs (.call k) =
        (k.withArgs (Pipe.expose false k.args)).whole ∧
      Piece.pipes Pipe.unescapeArgs (.call k) = Pipe.escaped false k.args := by
  simp only [Piece.edit, Piece.pipes, Pipe.unescapeArgs]
  cases hpipes : Pipe.escaped false k.args with
  | zero => rw [expose_of_escaped_eq_zero hpipes]; exact ⟨rfl, rfl⟩
  | succ n => exact ⟨rfl, rfl⟩

/-- In a call a pass releases all that is held in the arguments. -/
theorem release_callCells {names : List (List Char)} {name spelling before : List Char}
    {body m : List Cell} (hmem : name ∈ names)
    (haccepted : Accepted name ⟨spelling, Cell.plain body⟩)
    (hbare : Bare (before ++ opening spelling) (Cell.plain body)) :
    Cell.release (picks names before (Cell.callCells spelling body ++ m))
        (Cell.callCells spelling body ++ m) =
      Cell.callCells spelling ((Cell.plain body).map .char) ++
        Cell.release (picks names (before ++ Cell.plain (Cell.callCells spelling body)) m) m := by
  rw [release_picks_append]
  congr 1
  rw [Cell.callCells, Cell.release_append, Cell.release_append, Cell.release_map_char,
    Cell.release_map_char, List.length_map, Cell.callCells]
  congr 2
  refine Cell.release_of_held fun i hi => ?_
  obtain ⟨hlt, -⟩ := List.getElem?_eq_some_iff.1 hi
  show picks names before _ _ = true
  rw [← Cell.callCells, picks_callCells hmem haccepted hlt]
  exact evenAt_of_held hbare hi

/-- **A pass releases what is unguarded for its name**, and reports what it
releases. -/
theorem revise_release {name before : List Char} {m : List Cell} (hname : Ordinary name)
    (hclosing : '}' ∉ name) (houtside : Outside name before (Cell.plain m))
    (hbare : Bare before (Cell.plain m)) :
    (revise Pipe.unescapeArgs name (Cell.spell escapedPipe m)).text =
        Cell.spell escapedPipe (Cell.release (picks [name] before m) m) ∧
      (revise Pipe.unescapeArgs name (Cell.spell escapedPipe m)).pipes +
        (Cell.release (picks [name] before m) m).count .held = m.count .held := by
  have hinert : Inert name escapedPipe := hname.inert_token .backslash
  induction Cell.parts hname.inert_pipe m generalizing before with
  | nil => exact ⟨rfl, rfl⟩
  | @held m _ ih =>
    have hkept : ¬ Unguarded [name] before (Cell.plain m) := Outside.not_unguarded houtside
    have hstep : Outside name (before ++ ['|']) (Cell.plain m) :=
      Outside.step houtside fun ⟨_, _, _, h, _⟩ => absurd (List.cons.inj h).1 (by decide)
    obtain ⟨htext, hcount⟩ := ih hstep (bare_cons.1 hbare).2
    rw [release_picks_held, if_neg hkept, Cell.spell, (revise_word hinert.brace _).1,
      (revise_word hinert.brace _).2, htext, List.count_cons_self, List.count_cons_self]
    exact ⟨rfl, by omega⟩
  | @char c m hnone _ ih =>
    have hnot := call?_eq_none_iff.1 (hnone _ hname.inert_pipe)
    obtain ⟨htext, hcount⟩ := ih (Outside.step houtside hnot) (bare_cons.1 hbare).2
    rw [release_picks_char, Cell.spell, (revise_plain (hnone _ hinert)).1,
      (revise_plain (hnone _ hinert)).2, htext, List.count_cons_of_ne (by simp),
      List.count_cons_of_ne (by simp)]
    exact ⟨rfl, hcount⟩
  | @call spelling body m hcall _ ih =>
    have haccepted := (call?_eq_some_iff.1 (hcall _ hname.inert_pipe)).1
    have hwhole : Cell.plain (Cell.callCells spelling body) = (Call.mk spelling _).whole :=
      Cell.spell_callCells _ _ _
    have hplain : Cell.plain (Cell.callCells spelling body ++ m) =
        (opening spelling ++ (Cell.plain body ++ Call.closing)) ++ Cell.plain m := by
      rw [Cell.plain_append, hwhole]
      simp [Call.whole, Call.opening_eq]
    have hbody : Bare (before ++ opening spelling) (Cell.plain body) := by
      rw [hplain] at hbare
      exact hbare.of_append.1.of_append.2.of_append.1
    have hrest : Bare (before ++ Cell.plain (Cell.callCells spelling body)) (Cell.plain m) := by
      rw [Cell.plain_append] at hbare
      exact hbare.of_append.2
    have hstep : Outside name (before ++ Cell.plain (Cell.callCells spelling body)) (Cell.plain m) := by
      rw [Cell.plain_append] at houtside
      rw [hwhole] at houtside ⊢
      exact houtside.call hclosing
    obtain ⟨htext, hcount⟩ := ih hstep hrest
    obtain ⟨hexpose, hescaped⟩ := expose_spell hbody
    rw [oddRun_opening] at hexpose hescaped
    rw [release_callCells (List.mem_singleton_self _) haccepted hbody]
    refine ⟨?_, ?_⟩
    · rw [(revise_callCells (hcall _ hinert)).1, htext, (unedit_call _).1, Cell.spell_append,
        Cell.spell_callCells, Cell.spell_map_char, ← hexpose]
      rfl
    · have hnone : ((Cell.plain body).map Cell.char).count .held = 0 :=
        List.count_eq_zero.2 (by simp)
      rw [(revise_callCells (hcall _ hinert)).2, (unedit_call _).2, List.count_append,
        List.count_append, count_callCells, count_callCells, hnone, ← hcount, ← hescaped]
      show Pipe.escaped false (Cell.spell escapedPipe body) + _ + _ = _
      omega

/-! ### All passes -/

/-- **The passes of several names release what is unguarded for one of them**, in
any order, and report what they release. -/
theorem reviseAll_release {names : List (List Char)} {m : List Cell}
    (hnames : ∀ name ∈ names, Ordinary name ∧ '}' ∉ name) (hbare : Bare [] (Cell.plain m)) :
    (reviseAll Pipe.unescapeArgs names (Cell.spell escapedPipe m)).text =
        Cell.spell escapedPipe (Cell.release (unguardedAt names (Cell.plain m)) m) ∧
      (reviseAll Pipe.unescapeArgs names (Cell.spell escapedPipe m)).pipes +
        (Cell.release (unguardedAt names (Cell.plain m)) m).count .held = m.count .held := by
  induction names generalizing m with
  | nil =>
    rw [unguardedAt_nil, Cell.release_false]
    exact ⟨rfl, Nat.zero_add _⟩
  | cons name names ih =>
    obtain ⟨hname, hclosing⟩ := hnames name (List.mem_cons_self ..)
    obtain ⟨htext, hcount⟩ := revise_release hname hclosing (outside_nil _ _) hbare
    have hbare' : Bare [] (Cell.plain (Cell.release (unguardedAt [name] (Cell.plain m)) m)) := by
      rwa [Cell.plain_release]
    obtain ⟨htexts, hcounts⟩ := ih (fun n hn => hnames n (List.mem_cons_of_mem _ hn)) hbare'
    have hunion : (fun i => unguardedAt [name] (Cell.plain m) i || unguardedAt names (Cell.plain m) i) =
        unguardedAt (name :: names) (Cell.plain m) :=
      funext fun i => (unguardedAt_cons name names _ i).symm
    rw [Cell.plain_release, Cell.release_release, hunion] at htexts hcounts
    rw [picks_nil] at htext hcount
    refine ⟨?_, ?_⟩
    · simp only [reviseAll]
      rw [htext, htexts]
    · rw [reviseAll_cons_pipes, htext]
      omega

/-- Where all that is unguarded is released, a pass finds nothing escaped. -/
theorem escaped_release {names : List (List Char)}
    (hnames : ∀ name ∈ names, Ordinary name ∧ '}' ∉ name) {m : List Cell}
    (hbare : Bare [] (Cell.plain m)) :
    ∀ name ∈ names, ∀ f ∈ findCalls name
        (Cell.spell escapedPipe (Cell.release (unguardedAt names (Cell.plain m)) m)),
      Pipe.escaped false f.call.args = 0 := by
  intro name hname f hf
  obtain ⟨hordinary, hclosing⟩ := hnames name hname
  have hbare' : Bare [] (Cell.plain (Cell.release (unguardedAt names (Cell.plain m)) m)) := by
    rwa [Cell.plain_release]
  have hpass := (revise_release hordinary hclosing (outside_nil _ _) hbare').2
  -- The pass would release what is released already.
  have hsub := funext (unguardedAt_absorb hname (Cell.plain m))
  rw [picks_nil, Cell.plain_release, Cell.release_release, hsub, (revise_eq _ _ _).2,
    Nat.add_eq_right, List.sum_eq_zero_iff_forall_eq_nat] at hpass
  have hzero := hpass _ (List.mem_map_of_mem (mem_of_mem_locate hf))
  rwa [(unedit_call _).2] at hzero

/-! ### The text that comes out -/

theorem readNames_plain : ∀ name ∈ readNames, Ordinary name ∧ '}' ∉ name := by
  intro name hname
  simp only [readNames, List.mem_cons, List.not_mem_nil, or_false] at hname
  rcases hname with rfl | rfl <;> exact ⟨⟨by decide, by decide, by decide⟩, by decide⟩

/-- Passes over the calls of names strike the loose places of the text, and report
how many they are. -/
theorem reviseAll_strike {names : List (List Char)}
    (hnames : ∀ name ∈ names, Ordinary name ∧ '}' ∉ name) (text : List Char) :
    (reviseAll Pipe.unescapeArgs names text).text = strike (looseAt names text) text ∧
      (reviseAll Pipe.unescapeArgs names text).pipes =
        (List.range text.length).countP (looseAt names text) := by
  obtain ⟨m, rfl, hbare⟩ := @exists_spell [] text fun _ => rfl
  obtain ⟨htext, hcount⟩ := reviseAll_release hnames hbare
  have hfrom : looseFrom names [] (Cell.spell escapedPipe m) =
      looseAt names (Cell.spell escapedPipe m) := by
    funext i
    simp [looseFrom]
  have hordinary : ∀ name ∈ names, Ordinary name := fun name hname => (hnames name hname).1
  have hstrike := @strike_spell names hordinary [] m hbare
  have hplain : Cell.plain [] = [] := rfl
  have hnil : Cell.spell escapedPipe [] = [] := rfl
  rw [hplain, hnil, hfrom, picks_nil] at hstrike
  refine ⟨htext.trans hstrike.symm, ?_⟩
  -- Both sides say how much shorter the text has become.
  have hlength := length_strike (looseAt names (Cell.spell escapedPipe m)) (Cell.spell escapedPipe m)
  have hbefore := length_spell_escapedPipe m
  have hafter := length_spell_escapedPipe (Cell.release (unguardedAt names (Cell.plain m)) m)
  rw [Cell.length_release] at hafter
  rw [hstrike] at hlength
  omega

theorem restoreCalls_eq (text : List Char) :
    (restoreCalls text).text = (unescapeCalls text).text ∧
      (restoreCalls text).pipes = (unescapeCalls text).pipes := by
  by_cases hfixes : (unescapeCalls text).fixes = []
  · have htext : (unescapeCalls text).text = text := reviseAll_text_of_fixes_eq_nil hfixes
    have hpipes : (unescapeCalls text).pipes = 0 := by rw [Revision.pipes, hfixes]; rfl
    rw [htext, hpipes, restoreCalls, hfixes]
    exact ⟨rfl, rfl⟩
  · have hsome : (unescapeCalls text).fixes.isEmpty = false := by
      rwa [List.isEmpty_eq_false_iff]
    simp only [restoreCalls, hsome]
    exact ⟨rfl, rfl⟩

theorem restore_backslash_eq {settings : Settings} (h : settings.enabled = true) (text : List Char) :
    restore .backslash settings text = restoreCalls text := by
  rw [restore, if_pos h]

/-- **Restoring takes one backslash from each loose pipe of a call that reads**, the
one right before it, and keeps every other character. The number of these pipes is
reported, the names may have their passes in any order, and what was restored is
left untouched by a second restore. -/
theorem restore_text {settings : Settings} (h : settings.enabled = true) (text : List Char) :
    (restore .backslash settings text).text = strike (looseAt readNames text) text ∧
      (∀ i, looseAt readNames text i = true → text[i]? = some '\\' ∧ text[i + 1]? = some '|') ∧
      (restore .backslash settings text).pipes =
        (List.range text.length).countP (looseAt readNames text) ∧
      (∀ names : List (List Char), names.Perm readNames →
        (reviseAll Pipe.unescapeArgs names text).text = (restore .backslash settings text).text ∧
          (reviseAll Pipe.unescapeArgs names text).pipes =
            (restore .backslash settings text).pipes) ∧
      restore .backslash settings (restore .backslash settings text).text =
        .untouched (restore .backslash settings text).text := by
  obtain ⟨htext, hpipes⟩ := reviseAll_strike readNames_plain text
  obtain ⟨hrestored, hreported⟩ := restoreCalls_eq text
  rw [unescapeCalls] at hrestored hreported
  simp only [restore_backslash_eq h, hrestored, hreported]
  refine ⟨htext, fun i => backslash_of_looseAt, hpipes, fun names hperm => ?_, ?_⟩
  · have hnames : ∀ name ∈ names, Ordinary name ∧ '}' ∉ name :=
      fun name hname => readNames_plain name (hperm.mem_iff.1 hname)
    obtain ⟨htext', hpipes'⟩ := reviseAll_strike hnames text
    have hsame : looseAt names text = looseAt readNames text :=
      looseAt_congr (fun _ => hperm.mem_iff) text
    rw [htext, hpipes, htext', hpipes', hsame]
    exact ⟨rfl, rfl⟩
  · obtain ⟨m, rfl, hbare⟩ := @exists_spell [] text fun _ => rfl
    have hescaped := escaped_release readNames_plain hbare
    rw [(reviseAll_release readNames_plain hbare).1]
    have hnone : unescapeCalls (Cell.spell escapedPipe
        (Cell.release (unguardedAt readNames (Cell.plain m)) m)) = ⟨_, []⟩ :=
      reviseAll_of_none fun name hname f hf => by
        rw [Pipe.unescapeArgs, hescaped name hname f hf]
    rw [restoreCalls, hnone]
    rfl

/-- Calls that read inside each other: an escaped pipe in both, one in the outer
call only, and one outside that keeps its backslash. -/
def nestedReads (inner outer : List Char) : List Char :=
  opening "getvar".toList ++ "a".toList ++ outer ++
    (Call.mk "GetGlobalVar".toList ("b".toList ++ inner)).whole ++ "c\\|d".toList

/-- Each of the pipes in the calls loses one backslash, however many it has. -/
theorem restore_text_nested :
    (Settings.mk true false).enabled = true ∧ readNames.reverse.Perm readNames ∧
      (restore .backslash ⟨true, false⟩ (nestedReads "\\\\\\|".toList "\\|".toList)).text =
        nestedReads "\\\\|".toList "|".toList ∧
      (restore .backslash ⟨true, false⟩ (nestedReads "\\\\\\|".toList "\\|".toList)).pipes = 2 ∧
      (reviseAll Pipe.unescapeArgs readNames.reverse
        (nestedReads "\\\\\\|".toList "\\|".toList)).text = nestedReads "\\\\|".toList "|".toList := by
  obtain ⟨htext, -, hpipes, horder, -⟩ :=
    @restore_text ⟨true, false⟩ rfl (nestedReads "\\\\\\|".toList "\\|".toList)
  have hstrike : strike (looseAt readNames (nestedReads "\\\\\\|".toList "\\|".toList))
      (nestedReads "\\\\\\|".toList "\\|".toList) = nestedReads "\\\\|".toList "|".toList := by
    decide +kernel
  have hcount : (List.range (nestedReads "\\\\\\|".toList "\\|".toList).length).countP
      (looseAt readNames (nestedReads "\\\\\\|".toList "\\|".toList)) = 2 := by decide +kernel
  have hperm : readNames.reverse.Perm readNames := List.reverse_perm _
  have hrestored := htext.trans hstrike
  exact ⟨rfl, hperm, hrestored, hpipes.trans hcount, (horder _ hperm).1.trans hrestored⟩

end PipeGuard
