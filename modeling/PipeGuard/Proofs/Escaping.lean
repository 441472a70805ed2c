import PipeGuard.Escape
import PipeGuard.Proofs.Passes

/-! What escaping does to a text.

`escape_text`: it puts the encoding's token for each pipe that a call which
writes would split at, and keeps every other character, whatever the order in
which the names take their passes.

`escape_settled`: in the text that comes out no call that writes has a structural
pipe left, so escaping it again, in either encoding, does nothing. -/
namespace PipeGuard

theorem writeNames_plain : ∀ name ∈ writeNames, Ordinary name ∧ '}' ∉ name := by
  intro name hname
  simp only [writeNames, List.mem_cons, List.not_mem_nil, or_false] at hname
  rcases hname with rfl | rfl | rfl | rfl <;>
    exact ⟨⟨by decide, by decide, by decide⟩, by decide⟩

theorem sound_guarded (names : List (List Char)) (text : List Char) :
    Sound [] (guarded names text) := by
  refine (sound_map_char [] text).hold fun i hi => ?_
  have hplain : Cell.plain (text.map .char) = text := Cell.spell_map_char _ _
  rw [← hplain] at hi
  exact even_of_unguardedAt hi

/-- The names matter as a set. -/
theorem guarded_congr {names names' : List (List Char)} (h : ∀ name, name ∈ names ↔ name ∈ names')
    (text : List Char) : guarded names text = guarded names' text := by
  have hat : unguardedAt names text = unguardedAt names' text := by
    funext i
    refine decide_eq_decide.2 ⟨fun hu => ⟨hu.even, ?_, hu.closes⟩, fun hu => ⟨hu.even, ?_, hu.closes⟩⟩
    · obtain ⟨name, hname, hrest⟩ := hu.inCall
      exact ⟨name, (h name).1 hname, hrest⟩
    · obtain ⟨name, hname, hrest⟩ := hu.inCall
      exact ⟨name, (h name).2 hname, hrest⟩
  rw [guarded, hat, guarded]

/-- The passes of names in any order hold the unguarded pipes of the text. -/
theorem reviseAll_guarded {names : List (List Char)}
    (hnames : ∀ name ∈ names, Ordinary name ∧ '}' ∉ name) (encoding : Encoding) (text : List Char) :
    (reviseAll (Pipe.escapeArgs encoding) names text).text =
        Cell.spell encoding.token (guarded names text) ∧
      (reviseAll (Pipe.escapeArgs encoding) names text).pipes =
        (guarded names text).count .held := by
  have hpasses := reviseAll_spell hnames (sound_map_char [] text) encoding
  have hnone : (text.map Cell.char).count .held = 0 := List.count_eq_zero.2 (by simp)
  simpa only [guarded, Cell.plain, Cell.spell_map_char, hnone, Nat.add_zero] using hpasses

theorem escape_text_eq {settings : Settings} (h : settings.enabled = true) (encoding : Encoding)
    (text : List Char) :
    (escape encoding settings text).text = (escapeCalls encoding text).text ∧
      (escape encoding settings text).pipes = (escapeCalls encoding text).pipes := by
  rw [escape, if_pos h]
  exact ⟨rfl, rfl⟩

/-- **Escaping replaces exactly the unguarded pipes.** The places are those of
`guarded`, which knows neither the encoding nor an order of the names. -/
theorem escape_text {settings : Settings} (h : settings.enabled = true) (encoding : Encoding)
    (text : List Char) :
    (escape encoding settings text).text =
        Cell.spell encoding.token (guarded writeNames text) ∧
      Cell.plain (guarded writeNames text) = text ∧
      (∀ i, (guarded writeNames text)[i]? = some .held ↔
        text[i]? = some '|' ∧ Unguarded writeNames (text.take i) (text.drop (i + 1))) ∧
      ∀ names : List (List Char), names.Perm writeNames →
        (reviseAll (Pipe.escapeArgs encoding) names text).text =
          (escape encoding settings text).text := by
  have hescape : (escape encoding settings text).text =
      Cell.spell encoding.token (guarded writeNames text) :=
    (escape_text_eq h encoding text).1.trans (reviseAll_guarded writeNames_plain encoding text).1
  refine ⟨hescape, plain_guarded _ _, getElem?_guarded _ _, fun names hperm => ?_⟩
  have hnames : ∀ name ∈ names, Ordinary name ∧ '}' ∉ name :=
    fun name hname => writeNames_plain name (hperm.mem_iff.1 hname)
  rw [(reviseAll_guarded hnames encoding text).1, hescape, guarded_congr fun _ => hperm.mem_iff]

/-- A call that opens in the arguments of another one, `pipe` standing where
either would split and one closing for both. -/
def nestedCalls (pipe : List Char) : List Char :=
  opening "addvar".toList ++ "a".toList ++ pipe ++
    (Call.mk "SetVar".toList ("b\\|c".toList ++ pipe ++ "d".toList)).whole ++ ['|']

/-- Both pipes of nested calls are escaped, whichever name has its pass first. -/
theorem escape_text_nested :
    (Settings.mk true false).enabled = true ∧ writeNames.reverse.Perm writeNames ∧
      (escape .backslash ⟨true, false⟩ (nestedCalls ['|'])).text =
        nestedCalls Encoding.backslash.token ∧
      (reviseAll (Pipe.escapeArgs .backslash) writeNames.reverse (nestedCalls ['|'])).text =
        nestedCalls Encoding.backslash.token := by
  have htext := @escape_text ⟨true, false⟩ rfl .backslash (nestedCalls ['|'])
  have hspell : Cell.spell Encoding.backslash.token (guarded writeNames (nestedCalls ['|'])) =
      nestedCalls Encoding.backslash.token := by decide +kernel
  have hperm : writeNames.reverse.Perm writeNames := List.reverse_perm _
  have hescape := htext.1.trans hspell
  exact ⟨rfl, hperm, hescape, (htext.2.2.2 _ hperm).trans hescape⟩

/-! ### Escaping again -/

theorem mem_of_mem_locate {start : Nat} {ps : List Piece} {f : Found} (h : f ∈ locate start ps) :
    .call f.call ∈ ps := by
  induction ps generalizing start with
  | nil => simp [locate] at h
  | cons p ps ih =>
    cases p with
    | plain c => exact List.mem_cons_of_mem _ (ih h)
    | call k =>
      rcases List.mem_cons.1 h with rfl | h
      · exact List.mem_cons_self ..
      · exact List.mem_cons_of_mem _ (ih h)

theorem revise_of_none {edit : Edit} {name text : List Char}
    (h : ∀ f ∈ findCalls name text, edit f.call.args = none) :
    revise edit name text = ⟨text, []⟩ := by
  have hfixes : (revise edit name text).fixes = [] :=
    List.filterMap_eq_nil_iff.2 fun f hf => by rw [h f hf]; rfl
  show (⟨(revise edit name text).text, (revise edit name text).fixes⟩ : Revision) = _
  rw [hfixes, revise_text_of_fixes_eq_nil hfixes]

/-- Passes that find nothing to edit leave the text as it is. -/
theorem reviseAll_of_none {edit : Edit} {names : List (List Char)} {text : List Char}
    (h : ∀ name ∈ names, ∀ f ∈ findCalls name text, edit f.call.args = none) :
    reviseAll edit names text = ⟨text, []⟩ := by
  induction names with
  | nil => rfl
  | cons name names ih =>
    simp only [reviseAll, revise_of_none (h name (List.mem_cons_self ..)),
      ih fun n hn => h n (List.mem_cons_of_mem _ hn), List.nil_append]

theorem reviseAll_text_of_fixes_eq_nil {edit : Edit} {names : List (List Char)} {text : List Char}
    (h : (reviseAll edit names text).fixes = []) : (reviseAll edit names text).text = text := by
  induction names generalizing text with
  | nil => rfl
  | cons name names ih =>
    obtain ⟨hfirst, hrest⟩ := List.append_eq_nil_iff.1 h
    show (reviseAll edit names (revise edit name text).text).text = text
    rw [ih hrest, revise_text_of_fixes_eq_nil hfirst]

/-- Where every unguarded pipe is held, the calls have no structural pipe. -/
theorem structural_guarded {names : List (List Char)}
    (hnames : ∀ name ∈ names, Ordinary name ∧ '}' ∉ name) (encoding : Encoding) (text : List Char) :
    ∀ name ∈ names, ∀ f ∈ findCalls name (Cell.spell encoding.token (guarded names text)),
      Pipe.structural false f.call.args = 0 := by
  intro name hname f hf
  obtain ⟨hordinary, hclosing⟩ := hnames name hname
  have hpass := (revise_spell hordinary hclosing (outside_nil _ _) (sound_guarded names text)
    encoding).2 encoding
  -- The pass would hold what is held already.
  have hsame : Cell.hold (picks [name] [] (guarded names text)) (guarded names text) =
      guarded names text := by
    rw [picks_nil, plain_guarded, guarded, Cell.hold_hold, funext (unguardedAt_absorb hname text)]
  rw [hsame, (revise_eq _ _ _).2, Nat.add_eq_right, List.sum_eq_zero_iff_forall_eq_nat] at hpass
  have hzero := hpass _ (List.mem_map_of_mem (mem_of_mem_locate hf))
  rwa [(edit_call _ _).2] at hzero

theorem escapeCalls_guarded (first second : Encoding) (text : List Char) :
    escapeCalls second (Cell.spell first.token (guarded writeNames text)) =
      ⟨Cell.spell first.token (guarded writeNames text), []⟩ :=
  reviseAll_of_none fun name hname f hf => by
    rw [Pipe.escapeArgs, structural_guarded writeNames_plain first text name hname f hf]

/-- Escaping holds the unguarded pipes. -/
theorem escape_text_guarded {settings : Settings} (h : settings.enabled = true)
    (encoding : Encoding) (text : List Char) :
    (escape encoding settings text).text =
      Cell.spell encoding.token (guarded writeNames text) :=
  (escape_text_eq h encoding text).1.trans (reviseAll_guarded writeNames_plain encoding text).1

/-- What was escaped once is escaped for good, whatever the settings are the next time. -/
theorem escape_escape {settings : Settings} (h : settings.enabled = true) (other : Settings)
    (first second : Encoding) (text : List Char) :
    (escape second other (escape first settings text).text).text =
      (escape first settings text).text := by
  rw [escape_text_guarded h]
  by_cases hother : other.enabled = true
  · rw [escape, if_pos hother, escapeCalls_guarded]
  · rw [escape, if_neg hother]
    rfl

/-- **Escaped text is settled**: its calls that write have no structural pipe, so
a second escape, in the same encoding or the other one, returns it untouched. -/
theorem escape_settled {settings : Settings} (h : settings.enabled = true)
    (first second : Encoding) (text : List Char) :
    (∀ name ∈ writeNames, ∀ f ∈ findCalls name (escape first settings text).text,
      ∀ before after, f.call.args = before ++ '|' :: after → backslashes before % 2 = 1) ∧
      escape second settings (escape first settings text).text =
        .untouched (escape first settings text).text := by
  have hescape : (escape first settings text).text =
      Cell.spell first.token (guarded writeNames text) :=
    (escape_text_eq h first text).1.trans (reviseAll_guarded writeNames_plain first text).1
  have hstructural := structural_guarded writeNames_plain first text
  rw [hescape]
  refine ⟨fun name hname f hf before after hargs => ?_, ?_⟩
  · have hodd : oddRun ([] ++ before) = true :=
      oddRun_of_structural_eq_zero (hstructural name hname f hf) hargs
    exact of_decide_eq_true hodd
  · rw [escape, if_pos h, escapeCalls_guarded]
    rfl

/-- The other encoding finds nothing in what one encoding fixed. -/
theorem escape_settled_nested :
    (Settings.mk true false).enabled = true ∧
      escape .marker ⟨true, false⟩ (escape .backslash ⟨true, false⟩ (nestedCalls ['|'])).text =
        .untouched (escape .backslash ⟨true, false⟩ (nestedCalls ['|'])).text :=
  ⟨rfl, (escape_settled rfl .backslash .marker _).2⟩

/-! ### Reporting a change -/

/-- An escape says that it changed a text if and only if it did. -/
theorem escape_changed (encoding : Encoding) (settings : Settings) (text : List Char) :
    (escape encoding settings text).changed = true ↔
      (escape encoding settings text).text ≠ text := by
  by_cases h : settings.enabled = true
  · rw [escape, if_pos h]
    show (!(escapeCalls encoding text).fixes.isEmpty) = true ↔ (escapeCalls encoding text).text ≠ text
    rw [Bool.not_eq_true', List.isEmpty_eq_false_iff, not_iff_not]
    constructor
    · exact reviseAll_text_of_fixes_eq_nil
    · intro htext
      -- a text that an escape gives back is one that an escape gave
      have hspell := (reviseAll_guarded writeNames_plain encoding text).1.symm.trans htext
      rw [← hspell, escapeCalls_guarded]
  · rw [escape, if_neg h]
    exact ⟨fun hchanged => absurd hchanged Bool.false_ne_true, fun htext => absurd rfl htext⟩

end PipeGuard
