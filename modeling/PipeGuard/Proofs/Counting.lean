import PipeGuard.Proofs.Counterparts
import PipeGuard.Proofs.Markers
import PipeGuard.Proofs.Scanning
import PipeGuard.Proofs.Unescaping

/-! What the counts of an outcome say.

A pipe is replaced at its place or not, however many calls it lies in (`replacedAt`): so the pipes
that an escape reports are places of the text, and they account for the bytes it adds. Every call
reported has such a pipe.

A pass takes the same decisions on a text with held pipes whichever token stands for them
(`told_revise`). The next pass of either encoding reads one text with held pipes again, so both
report the same calls.

`counts_accounted`: the counts of an escape and those of a restore. -/
namespace PipeGuard

/-! ### Bytes -/

/-- How many bytes the token has more than a pipe. -/
def Encoding.growth : Encoding → Nat
  | marker => 13
  | backslash => 1

theorem byteSize_token (encoding : Encoding) : byteSize encoding.token = encoding.growth + 1 := by
  cases encoding <;> rfl

theorem countP_range_succ (n : Nat) (p : Nat → Bool) :
    (List.range (n + 1)).countP p =
      (List.range n).countP (fun i => p (i + 1)) + if p 0 = true then 1 else 0 := by
  rw [List.range_succ_eq_map, List.countP_cons, List.countP_map]
  rfl

theorem putAt_cons (word : List Char) (places : Nat → Bool) (c : Char) (rest : List Char) :
    Pipe.putAt word places (c :: rest) =
      (if places 0 then word else [c]) ++ Pipe.putAt word (fun i => places (i + 1)) rest := by
  rw [← Pipe.putAt_singleton]
  exact Pipe.putAt_append word places [c] rest

/-- Words for copies of one character. -/
theorem byteSize_putAt {c : Char} (word : List Char) {places : Nat → Bool} {text : List Char}
    (h : ∀ i, places i = true → text[i]? = some c) :
    byteSize (Pipe.putAt word places text) +
        c.utf8Size * (List.range text.length).countP places =
      byteSize text + byteSize word * (List.range text.length).countP places := by
  induction text generalizing places with
  | nil => rfl
  | cons d rest ih =>
    have hrest := @ih (fun i => places (i + 1)) fun i hi => by simpa using h (i + 1) hi
    rw [putAt_cons, List.length_cons, countP_range_succ, byteSize_append, byteSize]
    by_cases hplace : places 0 = true
    · obtain rfl : d = c := by simpa using h 0 hplace
      rw [if_pos hplace, if_pos hplace, Nat.mul_succ, Nat.mul_succ]
      omega
    · rw [if_neg hplace, if_neg hplace, Nat.add_zero, byteSize, byteSize]
      omega

theorem strike_eq_putAt (S : Nat → Bool) (text : List Char) :
    strike S text = Pipe.putAt [] S text := by
  induction text generalizing S with
  | nil => rfl
  | cons c rest ih =>
    rw [strike, putAt_cons, ih]
    split <;> rfl

theorem byteSize_unmark (text : List Char) :
    byteSize (unmarkFrom 0 text) + 13 * markersFrom 0 text = byteSize text := by
  induction marked text with
  | nil => rfl
  | @marker rest _ ih =>
    have hmarker : byteSize pipeMarker = 14 := rfl
    rw [unmark_marker, markers_marker, byteSize_append, hmarker, byteSize]
    have hpipe : '|'.utf8Size = 1 := rfl
    omega
  | @other c rest hnot _ ih =>
    rw [unmark_other hnot, markers_other hnot, byteSize, byteSize]
    omega

/-! ### The pipes replaced -/

/-- At `i` stands a pipe that a call of `names` would split at. -/
def replacedAt (names : List (List Char)) (text : List Char) (i : Nat) : Bool :=
  decide (text[i]? = some '|' ∧ Unguarded names (text.take i) (text.drop (i + 1)))

theorem replacedAt_eq (names : List (List Char)) (text : List Char) :
    replacedAt names text =
      fun i => decide (text[i]? = some '|') && unguardedAt names text i := by
  funext i
  rw [replacedAt, unguardedAt, Bool.decide_and]

theorem hold_map_char_eq (word : List Char) (S : Nat → Bool) (text : List Char) :
    let places := fun i => decide (text[i]? = some '|') && S i
    Cell.spell word (Cell.hold S (text.map .char)) = Pipe.putAt word places text ∧
      (Cell.hold S (text.map .char)).count .held = (List.range text.length).countP places := by
  induction text generalizing S with
  | nil => exact ⟨rfl, rfl⟩
  | cons c rest ih =>
    obtain ⟨htext, hcount⟩ := ih fun i => S (i + 1)
    intro places
    have hrest : (fun i => places (i + 1)) = fun i => decide (rest[i]? = some '|') && S (i + 1) := by
      funext i
      simp [places]
    have hzero : places 0 = true ↔ Cell.char c = .char '|' ∧ S 0 = true := by
      simp [places]
    rw [List.map_cons, Cell.hold_cons, putAt_cons, List.length_cons, countP_range_succ, hrest]
    by_cases hplace : places 0 = true
    · rw [if_pos (hzero.1 hplace), if_pos hplace, if_pos hplace, List.count_cons_self, Cell.spell,
        htext, hcount]
      exact ⟨rfl, rfl⟩
    · rw [if_neg (mt hzero.2 hplace), if_neg hplace, if_neg hplace,
        List.count_cons_of_ne (by simp), Cell.spell, htext, hcount]
      exact ⟨rfl, rfl⟩

theorem guarded_replacedAt (word : List Char) (names : List (List Char)) (text : List Char) :
    Cell.spell word (guarded names text) = Pipe.putAt word (replacedAt names text) text ∧
      (guarded names text).count .held = (List.range text.length).countP (replacedAt names text) := by
  rw [replacedAt_eq]
  exact hold_map_char_eq word _ text

/-! ### The calls reported -/

/-- Every call reported has a pipe. -/
theorem pipes_pos_of_mem_fixes {edit : Edit}
    (hedit : ∀ args edited, edit args = some edited → 0 < edited.pipes) {names : List (List Char)}
    {text : List Char} : ∀ fix ∈ (reviseAll edit names text).fixes, 0 < fix.edited.pipes := by
  induction names generalizing text with
  | nil => simp [reviseAll]
  | cons name names ih =>
    intro fix hfix
    rcases List.mem_append.1 hfix with hfirst | hrest
    · obtain ⟨f, -, hf⟩ := List.mem_filterMap.1 hfirst
      obtain ⟨edited, hedited, rfl⟩ := Option.map_eq_some_iff.1 hf
      exact hedit _ _ hedited
    · exact ih fix hrest

theorem calls_le_pipes {edit : Edit}
    (hedit : ∀ args edited, edit args = some edited → 0 < edited.pipes) (names : List (List Char))
    (text : List Char) :
    (reviseAll edit names text).calls ≤ (reviseAll edit names text).pipes := by
  rw [Revision.pipes_eq, Revision.calls, ← List.length_map (·.edited.pipes)]
  apply List.length_le_sum_of_one_le
  intro pipes hpipes
  obtain ⟨fix, hfix, rfl⟩ := List.mem_map.1 hpipes
  exact pipes_pos_of_mem_fixes hedit fix hfix

theorem pipes_pos_of_reported {args : List Char} {pipes : Nat} {edited : Edited}
    (h : Pipe.reported args pipes = some edited) : 0 < edited.pipes := by
  obtain ⟨hpipes, hedited⟩ := Option.ite_none_left_eq_some.1 h
  rw [← Option.some.inj hedited]
  exact Nat.pos_of_ne_zero hpipes

theorem pipes_pos_of_escapeArgs (encoding : Encoding) (args : List Char) (edited : Edited)
    (h : Pipe.escapeArgs encoding args = some edited) : 0 < edited.pipes := by
  rw [Pipe.escapeArgs_eq] at h
  exact pipes_pos_of_reported h

theorem pipes_pos_of_unescapeArgs (args : List Char) (edited : Edited)
    (h : Pipe.unescapeArgs args = some edited) : 0 < edited.pipes := by
  rw [Pipe.unescapeArgs_eq] at h
  exact pipes_pos_of_reported h

/-! ### The same calls in both encodings -/

/-- What is told of a call that an escape edits, its place and its text left out. -/
def Call.told (k : Call) : Option (List Char × Nat) :=
  match Pipe.structural false k.args with
  | 0 => none
  | pipes + 1 => some (k.name, pipes + 1)

def Fix.told (fix : Fix) : List Char × Nat := (fix.call.name, fix.edited.pipes)

theorem map_told_fixesOf (encoding : Encoding) (found : List Found) :
    (fixesOf (Pipe.escapeArgs encoding) found).map Fix.told = found.filterMap (·.call.told) := by
  rw [fixesOf, List.map_filterMap]
  refine List.filterMap_congr fun f _ => ?_
  rw [Pipe.escapeArgs, Call.told]
  cases Pipe.structural false f.call.args <;> rfl

/-- Two spellings of a call tell the same. -/
theorem Counterparts.told {name : List Char} {first second : Encoding} {m : List Cell} {f g : Found}
    (h : Counterparts name first.token second.token m f g) (hsound : Sound [] m) :
    f.call.told = g.call.told := by
  obtain ⟨a, spelling, body, b, rfl, -, rfl, rfl⟩ := h
  have hbody : Sound (Cell.plain a ++ opening spelling) body := by
    have hcall := hsound.of_append.1.of_append.2.of_append.1.of_append.2
    have hopening : Cell.plain ((opening spelling).map .char) = opening spelling :=
      Cell.spell_map_char _ _
    rwa [hopening, List.nil_append] at hcall
  have hfirst := structural_spell first hbody
  have hsecond := structural_spell second hbody
  rw [oddRun_opening] at hfirst hsecond
  have hsame : Pipe.structural false (Cell.spell first.token body) =
      Pipe.structural false (Cell.spell second.token body) := by omega
  simp only [Call.told, hsame]

theorem filterMap_told_congr {found found' : List Found}
    (h : List.Forall₂ (fun f g => f.call.told = g.call.told) found found') :
    found.filterMap (·.call.told) = found'.filterMap (·.call.told) := by
  induction h with
  | nil => rfl
  | cons hcall _ ih => rw [List.filterMap_cons, List.filterMap_cons, hcall, ih]

/-- **A pass tells the same of both spellings of a text.** -/
theorem told_revise {name : List Char} (hname : Ordinary name) {m : List Cell} (hsound : Sound [] m)
    (first second : Encoding) :
    (revise (Pipe.escapeArgs first) name (Cell.spell first.token m)).fixes.map Fix.told =
      (revise (Pipe.escapeArgs second) name (Cell.spell second.token m)).fixes.map Fix.told := by
  have hpairs := counterparts_pieces (hname.inert_token first) (hname.inert_token second) [] m
  show (fixesOf _ (locate 0 _)).map Fix.told = (fixesOf _ (locate 0 _)).map Fix.told
  rw [map_told_fixesOf, map_told_fixesOf]
  exact filterMap_told_congr (hpairs.imp fun f g hpair => hpair.told hsound)

/-- So do passes over the calls of several names. -/
theorem told_reviseAll {names : List (List Char)}
    (hnames : ∀ name ∈ names, Ordinary name ∧ '}' ∉ name) {m : List Cell} (hsound : Sound [] m)
    (first second : Encoding) :
    (reviseAll (Pipe.escapeArgs first) names (Cell.spell first.token m)).fixes.map Fix.told =
      (reviseAll (Pipe.escapeArgs second) names (Cell.spell second.token m)).fixes.map Fix.told := by
  induction names generalizing m with
  | nil => rfl
  | cons name names ih =>
    obtain ⟨hname, hclosing⟩ := hnames name (List.mem_cons_self ..)
    have hpass := revise_spell hname hclosing (outside_nil _ _) hsound
    have hheld : Sound [] (Cell.hold (picks [name] [] m) m) := by
      rw [picks_nil]
      exact hsound.hold fun _ => even_of_unguardedAt
    simp only [reviseAll, List.map_append]
    rw [told_revise hname hsound first second, (hpass first).1, (hpass second).1,
      ih (fun n hn => hnames n (List.mem_cons_of_mem _ hn)) hheld]

theorem calls_escapeCalls (first second : Encoding) (text : List Char) :
    (escapeCalls first text).calls = (escapeCalls second text).calls := by
  have htold := told_reviseAll writeNames_plain (sound_map_char [] text) first second
  rw [Cell.spell_map_char, Cell.spell_map_char] at htold
  have hlength := congrArg List.length htold
  rwa [List.length_map, List.length_map] at hlength

/-! ### Accounts -/

/-- An outcome says that it changed the text if it did, and if it handled a pipe. -/
structure Accounted (outcome : Outcome) (text : List Char) : Prop where
  changed : outcome.changed = true ↔ outcome.text ≠ text
  differs : outcome.text ≠ text ↔ 0 < outcome.pipes

theorem accounted {outcome : Outcome} {text : List Char}
    (hchanged : outcome.changed = true ↔ 0 < outcome.pipes)
    (hsame : outcome.pipes = 0 → outcome.text = text)
    (hsize : 0 < outcome.pipes → byteSize outcome.text ≠ byteSize text) : Accounted outcome text := by
  have hdiffers : outcome.text ≠ text ↔ 0 < outcome.pipes := by
    refine ⟨fun hne => Nat.pos_of_ne_zero fun hzero => hne (hsame hzero), fun hpos heq => ?_⟩
    exact hsize hpos (congrArg byteSize heq)
  exact ⟨hchanged.trans hdiffers.symm, hdiffers⟩

theorem fixes_eq_nil_iff {edit : Edit}
    (hedit : ∀ args edited, edit args = some edited → 0 < edited.pipes) {names : List (List Char)}
    {text : List Char} :
    (reviseAll edit names text).fixes = [] ↔ (reviseAll edit names text).pipes = 0 := by
  constructor
  · intro hfixes
    rw [Revision.pipes, hfixes]
    rfl
  · intro hpipes
    have hcalls := calls_le_pipes hedit names text
    rw [hpipes] at hcalls
    exact List.eq_nil_of_length_eq_zero (Nat.le_zero.1 hcalls)

/-- An outcome that tells of passes. -/
theorem accounted_reviseAll {edit : Edit}
    (hedit : ∀ args edited, edit args = some edited → 0 < edited.pipes) {names : List (List Char)}
    {text : List Char} {outcome : Outcome} (htext : outcome.text = (reviseAll edit names text).text)
    (hpipes : outcome.pipes = (reviseAll edit names text).pipes)
    (hchanged : outcome.changed = !(reviseAll edit names text).fixes.isEmpty)
    (hsize : 0 < outcome.pipes → byteSize outcome.text ≠ byteSize text) : Accounted outcome text := by
  refine accounted ?_ (fun hzero => ?_) hsize
  · rw [hchanged, hpipes, Bool.not_eq_true', List.isEmpty_eq_false_iff, Nat.pos_iff_ne_zero,
      not_iff_not]
    exact fixes_eq_nil_iff hedit
  · rw [htext]
    exact reviseAll_text_of_fixes_eq_nil ((fixes_eq_nil_iff hedit).2 (hpipes.symm.trans hzero))

/-- The account of an escape. -/
structure EscapeAccount (encoding : Encoding) (text : List Char) (outcome : Outcome) : Prop
    extends Accounted outcome text where
  called : 0 < outcome.pipes ↔ 0 < outcome.calls
  calls_le : outcome.calls ≤ outcome.pipes
  /-- A token stands for each pipe replaced. -/
  places : outcome.text = Pipe.putAt encoding.token (replacedAt writeNames text) text
  /-- Each of them counts once. -/
  pipes : outcome.pipes = (List.range text.length).countP (replacedAt writeNames text)
  size : byteSize outcome.text = byteSize text + encoding.growth * outcome.pipes

/-- The account of a restore. -/
structure RestoreAccount (encoding : Encoding) (text : List Char) (outcome : Outcome) : Prop
    extends Accounted outcome text where
  size : byteSize outcome.text + encoding.growth * outcome.pipes = byteSize text

theorem byteSize_escapeCalls (encoding : Encoding) (text : List Char) :
    byteSize (escapeCalls encoding text).text =
      byteSize text + encoding.growth * (escapeCalls encoding text).pipes := by
  obtain ⟨hspell, hheld⟩ := reviseAll_guarded writeNames_plain encoding text
  obtain ⟨hputs, hcounts⟩ := guarded_replacedAt encoding.token writeNames text
  have hsize := @byteSize_putAt '|' encoding.token (replacedAt writeNames text) text
    fun i hi => (of_decide_eq_true hi).1
  have hpipe : '|'.utf8Size = 1 := rfl
  rw [← hputs, ← hspell, ← hcounts, ← hheld, byteSize_token, hpipe, Nat.add_mul, ← Nat.add_assoc]
    at hsize
  exact Nat.add_right_cancel hsize

theorem escapeAccount {settings : Settings} (h : settings.enabled = true) (encoding : Encoding)
    (text : List Char) : EscapeAccount encoding text (escape encoding settings text) := by
  have hedit := pipes_pos_of_escapeArgs encoding
  obtain ⟨hspell, hheld⟩ := reviseAll_guarded writeNames_plain encoding text
  obtain ⟨hputs, hcounts⟩ := guarded_replacedAt encoding.token writeNames text
  have hle := calls_le_pipes hedit writeNames text
  have hsize := byteSize_escapeCalls encoding text
  have hgrowth : 0 < encoding.growth := by cases encoding <;> decide
  rw [escape, if_pos h]
  refine ⟨accounted_reviseAll hedit rfl rfl rfl fun hpos => ?_, ?_, hle, hspell.trans hputs,
    hheld.trans hcounts, hsize⟩
  · have hgrows := Nat.mul_pos hgrowth hpos
    exact Nat.ne_of_gt (Nat.lt_of_lt_of_eq (Nat.lt_add_of_pos_right hgrows) hsize.symm)
  · refine ⟨fun hpos => Nat.pos_of_ne_zero fun hzero => ?_, fun hpos => Nat.lt_of_lt_of_le hpos hle⟩
    have hnone := (fixes_eq_nil_iff hedit).1 (List.eq_nil_of_length_eq_zero hzero)
    exact absurd hnone (Nat.pos_iff_ne_zero.1 hpos)

theorem restoreAccount_marker (text : List Char) :
    RestoreAccount .marker text (restoreMarkers text) := by
  obtain ⟨htext, hpipes⟩ := restoreMarkers_eq text
  have hsize := byteSize_unmark text
  rw [← htext, ← hpipes] at hsize
  refine ⟨accounted ?_ (fun hzero => ?_) fun hpos => by omega, hsize⟩
  · rw [restoreMarkers]
    split <;> simp [Outcome.untouched]
  · rw [htext]
    exact unmark_of_markers_eq_zero (hpipes.symm.trans hzero)

theorem restoreAccount_backslash (text : List Char) :
    RestoreAccount .backslash text (restoreCalls text) := by
  obtain ⟨htext, hpipes⟩ := restoreCalls_eq text
  obtain ⟨hstrike, hcount⟩ := reviseAll_strike readNames_plain text
  have hchanged : (restoreCalls text).changed = !(unescapeCalls text).fixes.isEmpty := by
    rw [restoreCalls]
    cases (unescapeCalls text).fixes.isEmpty <;> rfl
  have hsize : byteSize (restoreCalls text).text + 1 * (restoreCalls text).pipes = byteSize text := by
    have hplaces := @byteSize_putAt '\\' [] (looseAt readNames text) text
      fun i hi => (backslash_of_looseAt hi).1
    rw [← strike_eq_putAt, ← hstrike, ← hcount, byteSize, Nat.zero_mul] at hplaces
    rw [htext, hpipes]
    exact hplaces
  exact ⟨accounted_reviseAll pipes_pos_of_unescapeArgs htext hpipes hchanged fun hpos => by omega,
    hsize⟩

/-- **Counts and bytes add up.** An outcome says that it changed the text exactly if it did, and if a
pipe was handled. An escape handles each place once, however many calls that write it lies in, and in
both encodings the same calls; the bytes a token adds are added for each pipe, and a restore takes
them off again. -/
theorem counts_accounted {settings : Settings} (h : settings.enabled = true) (text : List Char) :
    (∀ encoding, EscapeAccount encoding text (escape encoding settings text)) ∧
      (∀ first second,
        (escape first settings text).calls = (escape second settings text).calls ∧
          (escape first settings text).pipes = (escape second settings text).pipes) ∧
      ∀ encoding, RestoreAccount encoding text (restore encoding settings text) := by
  refine ⟨fun encoding => escapeAccount h encoding text, fun first second => ⟨?_, ?_⟩, ?_⟩
  · simp only [escape, if_pos h]
    exact calls_escapeCalls first second text
  · rw [(escapeAccount h first text).pipes, (escapeAccount h second text).pipes]
  · intro encoding
    cases encoding with
    | marker =>
      rw [restore_marker_eq h]
      exact restoreAccount_marker text
    | backslash =>
      rw [restore_backslash_eq h]
      exact restoreAccount_backslash text

/-- In nested calls a pipe lies in two calls that write, of different names. It counts once. -/
theorem counts_accounted_nested :
    (Settings.mk true false).enabled = true ∧
      (List.range (nestedCalls ['|']).length).countP (replacedAt writeNames (nestedCalls ['|'])) = 2 ∧
      (escape .marker ⟨true, false⟩ (nestedCalls ['|'])).pipes = 2 ∧
      (escape .marker ⟨true, false⟩ (nestedCalls ['|'])).calls =
        (escape .backslash ⟨true, false⟩ (nestedCalls ['|'])).calls := by
  obtain ⟨hescape, hsame, -⟩ := @counts_accounted ⟨true, false⟩ rfl (nestedCalls ['|'])
  have hcount : (List.range (nestedCalls ['|']).length).countP
      (replacedAt writeNames (nestedCalls ['|'])) = 2 := by decide +kernel
  exact ⟨rfl, hcount, (hescape .marker).pipes.trans hcount, (hsame .marker .backslash).1⟩

end PipeGuard
