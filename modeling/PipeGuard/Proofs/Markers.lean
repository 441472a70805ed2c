import PipeGuard.Proofs.Escaping
import PipeGuard.Restore

/-! Markers put in and taken out again.

A marker begins with a character that stands nowhere else in it, so no two
markers overlap, and none of it is a pipe, so taking markers out leaves no new
one behind.

`restore_escape`: restoring an escaped text gives what restoring the text itself
gives, and so the text if it holds no marker; what was restored holds none. -/
namespace PipeGuard

/-! ### One marker at a time -/

theorem unmarkFrom_eq (skip : Nat) (text : List Char) :
    unmarkFrom skip text = unmarkFrom 0 (text.drop skip) := by
  induction text generalizing skip with
  | nil => cases skip <;> rfl
  | cons c rest ih =>
    cases skip with
    | zero => rfl
    | succ skip => exact ih skip

theorem markersFrom_eq (skip : Nat) (text : List Char) :
    markersFrom skip text = markersFrom 0 (text.drop skip) := by
  induction text generalizing skip with
  | nil => cases skip <;> rfl
  | cons c rest ih =>
    cases skip with
    | zero => rfl
    | succ skip => exact ih skip

theorem isPrefixOf_marker (rest : List Char) :
    pipeMarker.isPrefixOf (pipeMarker ++ rest) = true := by
  apply List.isPrefixOf_iff_prefix.2
  exact List.prefix_append _ _

theorem unmark_marker (rest : List Char) :
    unmarkFrom 0 (pipeMarker ++ rest) = '|' :: unmarkFrom 0 rest := by
  have hmarker := isPrefixOf_marker rest
  have hcons : pipeMarker ++ rest = '\uE000' :: (pipeMarker.tail ++ rest) := rfl
  rw [hcons] at hmarker ⊢
  rw [unmarkFrom, if_pos hmarker, unmarkFrom_eq]
  rfl

theorem markers_marker (rest : List Char) :
    markersFrom 0 (pipeMarker ++ rest) = markersFrom 0 rest + 1 := by
  have hmarker := isPrefixOf_marker rest
  have hcons : pipeMarker ++ rest = '\uE000' :: (pipeMarker.tail ++ rest) := rfl
  rw [hcons] at hmarker ⊢
  rw [markersFrom, if_pos hmarker, markersFrom_eq]
  rfl

theorem unmark_other {c : Char} {rest : List Char} (h : ¬ pipeMarker <+: c :: rest) :
    unmarkFrom 0 (c :: rest) = c :: unmarkFrom 0 rest := by
  rw [unmarkFrom, if_neg (mt List.isPrefixOf_iff_prefix.1 h)]

theorem markers_other {c : Char} {rest : List Char} (h : ¬ pipeMarker <+: c :: rest) :
    markersFrom 0 (c :: rest) = markersFrom 0 rest := by
  rw [markersFrom, if_neg (mt List.isPrefixOf_iff_prefix.1 h)]

/-- A text is read as markers and single characters. -/
inductive Marked : List Char → Prop where
  | nil : Marked []
  | marker {rest} : Marked rest → Marked (pipeMarker ++ rest)
  | other {c rest} : ¬ pipeMarker <+: c :: rest → Marked rest → Marked (c :: rest)

theorem marked (text : List Char) : Marked text := by
  match text with
  | [] => exact .nil
  | c :: rest =>
    by_cases hmarker : pipeMarker <+: c :: rest
    · obtain ⟨after, hafter⟩ := hmarker
      have hlen : after.length ≤ rest.length := by
        have hlength := congrArg List.length hafter
        simp only [pipeMarker, List.length_append, List.length_cons] at hlength
        omega
      rw [← hafter]
      exact .marker (marked after)
    · exact .other hmarker (marked rest)
termination_by text.length

/-! ### Markers taken out -/

/-- What holds no pipe and begins an unmarked text began the text. -/
theorem prefix_of_prefix_unmark {word text : List Char} (hword : '|' ∉ word)
    (h : word <+: unmarkFrom 0 text) : word <+: text := by
  induction marked text generalizing word with
  | nil => exact h
  | marker _ _ =>
    rw [unmark_marker] at h
    cases word with
    | nil => exact List.nil_prefix
    | cons d word =>
      obtain ⟨rfl, -⟩ := List.cons_prefix_cons.1 h
      exact absurd (List.mem_cons_self ..) hword
  | other hnot _ ih =>
    rw [unmark_other hnot] at h
    cases word with
    | nil => exact List.nil_prefix
    | cons d word =>
      obtain ⟨rfl, hrest⟩ := List.cons_prefix_cons.1 h
      exact List.cons_prefix_cons.2 ⟨rfl, ih (fun hd => hword (List.mem_cons_of_mem _ hd)) hrest⟩

/-- Taking markers out leaves none and makes none. -/
theorem not_marker_unmark (text : List Char) : ¬ pipeMarker <:+: unmarkFrom 0 text := by
  induction marked text with
  | nil => decide
  | marker _ ih =>
    rw [unmark_marker, List.infix_cons_iff]
    intro hfound
    rcases hfound with hmarker | hlater
    · exact absurd (List.cons_prefix_cons.1 hmarker).1 (by decide)
    · exact ih hlater
  | @other c rest hnot _ ih =>
    rw [unmark_other hnot, List.infix_cons_iff]
    intro hfound
    rcases hfound with hmarker | hlater
    · rw [← unmark_other hnot] at hmarker
      exact hnot (prefix_of_prefix_unmark (by decide) hmarker)
    · exact ih hlater

/-- A text without a marker stays as it is. -/
theorem unmark_of_not_marker {text : List Char} (h : ¬ pipeMarker <:+: text) :
    unmarkFrom 0 text = text ∧ markersFrom 0 text = 0 := by
  induction marked text with
  | nil => exact ⟨rfl, rfl⟩
  | @marker rest _ _ => exact absurd ⟨[], rest, rfl⟩ h
  | other hnot _ ih =>
    obtain ⟨hunmark, hmarkers⟩ := ih fun hlater => h (List.infix_cons hlater)
    exact ⟨by rw [unmark_other hnot, hunmark], by rw [markers_other hnot, hmarkers]⟩

theorem unmark_of_markers_eq_zero {text : List Char} (h : markersFrom 0 text = 0) :
    unmarkFrom 0 text = text := by
  induction marked text with
  | nil => rfl
  | marker _ _ =>
    rw [markers_marker] at h
    exact absurd h (Nat.succ_ne_zero _)
  | other hnot _ ih =>
    rw [markers_other hnot] at h
    rw [unmark_other hnot, ih h]

theorem restoreMarkers_eq (text : List Char) :
    (restoreMarkers text).text = unmarkFrom 0 text ∧
      (restoreMarkers text).pipes = markersFrom 0 text := by
  simp only [restoreMarkers]
  split
  · rename_i hnone
    exact ⟨(unmark_of_markers_eq_zero hnone).symm, hnone.symm⟩
  · rename_i pipes hsome
    exact ⟨rfl, hsome.symm⟩

/-! ### Markers put in -/

/-- A marker in a spelled text is made of characters, not of held pipes. -/
theorem marker_prefix_spell (word : List Char) (hne : word ≠ [])
    (hword : ∀ c ∈ pipeMarker.tail, word.head? ≠ some c) {c : Char} {m : List Cell}
    (h : pipeMarker <+: Cell.spell word (.char c :: m)) :
    ∃ m', .char c :: m = pipeMarker.map .char ++ m' := by
  obtain ⟨rest, hrest⟩ := h
  obtain ⟨rfl, htail⟩ := List.cons.inj hrest
  obtain ⟨m', rfl, -⟩ := Cell.spell_eq_append hne hword htail.symm
  exact ⟨m', rfl⟩

/-- Places are read as held pipes, markers and single characters. A single character begins no
marker, whatever word that has no part in one is written for the held pipes. -/
inductive MarkedCells : List Cell → Prop where
  | nil : MarkedCells []
  | held {m} : MarkedCells m → MarkedCells (.held :: m)
  | marker {m} : MarkedCells m → MarkedCells (pipeMarker.map .char ++ m)
  | other {c m} :
    (∀ word, word ≠ [] → (∀ d ∈ pipeMarker.tail, word.head? ≠ some d) →
      ¬ pipeMarker <+: c :: Cell.spell word m) →
    MarkedCells m → MarkedCells (.char c :: m)

theorem markedCells (m : List Cell) : MarkedCells m := by
  match m with
  | [] => exact .nil
  | .held :: m => exact .held (markedCells m)
  | .char c :: m =>
    by_cases hcells : ∃ m', .char c :: m = pipeMarker.map .char ++ m'
    · obtain ⟨m', hm⟩ := hcells
      have hlen : m'.length ≤ m.length := by
        have hlength := congrArg List.length hm
        simp only [pipeMarker, List.length_append, List.length_map, List.length_cons] at hlength
        omega
      rw [hm]
      exact .marker (markedCells m')
    · exact .other (fun word hne hword h => hcells (marker_prefix_spell word hne hword h))
        (markedCells m)
termination_by m.length

/-- **Held pipes written as markers are restored as pipes**, and nothing else
comes out differently. -/
theorem unmark_spell (m : List Cell) :
    unmarkFrom 0 (Cell.spell pipeMarker m) = unmarkFrom 0 (Cell.plain m) ∧
      markersFrom 0 (Cell.spell pipeMarker m) = markersFrom 0 (Cell.plain m) + m.count .held := by
  induction markedCells m with
  | nil => exact ⟨rfl, rfl⟩
  | @held m _ ih =>
    have hpipe : ¬ pipeMarker <+: '|' :: Cell.plain m := fun h =>
      absurd (List.cons_prefix_cons.1 h).1 (by decide)
    have hplain : Cell.plain (.held :: m) = '|' :: Cell.plain m := rfl
    rw [Cell.spell, unmark_marker, markers_marker, hplain, unmark_other hpipe, markers_other hpipe,
      ih.1, ih.2, List.count_cons_self]
    exact ⟨rfl, by omega⟩
  | @marker m _ ih =>
    have hnone : (pipeMarker.map Cell.char).count .held = 0 := by decide
    rw [Cell.plain_append, Cell.spell_append, Cell.plain, Cell.spell_map_char,
      Cell.spell_map_char, unmark_marker, unmark_marker, markers_marker, markers_marker, ih.1,
      ih.2, List.count_append, hnone]
    exact ⟨rfl, by omega⟩
  | @other c m hother _ ih =>
    have hmark : ¬ pipeMarker <+: c :: Cell.spell pipeMarker m :=
      hother pipeMarker (by simp [pipeMarker]) (by simp [pipeMarker])
    have hpipe : ¬ pipeMarker <+: c :: Cell.plain m := hother ['|'] (by simp) (by simp [pipeMarker])
    have hplain : Cell.plain (.char c :: m) = c :: Cell.plain m := rfl
    rw [Cell.spell, hplain, unmark_other hmark, unmark_other hpipe, markers_other hmark,
      markers_other hpipe, ih.1, ih.2, List.count_cons_of_ne (by simp)]
    exact ⟨rfl, rfl⟩

/-- A backslash before a pipe neither makes nor breaks a marker. -/
theorem markers_spell_backslash (m : List Cell) :
    markersFrom 0 (Cell.spell Encoding.backslash.token m) = markersFrom 0 (Cell.plain m) := by
  have hfirst : ∀ {c : Char} {rest : List Char}, c ≠ '\uE000' → ¬ pipeMarker <+: c :: rest :=
    fun hc h => hc (List.cons_prefix_cons.1 h).1.symm
  induction markedCells m with
  | nil => rfl
  | @held m _ ih =>
    show markersFrom 0 ('\\' :: '|' :: Cell.spell Encoding.backslash.token m) =
      markersFrom 0 ('|' :: Cell.plain m)
    rw [markers_other (hfirst (by decide)), markers_other (hfirst (by decide)),
      markers_other (hfirst (by decide)), ih]
  | marker _ ih =>
    rw [Cell.plain_append, Cell.spell_append, Cell.plain, Cell.spell_map_char,
      Cell.spell_map_char, markers_marker, markers_marker, ih]
  | @other c m hother _ ih =>
    have htoken : ¬ pipeMarker <+: c :: Cell.spell Encoding.backslash.token m :=
      hother _ (by simp [Encoding.token]) (by simp [pipeMarker, Encoding.token])
    have hpipe : ¬ pipeMarker <+: c :: Cell.plain m := hother ['|'] (by simp) (by simp [pipeMarker])
    show markersFrom 0 (c :: Cell.spell _ m) = markersFrom 0 (c :: Cell.plain m)
    rw [markers_other htoken, markers_other hpipe, ih]

/-- Escaping with backslashes leaves the markers of a text alone. -/
theorem markers_escape (settings : Settings) (text : List Char) :
    markersFrom 0 (escape .backslash settings text).text = markersFrom 0 text := by
  by_cases h : settings.enabled = true
  · rw [escape_text_guarded h, markers_spell_backslash, plain_guarded]
  · rw [escape, if_neg h]
    rfl

/-! ### The round trip -/

theorem restore_marker_eq {settings : Settings} (h : settings.enabled = true) (text : List Char) :
    restore .marker settings text = restoreMarkers text := by
  rw [restore, if_pos h]

/-- **Restoring undoes escaping, by markers.** A text with markers of its own
comes out as if it had been restored only, one without comes out as it was, with
as many pipes restored as escaped; and a second restore has nothing to do. -/
theorem restore_escape {settings : Settings} (h : settings.enabled = true) (text : List Char) :
    (restore .marker settings (escape .marker settings text).text).text =
        (restore .marker settings text).text ∧
      (¬ pipeMarker <:+: text →
        (restore .marker settings (escape .marker settings text).text).text = text ∧
          (restore .marker settings (escape .marker settings text).text).pipes =
            (escape .marker settings text).pipes) ∧
      ¬ pipeMarker <:+: (restore .marker settings text).text ∧
      restore .marker settings (restore .marker settings text).text =
        .untouched (restore .marker settings text).text := by
  obtain ⟨htext, hpipes⟩ := reviseAll_guarded writeNames_plain .marker text
  obtain ⟨hescape, hcount⟩ := escape_text_eq h .marker text
  rw [escapeCalls, htext] at hescape
  rw [escapeCalls, hpipes] at hcount
  obtain ⟨hunmark, hmarkers⟩ := unmark_spell (guarded writeNames text)
  rw [plain_guarded] at hunmark hmarkers
  simp only [restore_marker_eq h, restoreMarkers_eq, hescape, hcount, Encoding.token]
  refine ⟨hunmark, fun hnot => ?_, not_marker_unmark text, ?_⟩
  · obtain ⟨hsame, hnone⟩ := unmark_of_not_marker hnot
    exact ⟨hunmark.trans hsame, by rw [hmarkers, hnone, Nat.zero_add]⟩
  · rw [restoreMarkers, (unmark_of_not_marker (not_marker_unmark text)).2]

/-- A pipe within the characters of a marker is escaped and restored. -/
theorem restore_escape_half :
    (Settings.mk true false).enabled = true ∧
      ¬ pipeMarker <:+: (Call.mk "setvar".toList "\uE000FSM:|PIPE\uE001".toList).whole ∧
      (restore .marker ⟨true, false⟩ (escape .marker ⟨true, false⟩
          (Call.mk "setvar".toList "\uE000FSM:|PIPE\uE001".toList).whole).text).text =
        (Call.mk "setvar".toList "\uE000FSM:|PIPE\uE001".toList).whole := by
  have hnot : ¬ pipeMarker <:+: (Call.mk "setvar".toList "\uE000FSM:|PIPE\uE001".toList).whole := by
    decide +kernel
  exact ⟨rfl, hnot, ((restore_escape rfl _).2.1 hnot).1⟩

end PipeGuard
