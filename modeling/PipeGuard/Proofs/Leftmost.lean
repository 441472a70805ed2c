import PipeGuard.Matcher
import PipeGuard.Proofs.Pattern

/-! Which calls of a name a search finds.

A search goes from left to right. From the end of the last call it takes the
least place where an opening of the name is followed by a closing; the arguments
run up to the first closing, and the search goes on right behind it (`Search`).

`findCalls_leftmost`: the calls found are those of this search and of no other,
they stand in the text one after the other, and every opening that a closing
follows lies in one of them. A matcher for an ASCII name finds the calls of the
name that it is called by (`Matcher.findCalls_name`). -/
namespace PipeGuard

/-! ### Pieces, one at a time -/

theorem piecesFrom_eq (name : List Char) (skip : Nat) (text : List Char) :
    piecesFrom name skip text = pieces name (text.drop skip) := by
  induction text generalizing skip with
  | nil => cases skip <;> rfl
  | cons c rest ih =>
    cases skip with
    | zero => rfl
    | succ skip => exact ih skip

theorem pieces_plain {name : List Char} {c : Char} {rest : List Char}
    (h : call? name (c :: rest) = none) :
    pieces name (c :: rest) = .plain c :: pieces name rest := by
  rw [pieces, piecesFrom, h]
  rfl

theorem pieces_call {name : List Char} {k : Call} {rest : List Char}
    (h : call? name (k.whole ++ rest) = some k) :
    pieces name (k.whole ++ rest) = .call k :: pieces name rest := by
  obtain ⟨c, tail, hwhole⟩ := List.exists_cons_of_length_pos k.whole_length_pos
  rw [hwhole, List.cons_append] at h ⊢
  rw [pieces, piecesFrom, h]
  show Piece.call k :: piecesFrom name (k.whole.length - 1) (tail ++ rest) = _
  rw [piecesFrom_eq, hwhole, List.length_cons, Nat.add_sub_cancel, List.drop_left]

/-- How a text is cut: a call where the pattern accepts one, else one character. -/
inductive Cut (name : List Char) : List Char → List Piece → Prop where
  | nil : Cut name [] []
  | plain {c rest ps} : ¬ Begins name (c :: rest) → Cut name rest ps →
      Cut name (c :: rest) (.plain c :: ps)
  | call {k rest ps} : Accepted name k → Cut name rest ps →
      Cut name (k.whole ++ rest) (.call k :: ps)

theorem cut_pieces (name text : List Char) : Cut name text (pieces name text) := by
  match text with
  | [] => exact .nil
  | c :: rest =>
    cases hk : call? name (c :: rest) with
    | none =>
      rw [pieces_plain hk]
      exact .plain (call?_eq_none_iff.1 hk) (cut_pieces name rest)
    | some k =>
      obtain ⟨haccepted, after, hafter⟩ := call?_eq_some_iff.1 hk
      have hlen : after.length ≤ rest.length := by
        have hpos := k.whole_length_pos
        have hlength := congrArg List.length hafter
        rw [List.length_append, List.length_cons] at hlength
        omega
      rw [← hafter] at hk ⊢
      rw [pieces_call hk]
      exact .call haccepted (cut_pieces name after)
termination_by text.length

/-! ### Bytes -/

theorem byteSize_append (a b : List Char) : byteSize (a ++ b) = byteSize a + byteSize b := by
  induction a with
  | nil => simp [byteSize]
  | cons c a ih => simp [byteSize, ih, Nat.add_assoc]

theorem byteSize_pos {text : List Char} (h : text ≠ []) : 0 < byteSize text := by
  cases text with
  | nil => exact absurd rfl h
  | cons c rest =>
    have := c.utf8Size_pos
    simp only [byteSize]
    omega

theorem Found.stop_eq (f : Found) : f.stop = f.start + byteSize f.call.whole := by
  simp only [Found.stop, Found.argsEnd, Found.argsStart, Call.whole, byteSize_append]
  omega

theorem Found.start_lt_stop (f : Found) : f.start < f.stop := by
  have := byteSize_pos (List.ne_nil_of_length_pos f.call.whole_length_pos)
  rw [f.stop_eq]
  omega

theorem start_le_of_mem_locate {start : Nat} {ps : List Piece} {f : Found}
    (h : f ∈ locate start ps) : start ≤ f.start := by
  induction ps generalizing start with
  | nil => simp [locate] at h
  | cons p ps ih =>
    cases p with
    | plain c =>
      have := ih h
      omega
    | call k =>
      rcases List.mem_cons.1 h with rfl | h
      · exact Nat.le_refl _
      · have := ih h
        omega

/-- A call ends before the next one starts. -/
theorem locate_pairwise (start : Nat) (ps : List Piece) :
    (locate start ps).Pairwise fun f g => f.stop ≤ g.start := by
  induction ps generalizing start with
  | nil => exact .nil
  | cons p ps ih =>
    cases p with
    | plain c => exact ih _
    | call k =>
      refine .cons (fun g hg => ?_) (ih _)
      rw [Found.stop_eq]
      exact start_le_of_mem_locate hg

/-! ### The search -/

/-- The leftmost search for the calls of `name` in a text that starts at byte
`start`. -/
inductive Search (name : List Char) : Nat → List Char → List Found → Prop where
  | none {start text} : (∀ gap tail, text = gap ++ tail → ¬ Begins name tail) →
      Search name start text []
  | call {start text gap k rest found} :
      text = gap ++ (k.opening ++ k.args ++ Call.closing ++ rest) →
      Spelling name k.name →
      -- no opening before this one is followed by a closing
      (∀ gap' tail, text = gap' ++ tail → Begins name tail → gap.length ≤ gap'.length) →
      -- no closing before this one ends the arguments
      (∀ lead tail, k.args ++ Call.closing ++ rest = lead ++ Call.closing ++ tail →
        k.args.length ≤ lead.length) →
      Search name (start + byteSize gap + byteSize k.whole) rest found →
      Search name start text (⟨start + byteSize gap, k⟩ :: found)

theorem body_of_first {args rest : List Char}
    (h : ∀ lead tail, args ++ Call.closing ++ rest = lead ++ Call.closing ++ tail →
      args.length ≤ lead.length) : Body args := by
  apply body_of_not_closing
  intro hinner
  obtain ⟨lead, tail, heq⟩ := hinner
  have hle := h lead (tail ++ '}' :: rest) (by
    rw [← List.append_assoc, heq]
    simp [Call.closing])
  have hlen := congrArg List.length heq
  simp only [List.length_append, Call.closing, List.length_cons, List.length_nil] at hlen
  omega

theorem not_begins_nil (name : List Char) : ¬ Begins name [] := by
  intro hbegins
  obtain ⟨_, _, _, h, _⟩ := hbegins
  simp [opening] at h

theorem Search.skip {name rest : List Char} {c : Char} {start : Nat} {found : List Found}
    (hnot : ¬ Begins name (c :: rest)) (h : Search name (start + c.utf8Size) rest found) :
    Search name start (c :: rest) found := by
  cases h with
  | none hnone =>
    refine .none fun gap tail heq => ?_
    cases gap with
    | nil => exact (List.nil_append tail ▸ heq) ▸ hnot
    | cons d gap => exact hnone gap tail (List.cons.inj heq).2
  | @call _ _ gap k after found heq hspell hleast hfirst hrest =>
    have hstart : start + c.utf8Size + byteSize gap = start + byteSize (c :: gap) := by
      simp only [byteSize]
      omega
    rw [hstart] at hrest ⊢
    refine .call (by rw [heq]; rfl) hspell (fun gap' tail htail hbegins => ?_) hfirst hrest
    cases gap' with
    | nil => exact absurd ((List.nil_append tail ▸ htail) ▸ hbegins) hnot
    | cons d gap' =>
      have := hleast gap' tail (List.cons.inj htail).2 hbegins
      simp only [List.length_cons]
      omega

theorem search_of_cut {name text : List Char} {ps : List Piece} (h : Cut name text ps)
    (start : Nat) : Search name start text (locate start ps) := by
  induction h generalizing start with
  | nil =>
    refine .none fun gap tail heq => ?_
    obtain ⟨_, rfl⟩ := List.append_eq_nil_iff.1 heq.symm
    exact not_begins_nil name
  | plain hnot _ ih => exact .skip hnot (ih _)
  | @call k rest ps haccepted _ ih =>
    have htext : k.whole ++ rest = [] ++ (k.opening ++ k.args ++ Call.closing ++ rest) := by
      rw [List.nil_append, Call.whole]
    exact .call htext haccepted.spelling (fun _ _ _ _ => Nat.zero_le _)
      (fun _ _ heq => haccepted.body.length_le heq) (ih _)

/-- A search finds one thing only. -/
theorem Search.unique {name text : List Char} {start : Nat} {found other : List Found}
    (h : Search name start text found) (h' : Search name start text other) : found = other := by
  induction h generalizing other with
  | none hnone =>
    cases h' with
    | none => rfl
    | @call _ _ gap k rest _ heq hspell _ hfirst _ =>
      exact absurd (begins_iff.2 ⟨k, ⟨hspell, body_of_first hfirst⟩, rest, by simp [Call.whole]⟩)
        (hnone _ _ heq)
  | @call start text gap k rest found heq hspell hleast hfirst _ ih =>
    have hcall := call?_eq_some_iff.2 ⟨⟨hspell, body_of_first hfirst⟩, rest, rfl⟩
    cases h' with
    | none hnone =>
      exact absurd (begins_iff.2 ⟨k, ⟨hspell, body_of_first hfirst⟩, rest, by simp [Call.whole]⟩)
        (hnone _ _ heq)
    | @call _ _ gap' k' rest' found' heq' hspell' hleast' hfirst' hrest' =>
      have hcall' := call?_eq_some_iff.2 ⟨⟨hspell', body_of_first hfirst'⟩, rest', rfl⟩
      simp only [← Call.whole.eq_def] at heq heq'
      have hgap : gap.length = gap'.length :=
        Nat.le_antisymm
          (hleast _ _ heq' (begins_iff.2 ⟨k', (call?_eq_some_iff.1 hcall').1, rest', rfl⟩))
          (hleast' _ _ heq (begins_iff.2 ⟨k, (call?_eq_some_iff.1 hcall).1, rest, rfl⟩))
      obtain ⟨rfl, htail⟩ := List.append_inj (heq.symm.trans heq') hgap
      rw [htail, hcall', Option.some.injEq] at hcall
      subst hcall
      obtain rfl := List.append_cancel_left htail
      rw [ih hrest']

/-! ### What the search finds -/

theorem Cut.mem {name text : List Char} {ps : List Piece} (h : Cut name text ps) {start : Nat}
    {f : Found} (hf : f ∈ locate start ps) :
    Accepted name f.call ∧ ∃ before after, text = before ++ f.call.whole ++ after ∧
      f.start = start + byteSize before := by
  induction h generalizing start with
  | nil => simp [locate] at hf
  | @plain c rest ps _ _ ih =>
    obtain ⟨haccepted, before, after, rfl, hstart⟩ := ih hf
    refine ⟨haccepted, c :: before, after, rfl, ?_⟩
    simp only [byteSize]
    omega
  | @call k rest ps haccepted _ ih =>
    rcases List.mem_cons.1 hf with rfl | hf
    · exact ⟨haccepted, [], rest, rfl, rfl⟩
    · obtain ⟨haccepted', before, after, rfl, hstart⟩ := ih hf
      refine ⟨haccepted', k.whole ++ before, after, by simp, ?_⟩
      rw [byteSize_append]
      omega

/-- No opening that a closing follows is passed over. -/
theorem Cut.covers {name text : List Char} {ps : List Piece} (h : Cut name text ps) (start : Nat)
    {before tail : List Char} (htext : text = before ++ tail) (hbegins : Begins name tail) :
    ∃ f ∈ locate start ps,
      f.start ≤ start + byteSize before ∧ start + byteSize before < f.stop := by
  induction h generalizing start before with
  | nil =>
    obtain ⟨_, rfl⟩ := List.append_eq_nil_iff.1 htext.symm
    exact absurd hbegins (not_begins_nil name)
  | @plain c rest ps hnot _ ih =>
    cases before with
    | nil => exact absurd ((List.nil_append tail ▸ htext) ▸ hbegins) hnot
    | cons d before =>
      obtain ⟨rfl, hrest⟩ := List.cons.inj htext
      obtain ⟨f, hf, hle, hlt⟩ := ih (start + c.utf8Size) hrest
      refine ⟨f, hf, ?_⟩
      simp only [byteSize]
      omega
  | @call k rest ps _ _ ih =>
    have hbefore : before <+: k.whole ++ rest := ⟨tail, htext.symm⟩
    have hwhole : k.whole <+: k.whole ++ rest := List.prefix_append _ _
    rcases Nat.lt_or_ge before.length k.whole.length with hlt | hge
    · obtain ⟨mid, hmid⟩ := List.prefix_of_prefix_length_le hbefore hwhole (Nat.le_of_lt hlt)
      have hne : mid ≠ [] := by
        intro hnil
        subst hnil
        rw [← hmid, List.append_nil] at hlt
        exact Nat.lt_irrefl _ hlt
      refine ⟨⟨start, k⟩, List.mem_cons_self .., Nat.le_add_right _ _, ?_⟩
      have := byteSize_pos hne
      rw [Found.stop_eq]
      show start + byteSize before < start + byteSize k.whole
      rw [← hmid, byteSize_append]
      omega
    · obtain ⟨mid, rfl⟩ := List.prefix_of_prefix_length_le hwhole hbefore hge
      rw [List.append_assoc] at htext
      obtain ⟨f, hf, hle, hlt⟩ := ih (start + byteSize k.whole) (List.append_cancel_left htext)
      refine ⟨f, List.mem_cons_of_mem _ hf, ?_⟩
      rw [byteSize_append]
      omega

/-- The calls found are the leftmost ones of the text, none over another and none
left out. Places are counted in bytes. -/
structure Leftmost (name text : List Char) (found : List Found) : Prop where
  search : Search name 0 text found
  only : ∀ other, Search name 0 text other → other = found
  accepted : ∀ f ∈ found, Accepted name f.call
  args : ∀ f ∈ found, ¬ Call.closing <:+: f.call.args ∧ f.call.args.getLast? ≠ some '}'
  written : ∀ f ∈ found, ∃ before after,
    text = before ++ f.call.opening ++ f.call.args ++ Call.closing ++ after ∧
      f.start = byteSize before ∧ f.argsStart = byteSize (before ++ f.call.opening) ∧
      f.argsEnd = byteSize (before ++ f.call.opening ++ f.call.args) ∧
      f.stop = byteSize (before ++ f.call.opening ++ f.call.args ++ Call.closing)
  increasing : found.Pairwise fun f g => f.start < g.start
  disjoint : found.Pairwise fun f g => f.stop ≤ g.start
  complete : ∀ before tail, text = before ++ tail → Begins name tail →
    ∃ f ∈ found, f.start ≤ byteSize before ∧ byteSize before < f.stop

theorem Body.not_ends {args : List Char} (h : Body args) :
    ¬ Call.closing <:+: args ∧ args.getLast? ≠ some '}' := by
  refine ⟨fun hi => h.not_closing (hi.trans (List.prefix_append _ _).isInfix), fun hlast => ?_⟩
  obtain ⟨init, rfl⟩ := List.getLast?_eq_some_iff.1 hlast
  exact h.not_closing ⟨init, [], by simp [Call.closing]⟩

/-- **A search finds the leftmost calls of its name**, and a text has a call
exactly where some opening of the name is followed by a closing. -/
theorem findCalls_leftmost (name text : List Char) :
    Leftmost name text (findCalls name text) ∧
      (hasCall name text = true ↔ findCalls name text ≠ []) ∧
      (hasCall name text = true ↔ ∃ before tail, text = before ++ tail ∧ Begins name tail) := by
  have hcut := cut_pieces name text
  have hdisjoint := locate_pairwise 0 (pieces name text)
  have hcomplete : ∀ before tail, text = before ++ tail → Begins name tail →
      ∃ f ∈ findCalls name text, f.start ≤ byteSize before ∧ byteSize before < f.stop := by
    intro before tail htext hbegins
    obtain ⟨f, hf, hrange⟩ := hcut.covers 0 htext hbegins
    exact ⟨f, hf, by simpa only [Nat.zero_add] using hrange⟩
  have hhas : hasCall name text = true ↔ findCalls name text ≠ [] := by simp [hasCall]
  refine ⟨⟨search_of_cut hcut 0, fun other h => h.unique (search_of_cut hcut 0),
    fun f hf => (hcut.mem hf).1, fun f hf => (hcut.mem hf).1.body.not_ends, fun f hf => ?_,
    hdisjoint.imp fun {f g} h => Nat.lt_of_lt_of_le f.start_lt_stop h, hdisjoint, hcomplete⟩,
    hhas, ?_⟩
  · obtain ⟨_, before, after, rfl, hstart⟩ := hcut.mem hf
    refine ⟨before, after, by simp [Call.whole], ?_, ?_, ?_, ?_⟩ <;>
      simp only [Found.stop, Found.argsEnd, Found.argsStart, byteSize_append, hstart] <;> omega
  · rw [hhas]
    constructor
    · intro hne
      obtain ⟨f, hf⟩ := List.exists_mem_of_ne_nil _ hne
      obtain ⟨haccepted, before, after, htext, _⟩ := hcut.mem hf
      exact ⟨before, f.call.whole ++ after, by rw [htext, List.append_assoc],
        begins_iff.2 ⟨f.call, haccepted, List.prefix_append _ _⟩⟩
    · intro hopens
      obtain ⟨before, tail, htext, hbegins⟩ := hopens
      obtain ⟨f, hf, _⟩ := hcomplete before tail htext hbegins
      exact List.ne_nil_of_mem hf

/-! ### Names in lower case -/

theorem spelled?_toLower (name text : List Char) :
    spelled? (name.map Char.toLower) text = spelled? name text := by
  induction name generalizing text with
  | nil => rfl
  | cons n name ih =>
    cases text with
    | nil => rfl
    | cons c text =>
      have hletter : sameLetter n.toLower c = sameLetter n c := by
        rw [sameLetter, sameLetter, Char.toLower_toLower_eq_toLower]
      rw [List.map_cons, spelled?, spelled?, hletter, ih]

/-- A text is cut by what the call at each of its places is. -/
theorem piecesFrom_congr {name other : List Char} (h : call? name = call? other) (skip : Nat)
    (text : List Char) : piecesFrom name skip text = piecesFrom other skip text := by
  induction text generalizing skip with
  | nil => cases skip <;> rfl
  | cons c rest ih =>
    cases skip with
    | zero =>
      rw [piecesFrom, piecesFrom, h]
      cases call? other (c :: rest) with
      | none => exact congrArg (Piece.plain c :: ·) (ih 0)
      | some k => exact congrArg (Piece.call k :: ·) (ih _)
    | succ skip => exact ih skip

theorem findCalls_toLower (name text : List Char) :
    findCalls (name.map Char.toLower) text = findCalls name text := by
  have hcall : call? (name.map Char.toLower) = call? name := by
    funext text
    unfold call? opened?
    simp only [spelled?_toLower]
  exact congrArg (locate 0) (piecesFrom_congr hcall 0 text)

/-- **A matcher for an ASCII name finds the calls of the name that it is called by.** -/
theorem Matcher.findCalls_name {name : String} {matcher : Matcher}
    (hmade : Matcher.ofName name = .ok matcher) (hascii : ∀ c ∈ name.toList, c.toNat < 0x80)
    (text : List Char) : matcher.findCalls text = PipeGuard.findCalls matcher.name text := by
  have hname : matcher.name = matcher.given.map Char.toLower :=
    Text.lowercaseFrom_ascii [] matcher.given (Matcher.ofName_eq_ok.1 hmade ▸ hascii)
  rw [hname, findCalls_toLower]
  rfl

end PipeGuard
