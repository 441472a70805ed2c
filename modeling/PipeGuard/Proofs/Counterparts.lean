import PipeGuard.Proofs.Escaping

/-! The calls of a text and those of the text that escaping makes of it.

Escaping writes a token for some pipes, and no call has a part in a token, so a
search for any ordinary name finds the same calls before and after: at the same
places, counted in characters of the text and tokens, and with the name spelled
as it was (`Counterparts`).

`escape_counterparts`: the calls correspond one to one and in order, and those
that write come out with their arguments escaped on their own. -/
namespace PipeGuard

/-! ### Calls in two spellings of one text -/

theorem locate_map_plain (start : Nat) (word : List Char) (ps : List Piece) :
    locate start (word.map .plain ++ ps) = locate (start + byteSize word) ps := by
  induction word generalizing start with
  | nil => rfl
  | cons c word ih =>
    show locate (start + c.utf8Size) (word.map .plain ++ ps) = _
    rw [ih, byteSize, Nat.add_assoc]

/-- A call of `name` in two spellings of the places `m`: the same places of `m`
make it up, and its arguments are spelled with the word of either side. -/
def Counterparts (name u v : List Char) (m : List Cell) (f g : Found) : Prop :=
  ∃ a spelling body b, m = a ++ Cell.callCells spelling body ++ b ∧
    Accepted name ⟨spelling, Cell.spell u body⟩ ∧
    f = ⟨byteSize (Cell.spell u a), spelling, Cell.spell u body⟩ ∧
    g = ⟨byteSize (Cell.spell v a), spelling, Cell.spell v body⟩

/-- **Two inert words show the same calls.** -/
theorem counterparts_pieces {name u v : List Char} (hu : Inert name u) (hv : Inert name v)
    (before m : List Cell) :
    List.Forall₂ (Counterparts name u v (before ++ m))
      (locate (byteSize (Cell.spell u before)) (pieces name (Cell.spell u m)))
      (locate (byteSize (Cell.spell v before)) (pieces name (Cell.spell v m))) := by
  induction Cell.parts hu m generalizing before with
  | nil => exact .nil
  | @held m _ ih =>
    have hrest := ih (before ++ [.held])
    simp only [Cell.spell_append, byteSize_append, Cell.spell, List.append_nil, List.append_assoc,
      List.singleton_append] at hrest
    rw [Cell.spell, Cell.spell, Cell.pieces_append hu.brace, Cell.pieces_append hv.brace,
      locate_map_plain, locate_map_plain]
    exact hrest
  | @char c m hnone _ ih =>
    have hrest := ih (before ++ [.char c])
    simp only [Cell.spell_append, byteSize_append, Cell.spell, List.append_assoc,
      List.singleton_append] at hrest
    rw [Cell.spell, Cell.spell, pieces_plain (hnone u hu), pieces_plain (hnone v hv)]
    exact hrest
  | @call spelling body m hcall _ ih =>
    have hrest := ih (before ++ Cell.callCells spelling body)
    simp only [Cell.spell_append, byteSize_append, Cell.spell_callCells, List.append_assoc] at hrest
    rw [Cell.pieces_callCells (hcall u hu), Cell.pieces_callCells (hcall v hv)]
    refine .cons ⟨before, spelling, body, m, by rw [List.append_assoc], ?_, rfl, rfl⟩ hrest
    exact (call?_eq_some_iff.1 (hcall u hu)).1

/-! ### Arguments of a call that writes -/

/-- The arguments of a call after an escape of its own. -/
def Call.escapedArgs (encoding : Encoding) (k : Call) : List Char :=
  ((Pipe.escapeArgs encoding k.args).map Edited.args).getD k.args

theorem Call.escapedArgs_eq (encoding : Encoding) (k : Call) :
    k.escapedArgs encoding = Pipe.protect encoding.token false k.args := by
  unfold Call.escapedArgs Pipe.escapeArgs
  cases hpipes : Pipe.structural false k.args with
  | zero => exact (Pipe.protect_of_structural_eq_zero _ _ _ hpipes).symm
  | succ n => rfl

/-- Within a call of one of the names, the places that are held are those that an
escape of the arguments alone would hold. -/
theorem body_guarded {names : List (List Char)} {name spelling text : List Char}
    {a body b : List Cell} (hmem : name ∈ names) (hname : Ordinary name)
    (haccepted : Accepted name ⟨spelling, Cell.plain body⟩)
    (h : guarded names text = a ++ Cell.callCells spelling body ++ b) :
    body = Cell.hold (evenAt (Cell.plain a ++ opening spelling) ((Cell.plain body).map .char))
      ((Cell.plain body).map .char) := by
  have hchars : ∀ word : List Char, Cell.plain (word.map .char) = word := Cell.spell_map_char ['|']
  have hwhole : Cell.plain (Cell.callCells spelling body) =
      (Call.mk spelling (Cell.plain body)).whole := Cell.spell_callCells ['|'] _ _
  have htext : text.map Cell.char = (Cell.plain a).map .char ++
      (Cell.callCells spelling ((Cell.plain body).map .char) ++ (Cell.plain b).map .char) := by
    rw [← plain_guarded names text, h, Cell.plain_append, Cell.plain_append, hwhole]
    simp [Cell.callCells, Call.whole, Call.opening_eq]
  have hguarded : guarded names text = Cell.hold (picks names [] (text.map .char)) (text.map .char) := by
    rw [picks_nil, hchars, guarded]
  rw [htext, hold_picks_append, hold_callCells hmem hname (by rwa [hchars]), List.nil_append, hchars,
    h, List.append_assoc, Cell.callCells, Cell.callCells] at hguarded
  -- Both sides cut the text at the same lengths, so the arguments are the same places.
  obtain ⟨-, hcall⟩ := List.append_inj hguarded (by simp [Cell.hold, Cell.length_plain])
  simp only [Cell.callCells, List.append_assoc] at hcall
  obtain ⟨-, hbody⟩ := List.append_inj hcall rfl
  exact (List.append_inj hbody (by simp [Cell.hold, Cell.length_plain])).1

/-- The token stands in the arguments of a call that writes exactly where an
escape of these arguments puts it. -/
theorem args_guarded {names : List (List Char)} {name spelling text : List Char}
    {a body b : List Cell} (hmem : name ∈ names) (hname : Ordinary name)
    (haccepted : Accepted name ⟨spelling, Cell.plain body⟩)
    (h : guarded names text = a ++ Cell.callCells spelling body ++ b) (encoding : Encoding) :
    Cell.spell encoding.token body = Pipe.protect encoding.token false (Cell.plain body) := by
  have hprotect := protect_spell encoding
    (sound_map_char (Cell.plain a ++ opening spelling) (Cell.plain body))
  rw [oddRun_opening, Cell.spell_map_char, ← body_guarded hmem hname haccepted h] at hprotect
  exact hprotect.symm

/-! ### Before and after an escape -/

/-- What an escape of `text` makes of a call of `name`: it stands at the same
places, the tokens counted as the pipes they are for, the name keeps its
spelling, and a call that writes has its own arguments escaped. -/
structure EscapedCall (encoding : Encoding) (name text : List Char) (f g : Found) : Prop where
  places : Counterparts name ['|'] encoding.token (guarded writeNames text) f g
  spelling : g.call.name = f.call.name
  args : name ∈ writeNames → g.call.args = f.call.escapedArgs encoding

/-- **Escaping keeps the calls of a text**: of any name without the characters of
a token, as many in the same order, each at its place with its name spelled as it
was; and a call that writes gets the arguments that escaping them alone gives. -/
theorem escape_counterparts {settings : Settings} (h : settings.enabled = true)
    (encoding : Encoding) {name : List Char} (hname : Ordinary name) (text : List Char) :
    List.Forall₂ (EscapedCall encoding name text) (findCalls name text)
      (findCalls name (escape encoding settings text).text) := by
  have hescape : (escape encoding settings text).text =
      Cell.spell encoding.token (guarded writeNames text) :=
    (escape_text_eq h encoding text).1.trans (reviseAll_guarded writeNames_plain encoding text).1
  have hcounterparts := counterparts_pieces hname.inert_pipe (hname.inert_token encoding) []
    (guarded writeNames text)
  rw [← hescape, List.nil_append] at hcounterparts
  have hplain : Cell.spell ['|'] (guarded writeNames text) = text := plain_guarded writeNames text
  rw [hplain] at hcounterparts
  refine hcounterparts.imp ?_
  intro f g hpair
  obtain ⟨a, spelling, body, b, hcells, haccepted, rfl, rfl⟩ := id hpair
  refine ⟨hpair, rfl, fun hwrite => ?_⟩
  rw [Call.escapedArgs_eq]
  exact args_guarded hwrite hname haccepted hcells encoding

/-- A call that reads stands in the arguments of one that writes, behind a pipe. -/
def readInside : List Char :=
  opening "setvar".toList ++ "a|".toList ++ (Call.mk "GetVar".toList "b|c".toList).whole

/-- The call that reads is found where the token has moved it to. -/
theorem escape_counterparts_inside :
    (Settings.mk true false).enabled = true ∧ Ordinary "getvar".toList ∧
      List.Forall₂ (EscapedCall .backslash "getvar".toList readInside)
        [⟨12, "GetVar".toList, "b|c".toList⟩] [⟨13, "GetVar".toList, "b\\|c".toList⟩] := by
  have hname : Ordinary "getvar".toList := ⟨by decide, by decide, by decide⟩
  have hpairs := @escape_counterparts ⟨true, false⟩ rfl .backslash _ hname readInside
  have hbefore : findCalls "getvar".toList readInside =
      [⟨12, "GetVar".toList, "b|c".toList⟩] := by decide +kernel
  have hafter : findCalls "getvar".toList (escape .backslash ⟨true, false⟩ readInside).text =
      [⟨13, "GetVar".toList, "b\\|c".toList⟩] := by decide +kernel
  rw [hbefore, hafter] at hpairs
  exact ⟨rfl, hname, hpairs⟩

end PipeGuard
