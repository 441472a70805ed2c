import PipeGuard.Escape
import PipeGuard.Proofs.Unguarded

/-! What a pass of escaping does to a text with held pipes.

A pass goes over the calls of one name. On a text whose held pipes are written as
tokens it holds the pipes that are unguarded for that name and changes nothing
else (`revise_spell`), because a token decides neither where a call is nor where
a run of backslashes is odd. So the passes of several names, in any order, hold
what is unguarded for one of them (`reviseAll_spell`).

The invariant along the text is `Outside`: whatever opened before has been closed
before, or is never closed. -/
namespace PipeGuard

/-! ### A pass, one piece at a time -/

/-- The pipes that an edit handles in a piece. -/
def Piece.pipes (edit : Edit) : Piece → Nat
  | plain _ => 0
  | call k => ((edit k.args).map Edited.pipes).getD 0

theorem Revision.pipes_eq (r : Revision) : r.pipes = (r.fixes.map (·.edited.pipes)).sum :=
  List.sum_eq_foldr.symm

theorem pipes_fixesOf (edit : Edit) (start : Nat) (ps : List Piece) :
    ((fixesOf edit (locate start ps)).map (·.edited.pipes)).sum =
      (ps.map (Piece.pipes edit)).sum := by
  induction ps generalizing start with
  | nil => rfl
  | cons p ps ih =>
    cases p with
    | plain c => simpa [locate, Piece.pipes] using ih _
    | call k =>
      have hrest := ih (start + byteSize k.whole)
      simp only [fixesOf, locate, List.filterMap_cons, Piece.pipes, List.map_cons,
        List.sum_cons] at hrest ⊢
      cases edit k.args with
      | none => simpa using hrest
      | some edited => simpa using hrest

/-- A pass edits each piece where it stands, and adds up the pipes. -/
theorem revise_eq (edit : Edit) (name text : List Char) :
    (revise edit name text).text = (pieces name text).flatMap (Piece.edit edit) ∧
      (revise edit name text).pipes = ((pieces name text).map (Piece.pipes edit)).sum :=
  ⟨rfl, (Revision.pipes_eq _).trans (pipes_fixesOf edit 0 _)⟩

theorem revise_plain {edit : Edit} {name : List Char} {c : Char} {rest : List Char}
    (h : call? name (c :: rest) = none) :
    (revise edit name (c :: rest)).text = c :: (revise edit name rest).text ∧
      (revise edit name (c :: rest)).pipes = (revise edit name rest).pipes := by
  simp only [revise_eq, pieces_plain h, List.flatMap_cons, List.map_cons, List.sum_cons]
  exact ⟨rfl, Nat.zero_add _⟩

theorem edit_map_plain (edit : Edit) (word : List Char) :
    (word.map Piece.plain).flatMap (Piece.edit edit) = word ∧
      ((word.map Piece.plain).map (Piece.pipes edit)).sum = 0 := by
  induction word with
  | nil => exact ⟨rfl, rfl⟩
  | cons c word ih =>
    obtain ⟨htext, hpipes⟩ := ih
    simp only [List.map_cons, List.flatMap_cons, List.sum_cons, htext, hpipes]
    exact ⟨rfl, rfl⟩

/-- A word in which no call begins stays as it is. -/
theorem revise_word {edit : Edit} {name word : List Char} (hword : '{' ∉ word) (rest : List Char) :
    (revise edit name (word ++ rest)).text = word ++ (revise edit name rest).text ∧
      (revise edit name (word ++ rest)).pipes = (revise edit name rest).pipes := by
  obtain ⟨htext, hpipes⟩ := edit_map_plain edit word
  simp only [revise_eq, Cell.pieces_append hword, List.flatMap_append, List.map_append,
    List.sum_append, htext, hpipes, Nat.zero_add, and_self]

theorem revise_callCells {edit : Edit} {name word spelling : List Char} {body m : List Cell}
    (h : call? name (Cell.spell word (Cell.callCells spelling body ++ m)) =
      some ⟨spelling, Cell.spell word body⟩) :
    (revise edit name (Cell.spell word (Cell.callCells spelling body ++ m))).text =
        Piece.edit edit (.call ⟨spelling, Cell.spell word body⟩) ++
          (revise edit name (Cell.spell word m)).text ∧
      (revise edit name (Cell.spell word (Cell.callCells spelling body ++ m))).pipes =
        Piece.pipes edit (.call ⟨spelling, Cell.spell word body⟩) +
          (revise edit name (Cell.spell word m)).pipes := by
  simp only [revise_eq, Cell.pieces_callCells h, List.flatMap_cons, List.map_cons, List.sum_cons,
    and_self]

theorem edit_call (encoding : Encoding) (k : Call) :
    Piece.edit (Pipe.escapeArgs encoding) (.call k) =
        (k.withArgs (Pipe.protect encoding.token false k.args)).whole ∧
      Piece.pipes (Pipe.escapeArgs encoding) (.call k) = Pipe.structural false k.args := by
  simp only [Piece.edit, Piece.pipes, Pipe.escapeArgs]
  cases hpipes : Pipe.structural false k.args with
  | zero => rw [Pipe.protect_of_structural_eq_zero _ _ _ hpipes]; exact ⟨rfl, rfl⟩
  | succ n => exact ⟨rfl, rfl⟩

/-! ### Outside calls -/

/-- An opening of `name` that starts in `before` and is closed at all is closed
in `before`. -/
def Outside (name before after : List Char) : Prop :=
  ∀ lead spelling rest, Spelling name spelling → before ++ after = lead ++ opening spelling ++ rest →
    Call.closing <:+: rest → lead.length < before.length →
    ∃ body tail, rest = body ++ Call.closing ++ tail ∧ after.length ≤ tail.length

theorem outside_nil (name after : List Char) : Outside name [] after :=
  fun _ _ _ _ _ _ h => absurd h (Nat.not_lt_zero _)

/-- A character at which no call begins leaves everything outside. -/
theorem Outside.step {name before after : List Char} {c : Char}
    (h : Outside name before (c :: after)) (hnot : ¬ Begins name (c :: after)) :
    Outside name (before ++ [c]) after := by
  intro lead spelling rest hspell htext hclosing hlt
  rw [List.append_assoc, List.singleton_append] at htext
  rcases Nat.lt_or_ge lead.length before.length with hbefore | hge
  · obtain ⟨body, tail, hrest, hlen⟩ := h lead spelling rest hspell htext hclosing hbefore
    exact ⟨body, tail, hrest, by simp only [List.length_cons] at hlen; omega⟩
  · simp only [List.length_append, List.length_cons, List.length_nil] at hlt
    rw [List.append_assoc] at htext
    obtain ⟨-, htail⟩ := List.append_inj htext (by omega)
    exact absurd ⟨spelling, rest, hspell, htail, hclosing⟩ hnot

/-- What opens within a call is closed by the closing of the call. -/
theorem opening_in_whole {k : Call} {spelling gap rest after : List Char}
    (hbrace : '}' ∉ opening spelling)
    (h : k.whole ++ after = gap ++ (opening spelling ++ rest)) (hlt : gap.length < k.whole.length) :
    ∃ body, rest = body ++ Call.closing ++ after := by
  have hwhole : k.opening ++ k.args ++ '}' :: '}' :: after = gap ++ (opening spelling ++ rest) := by
    rw [← h, Call.whole, Call.closing]
    simp
  rcases List.append_eq_append_iff.1 hwhole with ⟨mid, rfl, hmid⟩ | ⟨mid, hargs, hmid⟩
  · -- The opening would start at a brace of the closing.
    simp only [List.length_append, Call.whole, Call.closing, List.length_cons,
      List.length_nil] at hlt
    cases mid with
    | nil => exact absurd (List.cons.inj hmid).1 (by decide)
    | cons c mid =>
      cases mid with
      | nil => exact absurd (List.cons.inj (List.cons.inj hmid).2).1 (by decide)
      | cons d mid =>
        simp only [List.length_cons] at hlt
        omega
  · -- It starts before the closing, and has no closing brace to reach into it with.
    rcases List.append_eq_append_iff.1 hmid with ⟨body, rfl, hrest⟩ | ⟨body, hopening, hrest⟩
    · exact ⟨body, by simp [hrest, Call.closing]⟩
    · cases body with
      | nil => exact ⟨[], hrest.symm⟩
      | cons d body =>
        obtain ⟨rfl, -⟩ := List.cons.inj hrest
        exact absurd (by simp [hopening]) hbrace

/-- Behind a call everything is outside: what opened in it closes with it. -/
theorem Outside.call {name before after : List Char} {k : Call} (hname : '}' ∉ name)
    (h : Outside name before (k.whole ++ after)) : Outside name (before ++ k.whole) after := by
  intro lead spelling rest hspell htext hclosing hlt
  have hbrace : '}' ∉ opening spelling := by
    rw [mem_opening]
    have := not_mem_spelling (by decide) hname hspell
    simpa using this
  rw [List.append_assoc, List.append_assoc] at htext
  rcases Nat.lt_or_ge lead.length before.length with hbefore | hge
  · obtain ⟨body, tail, hrest, hlen⟩ :=
      h lead spelling rest hspell (by rw [htext, List.append_assoc]) hclosing hbefore
    exact ⟨body, tail, hrest, by simp only [List.length_append] at hlen; omega⟩
  · have hlead : lead <+: before ++ (k.whole ++ after) := ⟨opening spelling ++ rest, htext.symm⟩
    obtain ⟨gap, rfl⟩ :=
      List.prefix_of_prefix_length_le (List.prefix_append before _) hlead hge
    rw [List.append_assoc] at htext
    simp only [List.length_append] at hlt
    obtain ⟨body, hrest⟩ :=
      opening_in_whole hbrace (List.append_cancel_left htext) (by omega)
    exact ⟨body, after, hrest, Nat.le_refl _⟩

/-- Outside calls a pipe is guarded. -/
theorem Outside.not_unguarded {name before after : List Char} {c : Char}
    (h : Outside name before (c :: after)) : ¬ Unguarded [name] before after := by
  intro hunguarded
  obtain ⟨-, ⟨name', hname', lead, spelling, body, hspell, rfl, hbody⟩, hcloses⟩ := hunguarded
  obtain rfl := List.mem_singleton.1 hname'
  have hclosing : Call.closing <:+: body ++ c :: after :=
    hcloses.trans ⟨body ++ [c], [], by simp⟩
  obtain ⟨args, tail, heq, hlen⟩ := h lead spelling (body ++ c :: after) hspell (by simp) hclosing
    (by simp only [List.length_append, opening, List.length_cons]; omega)
  have hlength := congrArg List.length heq
  simp only [List.length_append] at hlength
  have hargs : args ++ Call.closing <+: body ++ c :: after := ⟨tail, heq.symm⟩
  have hclosed : args ++ Call.closing <+: body := by
    apply List.prefix_of_prefix_length_le hargs (List.prefix_append _ _)
    simp only [List.length_append]
    omega
  exact hbody ((List.suffix_append args _).isInfix.trans hclosed.isInfix)

/-! ### What a pass picks -/

/-- The unguarded places of a text that goes on after `before`, counted from there. -/
def picks (names : List (List Char)) (before : List Char) (m : List Cell) (i : Nat) : Bool :=
  unguardedAt names (before ++ Cell.plain m) (before.length + i)

theorem picks_append (names : List (List Char)) (before : List Char) (a b : List Cell) :
    (fun i => picks names before (a ++ b) (a.length + i)) =
      picks names (before ++ Cell.plain a) b := by
  funext i
  simp only [picks, Cell.plain_append, List.append_assoc, List.length_append, Cell.length_plain,
    Nat.add_assoc]

theorem hold_picks_append (names : List (List Char)) (before : List Char) (a b : List Cell) :
    Cell.hold (picks names before (a ++ b)) (a ++ b) =
      Cell.hold (picks names before (a ++ b)) a ++
        Cell.hold (picks names (before ++ Cell.plain a) b) b := by
  rw [Cell.hold_append, picks_append]

theorem hold_picks_held (names : List (List Char)) (before : List Char) (m : List Cell) :
    Cell.hold (picks names before (.held :: m)) (.held :: m) =
      .held :: Cell.hold (picks names (before ++ ['|']) m) m :=
  hold_picks_append names before [.held] m

theorem hold_picks_char (names : List (List Char)) (before : List Char) (c : Char) (m : List Cell) :
    Cell.hold (picks names before (.char c :: m)) (.char c :: m) =
      (if c = '|' ∧ Unguarded names before (Cell.plain m) then .held else .char c) ::
        Cell.hold (picks names (before ++ [c]) m) m := by
  have hzero : picks names before (.char c :: m) 0 =
      decide (Unguarded names before (Cell.plain m)) := unguardedAt_append _ _ _ _
  calc Cell.hold (picks names before (.char c :: m)) (.char c :: m)
      = Cell.hold (picks names before (.char c :: m)) [.char c] ++
          Cell.hold (picks names (before ++ [c]) m) m := hold_picks_append names before [.char c] m
    _ = _ := by
      rw [Cell.hold_cons, hzero, Cell.hold_nil, List.singleton_append]
      simp

/-- Inside a call only the backslashes decide. -/
theorem picks_callCells {names : List (List Char)} {name spelling before : List Char}
    {body m : List Cell} (hmem : name ∈ names)
    (haccepted : Accepted name ⟨spelling, Cell.plain body⟩) {i : Nat} (hi : i < body.length) :
    picks names before (Cell.callCells spelling body ++ m) ((opening spelling).length + i) =
      evenAt (before ++ opening spelling) body i := by
  obtain ⟨a, c, b, hargs, hlen⟩ : ∃ a c b, Cell.plain body = a ++ c :: b ∧ a.length = i := by
    have hi' : i < (Cell.plain body).length := by rwa [Cell.length_plain]
    refine ⟨(Cell.plain body).take i, (Cell.plain body)[i], (Cell.plain body).drop (i + 1), ?_, ?_⟩
    · rw [List.getElem_cons_drop, List.take_append_drop]
    · rw [List.length_take]
      omega
  have hbody : ¬ Call.closing <:+: a := fun hclosed =>
    haccepted.body.not_ends.1 (hclosed.trans ⟨[], c :: b, by simp [hargs]⟩)
  have hplain : before ++ Cell.plain (Cell.callCells spelling body ++ m) =
      (before ++ opening spelling ++ a) ++ c :: (b ++ Call.closing ++ Cell.plain m) := by
    simp only [Cell.plain_append, Cell.callCells, Cell.spell_map_char, hargs]
    simp
  have hlength : before.length + ((opening spelling).length + i) =
      (before ++ opening spelling ++ a).length := by
    simp only [List.length_append, hlen]
    omega
  have htake : (Cell.plain body).take i = a := by
    rw [hargs, ← hlen, List.take_left]
  rw [picks, hplain, hlength, unguardedAt_append, evenAt, htake, oddRun, ← decide_not]
  refine decide_eq_decide.2 ⟨fun h => by have := h.even; omega, fun h => ⟨by omega, ?_, ?_⟩⟩
  · exact ⟨name, hmem, before, spelling, a, haccepted.spelling, rfl, hbody⟩
  · exact ⟨b, Cell.plain m, rfl⟩

theorem count_callCells (spelling : List Char) (body : List Cell) :
    (Cell.callCells spelling body).count .held = body.count .held := by
  have hchars : ∀ text : List Char, (text.map Cell.char).count .held = 0 := fun text =>
    List.count_eq_zero.2 (by simp)
  rw [Cell.callCells, List.count_append, List.count_append, hchars, hchars, Nat.zero_add,
    Nat.add_zero]

/-- In a call a pass holds the pipes of the arguments that are even, and nothing
of what stands around them. -/
theorem hold_callCells {names : List (List Char)} {name spelling before : List Char}
    {body m : List Cell} (hmem : name ∈ names) (hname : Ordinary name)
    (haccepted : Accepted name ⟨spelling, Cell.plain body⟩) :
    Cell.hold (picks names before (Cell.callCells spelling body ++ m))
        (Cell.callCells spelling body ++ m) =
      Cell.callCells spelling (Cell.hold (evenAt (before ++ opening spelling) body) body) ++
        Cell.hold (picks names (before ++ Cell.plain (Cell.callCells spelling body)) m) m := by
  have hopening : '|' ∉ opening spelling := by
    rw [mem_opening]
    have := not_mem_spelling (by decide) hname.pipe haccepted.spelling
    simpa using this
  rw [hold_picks_append]
  congr 1
  rw [Cell.callCells, Cell.hold_append, Cell.hold_append, Cell.hold_map_char hopening,
    Cell.hold_map_char (by decide), List.length_map]
  congr 2
  exact Cell.hold_congr fun i hi => picks_callCells hmem haccepted hi

/-! ### One pass -/

/-- **A pass holds what is unguarded for its name.** It reports the pipes it
holds, whichever token stands for those that were held before. -/
theorem revise_spell {name before : List Char} {m : List Cell} (hname : Ordinary name)
    (hclosing : '}' ∉ name) (houtside : Outside name before (Cell.plain m))
    (hsound : Sound before m) (encoding : Encoding) :
    (revise (Pipe.escapeArgs encoding) name (Cell.spell encoding.token m)).text =
        Cell.spell encoding.token (Cell.hold (picks [name] before m) m) ∧
      ∀ other : Encoding,
        (revise (Pipe.escapeArgs encoding) name (Cell.spell other.token m)).pipes +
          m.count .held = (Cell.hold (picks [name] before m) m).count .held := by
  induction Cell.parts hname.inert_pipe m generalizing before with
  | nil => exact ⟨rfl, fun _ => rfl⟩
  | @held m _ ih =>
    have hstep : Outside name (before ++ ['|']) (Cell.plain m) :=
      Outside.step houtside fun ⟨_, _, _, h, _⟩ => absurd (List.cons.inj h).1 (by decide)
    obtain ⟨htext, hcount⟩ := ih hstep hsound.held.2
    have hword : ∀ other : Encoding, '{' ∉ other.token := fun other => (hname.inert_token other).brace
    rw [hold_picks_held]
    refine ⟨?_, fun other => ?_⟩
    · rw [Cell.spell, (revise_word (hword encoding) _).1, htext]
      rfl
    · rw [Cell.spell, (revise_word (hword other) _).2, List.count_cons_self, List.count_cons_self,
        ← hcount other, Nat.add_assoc]
  | @char c m hnone _ ih =>
    have hnot := call?_eq_none_iff.1 (hnone _ hname.inert_pipe)
    obtain ⟨htext, hcount⟩ := ih (Outside.step houtside hnot) hsound.char
    have hkept : ¬ (c = '|' ∧ Unguarded [name] before (Cell.plain m)) := fun h =>
      Outside.not_unguarded houtside h.2
    rw [hold_picks_char, if_neg hkept]
    refine ⟨?_, fun other => ?_⟩
    · rw [Cell.spell, (revise_plain (hnone _ (hname.inert_token encoding))).1, htext]
      rfl
    · rw [Cell.spell, (revise_plain (hnone _ (hname.inert_token other))).2,
        List.count_cons_of_ne (by simp), List.count_cons_of_ne (by simp), hcount other]
  | @call spelling body m hcall _ ih =>
    have haccepted := (call?_eq_some_iff.1 (hcall _ hname.inert_pipe)).1
    have hwhole : Cell.plain (Cell.callCells spelling body) = (Call.mk spelling _).whole :=
      Cell.spell_callCells _ _ _
    have hbody : Sound (before ++ opening spelling) body := by
      have := hsound.of_append.1.of_append.1.of_append.2
      rwa [Cell.plain, Cell.spell_map_char] at this
    have hstep : Outside name (before ++ Cell.plain (Cell.callCells spelling body)) (Cell.plain m) := by
      rw [Cell.plain_append] at houtside
      rw [hwhole] at houtside ⊢
      exact houtside.call hclosing
    obtain ⟨htext, hcount⟩ := ih hstep hsound.of_append.2
    rw [hold_callCells (List.mem_singleton_self _) hname haccepted]
    refine ⟨?_, fun other => ?_⟩
    · have hprotect := protect_spell encoding hbody
      rw [oddRun_opening] at hprotect
      rw [(revise_callCells (hcall _ (hname.inert_token encoding))).1, htext, (edit_call _ _).1,
        Cell.spell_append, Cell.spell_callCells, ← hprotect]
      rfl
    · have hstructural := structural_spell other hbody
      rw [oddRun_opening] at hstructural
      rw [(revise_callCells (hcall _ (hname.inert_token other))).2, (edit_call _ _).2,
        List.count_append, List.count_append, count_callCells, count_callCells, ← hcount other,
        ← hstructural]
      show Pipe.structural false (Cell.spell other.token body) + _ + _ = _
      omega

/-! ### All passes -/

theorem picks_nil (names : List (List Char)) (m : List Cell) :
    picks names [] m = unguardedAt names (Cell.plain m) := by
  funext i
  simp [picks]

theorem even_of_unguardedAt {names : List (List Char)} {m : List Cell} {i : Nat}
    (h : unguardedAt names (Cell.plain m) i = true) : evenAt [] m i = true := by
  have heven := (of_decide_eq_true h).even
  simp only [evenAt, oddRun, List.nil_append, heven]
  rfl

theorem inCall_cons {name : List Char} {names : List (List Char)} {before : List Char} :
    InCall (name :: names) before ↔ InCall [name] before ∨ InCall names before := by
  simp only [InCall, List.mem_cons, List.not_mem_nil, or_false, or_and_right, exists_or,
    exists_eq_left]

theorem unguardedAt_cons (name : List Char) (names : List (List Char)) (text : List Char) (i : Nat) :
    unguardedAt (name :: names) text i = (unguardedAt [name] text i || unguardedAt names text i) := by
  rw [Bool.eq_iff_iff, Bool.or_eq_true]
  simp only [unguardedAt, decide_eq_true_eq]
  constructor
  · intro hunguarded
    obtain ⟨heven, hcall, hcloses⟩ := hunguarded
    exact (inCall_cons.1 hcall).imp (⟨heven, ·, hcloses⟩) (⟨heven, ·, hcloses⟩)
  · intro hunguarded
    rcases hunguarded with ⟨heven, hcall, hcloses⟩ | ⟨heven, hcall, hcloses⟩
    · exact ⟨heven, inCall_cons.2 (.inl hcall), hcloses⟩
    · exact ⟨heven, inCall_cons.2 (.inr hcall), hcloses⟩

theorem unguardedAt_nil (text : List Char) : unguardedAt [] text = fun _ => false := by
  funext i
  simp only [unguardedAt, decide_eq_false_iff_not]
  intro hunguarded
  obtain ⟨-, ⟨name, hname, -⟩, -⟩ := hunguarded
  exact absurd hname List.not_mem_nil

/-- What is unguarded for one of the names is unguarded for all of them. -/
theorem unguardedAt_absorb {names : List (List Char)} {name : List Char} (hname : name ∈ names)
    (text : List Char) (i : Nat) :
    (unguardedAt names text i || unguardedAt [name] text i) = unguardedAt names text i := by
  cases hone : unguardedAt [name] text i with
  | false => rw [Bool.or_false]
  | true =>
    have hu := of_decide_eq_true hone
    have hall : unguardedAt names text i = true := decide_eq_true ⟨hu.even, by
      obtain ⟨n, hn, hrest⟩ := hu.inCall
      obtain rfl := List.mem_singleton.1 hn
      exact ⟨n, hname, hrest⟩, hu.closes⟩
    rw [hall]
    rfl

theorem reviseAll_cons_pipes (edit : Edit) (name : List Char) (names : List (List Char))
    (text : List Char) :
    (reviseAll edit (name :: names) text).pipes =
      (revise edit name text).pipes + (reviseAll edit names (revise edit name text).text).pipes := by
  simp only [Revision.pipes_eq, reviseAll, List.map_append, List.sum_append]

/-- **The passes of several names hold what is unguarded for one of them**, and
report the pipes they hold. -/
theorem reviseAll_spell {names : List (List Char)} {m : List Cell}
    (hnames : ∀ name ∈ names, Ordinary name ∧ '}' ∉ name) (hsound : Sound [] m)
    (encoding : Encoding) :
    (reviseAll (Pipe.escapeArgs encoding) names (Cell.spell encoding.token m)).text =
        Cell.spell encoding.token (Cell.hold (unguardedAt names (Cell.plain m)) m) ∧
      (reviseAll (Pipe.escapeArgs encoding) names (Cell.spell encoding.token m)).pipes +
        m.count .held = (Cell.hold (unguardedAt names (Cell.plain m)) m).count .held := by
  induction names generalizing m with
  | nil =>
    have hnone : Cell.hold (unguardedAt [] (Cell.plain m)) m = m := by
      rw [unguardedAt_nil, Cell.hold_false]
    rw [hnone]
    exact ⟨rfl, Nat.zero_add _⟩
  | cons name names ih =>
    obtain ⟨hname, hclosing⟩ := hnames name (List.mem_cons_self ..)
    obtain ⟨htext, hcount⟩ := revise_spell hname hclosing (outside_nil _ _) hsound encoding
    have hheld : Sound [] (Cell.hold (unguardedAt [name] (Cell.plain m)) m) :=
      hsound.hold fun _ => even_of_unguardedAt
    obtain ⟨htexts, hcounts⟩ := ih (fun n hn => hnames n (List.mem_cons_of_mem _ hn)) hheld
    have hunion : (fun i => unguardedAt [name] (Cell.plain m) i || unguardedAt names (Cell.plain m) i) =
        unguardedAt (name :: names) (Cell.plain m) :=
      funext fun i => (unguardedAt_cons name names _ i).symm
    rw [Cell.plain_hold, Cell.hold_hold, hunion] at htexts hcounts
    rw [picks_nil] at htext hcount
    refine ⟨?_, ?_⟩
    · simp only [reviseAll]
      rw [htext, htexts]
    · rw [reviseAll_cons_pipes, htext, ← hcounts, ← hcount encoding]
      omega

end PipeGuard
