import PipeGuard.Encoding
import PipeGuard.Proofs.Leftmost

/-! Texts some of whose pipes are held.

A held pipe is one place of a text, whatever word is written for it: a pipe, or
the token of an encoding. No opening and no closing has a part in such a word
(`Inert`), so the word decides nothing about where the calls of a name are.

`parts`: a text with held pipes parts into calls and single places in the same
way for every inert word, and the arguments of a call are its places spelled with
that word. -/
namespace PipeGuard

/-! ### Words that calls have no part in -/

/-- No opening of `name` and no closing begins in the word, ends in it or crosses
its start. -/
structure Inert (name word : List Char) : Prop where
  ne_nil : word ≠ []
  brace : '{' ∉ word
  closing : '}' ∉ word
  colon : word.head? ≠ some ':'
  letter : ∀ c, word.head? = some c → ∀ n ∈ name, ¬ Letter n c

theorem inert_cons {name word : List Char} {c : Char} (hbrace : '{' ∉ c :: word)
    (hclosing : '}' ∉ c :: word) (hcolon : c ≠ ':') (hc : c.isAlpha = false) (hname : c ∉ name) :
    Inert name (c :: word) := by
  refine ⟨List.cons_ne_nil _ _, hbrace, hclosing, fun h => hcolon (Option.some.inj h), ?_⟩
  intro d hd n hn hletter
  obtain rfl := Option.some.inj hd
  exact hname (eq_of_letter hc hletter ▸ hn)

/-- An opening does not meet the word. -/
theorem Inert.not_head {name word spelling : List Char} (h : Inert name word)
    (hspell : Spelling name spelling) : ∀ c ∈ opening spelling, word.head? ≠ some c := by
  intro c hc hhead
  have hmem : c ∈ word := List.mem_of_mem_head? hhead
  rcases mem_opening.1 hc with rfl | rfl | hc
  · exact h.brace hmem
  · exact h.colon hhead
  · obtain ⟨n, hn, hletter⟩ := exists_letter hspell hc
    exact h.letter c hhead n hn hletter

/-- A name without a pipe and without the characters that guard one. -/
structure Ordinary (name : List Char) : Prop where
  pipe : '|' ∉ name
  backslash : '\\' ∉ name
  mark : '\uE000' ∉ name

theorem Ordinary.inert_pipe {name : List Char} (h : Ordinary name) : Inert name ['|'] :=
  inert_cons (by decide) (by decide) (by decide) (by decide) h.pipe

theorem Ordinary.inert_token {name : List Char} (h : Ordinary name) (encoding : Encoding) :
    Inert name encoding.token := by
  cases encoding with
  | backslash => exact inert_cons (by decide) (by decide) (by decide) (by decide) h.backslash
  | marker => exact inert_cons (by decide) (by decide) (by decide) (by decide) h.mark

/-! ### Places -/

/-- One place of a text: a character, or a pipe that is held. -/
inductive Cell
  | char (c : Char)
  | held
  deriving DecidableEq, Repr

namespace Cell

/-- The text, `word` standing for every held pipe. -/
def spell (word : List Char) : List Cell → List Char
  | [] => []
  | char c :: m => c :: spell word m
  | held :: m => word ++ spell word m

/-- The text, every held pipe a pipe. -/
abbrev plain (m : List Cell) : List Char := spell ['|'] m

theorem spell_append (word : List Char) (a b : List Cell) :
    spell word (a ++ b) = spell word a ++ spell word b := by
  induction a with
  | nil => rfl
  | cons x a ih => cases x <;> simp [spell, ih]

@[simp] theorem spell_map_char (word text : List Char) : spell word (text.map char) = text := by
  induction text with
  | nil => rfl
  | cons c text ih => simp [spell, ih]

theorem plain_append (a b : List Cell) : plain (a ++ b) = plain a ++ plain b :=
  spell_append _ a b

theorem length_plain (m : List Cell) : (plain m).length = m.length := by
  induction m with
  | nil => rfl
  | cons x m ih => cases x <;> simpa [spell] using ih

/-! ### Reading a spelled text -/

/-- A text that does not meet the word is read off the characters. -/
theorem spell_eq_append {word : List Char} (hne : word ≠ []) {text rest : List Char}
    (htext : ∀ c ∈ text, word.head? ≠ some c) {m : List Cell}
    (h : spell word m = text ++ rest) :
    ∃ m', m = text.map char ++ m' ∧ rest = spell word m' := by
  induction text generalizing m with
  | nil => exact ⟨m, rfl, h.symm⟩
  | cons c text ih =>
    match m, h with
    | [], h => simp [spell] at h
    | char d :: m, h =>
      obtain ⟨rfl, htail⟩ := List.cons.inj h
      obtain ⟨m', rfl, hrest⟩ := ih (fun c hc => htext c (List.mem_cons_of_mem _ hc)) htail
      exact ⟨m', rfl, hrest⟩
    | held :: m, h =>
      obtain ⟨d, word, rfl⟩ := List.exists_cons_of_ne_nil hne
      obtain ⟨rfl, _⟩ := List.cons.inj h
      exact absurd rfl (htext d (List.mem_cons_self ..))

/-- What is not in the word is a character of its own. -/
theorem spell_eq_char {word : List Char} {d : Char} (hword : d ∉ word) {m : List Cell}
    {before after : List Char} (h : spell word m = before ++ d :: after) :
    ∃ a b, m = a ++ char d :: b ∧ before = spell word a ∧ after = spell word b := by
  induction m generalizing before with
  | nil => simp [spell] at h
  | cons x m ih =>
    cases x with
    | char c =>
      cases before with
      | nil =>
        obtain ⟨rfl, htail⟩ := List.cons.inj h
        exact ⟨[], m, rfl, rfl, htail.symm⟩
      | cons e before =>
        obtain ⟨rfl, htail⟩ := List.cons.inj h
        obtain ⟨a, b, rfl, rfl, hafter⟩ := ih htail
        exact ⟨char c :: a, b, rfl, rfl, hafter⟩
    | held =>
      rcases List.append_eq_append_iff.1 h with ⟨mid, rfl, hm⟩ | ⟨mid, rfl, hm⟩
      · obtain ⟨a, b, rfl, rfl, hafter⟩ := ih hm
        exact ⟨held :: a, b, rfl, rfl, hafter⟩
      · cases mid with
        | nil =>
          obtain ⟨a, b, rfl, hbefore, hafter⟩ := @ih [] hm.symm
          exact ⟨held :: a, b, rfl, by
            rw [spell, ← hbefore, List.append_nil, List.append_nil], hafter⟩
        | cons e mid =>
          obtain ⟨rfl, _⟩ := List.cons.inj hm
          exact absurd (by simp) hword

theorem spell_eq_nil {word : List Char} (hne : word ≠ []) {m : List Cell}
    (h : spell word m = []) : m = [] := by
  match m, h with
  | [], _ => rfl
  | char c :: m, h => simp [spell] at h
  | held :: m, h => exact absurd (List.append_eq_nil_iff.1 h).1 hne

/-- A spelled text has a closing where its places have one. -/
theorem closing_infix_spell {word : List Char} (hne : word ≠ []) (hclosing : '}' ∉ word)
    {m : List Cell} :
    Call.closing <:+: spell word m ↔ Call.closing.map char <:+: m := by
  constructor
  · intro hspelled
    obtain ⟨before, after, h⟩ := hspelled
    have hfirst : spell word m = before ++ '}' :: '}' :: after := by
      rw [← h, List.append_assoc]
      rfl
    obtain ⟨a, b, rfl, -, hb⟩ := spell_eq_char hclosing hfirst
    have hsecond : spell word b = [] ++ '}' :: after := hb.symm
    obtain ⟨a', b', rfl, ha', -⟩ := spell_eq_char hclosing hsecond
    obtain rfl := spell_eq_nil hne ha'.symm
    exact ⟨a, b', by simp [Call.closing]⟩
  · intro hcells
    obtain ⟨a, b, rfl⟩ := hcells
    exact ⟨spell word a, spell word b, by simp only [spell_append, spell_map_char]⟩

/-! ### Calls among places -/

/-- The places of a call. -/
def callCells (spelling : List Char) (body : List Cell) : List Cell :=
  (opening spelling).map char ++ body ++ Call.closing.map char

theorem spell_callCells (word spelling : List Char) (body : List Cell) :
    spell word (callCells spelling body) = (Call.mk spelling (spell word body)).whole := by
  simp only [callCells, spell_append, spell_map_char]
  rfl

theorem accepted_spell {name spelling : List Char} {body : List Cell} {u v : List Char}
    (hu : Inert name u) (hv : Inert name v) (h : Accepted name ⟨spelling, spell u body⟩) :
    Accepted name ⟨spelling, spell v body⟩ := by
  refine ⟨h.spelling, body_iff.2 fun hclose => body_iff.1 h.body ?_⟩
  have hcells : ∀ w, spell w body ++ ['}'] = spell w (body ++ [char '}']) := fun w => by
    rw [spell_append]
    rfl
  rw [hcells, closing_infix_spell hv.ne_nil hv.closing] at hclose
  rwa [hcells, closing_infix_spell hu.ne_nil hu.closing]

/-- A call that one inert word shows is there for every other. -/
theorem call?_spell {name u : List Char} (hu : Inert name u) {m : List Cell} {k : Call}
    (h : call? name (spell u m) = some k) :
    ∃ body rest, m = callCells k.name body ++ rest ∧
      ∀ v, Inert name v → call? name (spell v m) = some ⟨k.name, spell v body⟩ := by
  obtain ⟨haccepted, after, hafter⟩ := call?_eq_some_iff.1 h
  obtain ⟨spelling, args⟩ := k
  have htext : spell u m = opening spelling ++ (args ++ '}' :: '}' :: after) := by
    rw [← hafter]
    simp [Call.whole, Call.opening_eq, Call.closing]
  obtain ⟨m₁, rfl, h₁⟩ := spell_eq_append hu.ne_nil (hu.not_head haccepted.spelling) htext
  obtain ⟨body, m₂, rfl, rfl, h₂⟩ := spell_eq_char hu.closing h₁.symm
  have hsecond : spell u m₂ = [] ++ '}' :: after := h₂.symm
  obtain ⟨gap, rest, rfl, hgap, -⟩ := spell_eq_char hu.closing hsecond
  obtain rfl := spell_eq_nil hu.ne_nil hgap.symm
  refine ⟨body, rest, by simp [callCells, Call.closing], fun v hv => ?_⟩
  refine call?_eq_some_iff.2 ⟨accepted_spell hu hv haccepted, spell v rest, ?_⟩
  rw [← spell_callCells, ← spell_append]
  simp [callCells, Call.closing]

/-- How places part into the calls of `name` and single places, the same for
every word that is inert. -/
inductive Parts (name : List Char) : List Cell → Prop where
  | nil : Parts name []
  | held {m} : Parts name m → Parts name (held :: m)
  | char {c m} : (∀ word, Inert name word → call? name (spell word (char c :: m)) = none) →
      Parts name m → Parts name (char c :: m)
  | call {spelling body m} :
      (∀ word, Inert name word → call? name (spell word (callCells spelling body ++ m)) =
        some ⟨spelling, spell word body⟩) →
      Parts name m → Parts name (callCells spelling body ++ m)

theorem parts {name u : List Char} (hu : Inert name u) (m : List Cell) : Parts name m := by
  match m with
  | [] => exact .nil
  | held :: m => exact .held (parts hu m)
  | char c :: m =>
    cases hcall : call? name (spell u (char c :: m)) with
    | none =>
      refine .char (fun v hv => ?_) (parts hu m)
      -- A call that another word showed would be there for `u` as well.
      rw [Option.eq_none_iff_forall_ne_some]
      intro k hk
      obtain ⟨_, _, _, hall⟩ := call?_spell hv hk
      rw [hall u hu] at hcall
      cases hcall
    | some k =>
      obtain ⟨body, rest, hm, hall⟩ := call?_spell hu hcall
      have hlen : rest.length ≤ m.length := by
        have hlength := congrArg List.length hm
        simp only [callCells, opening, List.length_append, List.length_map,
          List.length_cons] at hlength
        omega
      rw [hm] at hall ⊢
      exact .call hall (parts hu rest)
termination_by m.length

/-! ### Pieces of a spelled text -/

theorem pieces_append {name word : List Char} (hword : '{' ∉ word) (rest : List Char) :
    pieces name (word ++ rest) = word.map .plain ++ pieces name rest := by
  induction word with
  | nil => rfl
  | cons c word ih =>
    simp only [List.mem_cons, not_or] at hword
    have hnone : call? name (c :: (word ++ rest)) = none := by
      rw [call?_eq_none_iff]
      intro hbegins
      obtain ⟨_, _, _, h, _⟩ := hbegins
      exact hword.1 (List.cons.inj h).1.symm
    rw [List.cons_append, pieces_plain hnone, ih hword.2]
    rfl

theorem pieces_callCells {name word spelling : List Char} {body m : List Cell}
    (h : call? name (spell word (callCells spelling body ++ m)) =
      some ⟨spelling, spell word body⟩) :
    pieces name (spell word (callCells spelling body ++ m)) =
      .call ⟨spelling, spell word body⟩ :: pieces name (spell word m) := by
  rw [spell_append, spell_callCells] at h ⊢
  exact pieces_call h

end Cell

end PipeGuard
