import Mathlib
import PipeGuard.Call

/-! What the pattern of a call accepts.

Two braces, a spelling of the name, two colons, arguments and two braces. A
spelling differs from the name in the case of ASCII letters only (`Letter`), and
in the arguments a closing brace stands only before a character that is none
(`Body`).

`call?_eq_some_iff`: the call found at the start of a text is the one call there
that the pattern of the name accepts. `call?_eq_none_iff`: none is found exactly
where no opening is followed by a closing. -/
namespace PipeGuard

/-! ### Spellings -/

/-- What a name's pattern accepts for one of its characters: a letter in either
case, any other character as it is. -/
def Letter (n c : Char) : Prop := if n.isAlpha then c = n.toLower ∨ c = n.toUpper else c = n

abbrev Spelling (name spelling : List Char) : Prop := List.Forall₂ Letter name spelling

theorem toNat_toLower (c : Char) :
    c.toLower.toNat = if 65 ≤ c.toNat ∧ c.toNat ≤ 90 then c.toNat + 32 else c.toNat := by
  simp only [Char.toLower, Char.toNat, UInt32.le_iff_toNat_le, ge_iff_le, Char.reduceVal,
    UInt32.reduceToNat]
  split
  · simp only [UInt32.toNat_add, UInt32.reduceSub, UInt32.reduceToNat]
    omega
  · rfl

theorem toNat_toUpper (c : Char) :
    c.toUpper.toNat = if 97 ≤ c.toNat ∧ c.toNat ≤ 122 then c.toNat - 32 else c.toNat := by
  simp only [Char.toUpper, Char.toNat, UInt32.le_iff_toNat_le, Char.reduceVal,
    UInt32.reduceToNat]
  split
  · simp only [UInt32.toNat_add, UInt32.reduceSub, UInt32.reduceToNat]
    omega
  · rfl

theorem isAlpha_iff (c : Char) :
    c.isAlpha = true ↔ (65 ≤ c.toNat ∧ c.toNat ≤ 90) ∨ (97 ≤ c.toNat ∧ c.toNat ≤ 122) := by
  simp [Char.isAlpha, Char.isUpper, Char.isLower, UInt32.le_iff_toNat_le]

theorem sameLetter_iff {n c : Char} : sameLetter n c = true ↔ Letter n c := by
  simp only [sameLetter, Letter, beq_iff_eq, isAlpha_iff, ← Char.toNat_inj, toNat_toLower,
    toNat_toUpper]
  split_ifs <;> omega

theorem spelled?_eq_some_iff {name text spelling rest : List Char} :
    spelled? name text = some (spelling, rest) ↔
      Spelling name spelling ∧ text = spelling ++ rest := by
  induction name generalizing text spelling with
  | nil =>
    simp only [spelled?, Option.some.injEq, Prod.mk.injEq, List.forall₂_nil_left_iff]
    constructor
    · intro heq
      obtain ⟨rfl, rfl⟩ := heq
      exact ⟨rfl, rfl⟩
    · intro heq
      obtain ⟨rfl, rfl⟩ := heq
      exact ⟨rfl, rfl⟩
  | cons n name ih =>
    constructor
    · intro h
      cases text with
      | nil => simp [spelled?] at h
      | cons c text =>
        simp only [spelled?] at h
        split at h
        · rename_i hc
          obtain ⟨⟨s, r⟩, hs, heq⟩ := Option.map_eq_some_iff.1 h
          simp only [Prod.mk.injEq] at heq
          obtain ⟨rfl, rfl⟩ := heq
          obtain ⟨hspell, rfl⟩ := ih.1 hs
          exact ⟨.cons (sameLetter_iff.1 hc) hspell, rfl⟩
        · simp at h
    · intro hsplit
      obtain ⟨hspell, rfl⟩ := hsplit
      cases hspell with
      | cons hc hspell =>
        rw [List.cons_append, spelled?, if_pos (sameLetter_iff.2 hc), ih.2 ⟨hspell, rfl⟩]
        rfl

theorem eq_of_letter {n c : Char} (hc : c.isAlpha = false) (h : Letter n c) : c = n := by
  by_contra hne
  rw [← sameLetter_iff, sameLetter, beq_iff_eq, ← Char.toNat_inj, toNat_toLower,
    toNat_toLower] at h
  rw [← Bool.not_eq_true, isAlpha_iff] at hc
  rw [← Char.toNat_inj] at hne
  split_ifs at h <;> omega

theorem exists_letter {name spelling : List Char} (h : Spelling name spelling) {c : Char}
    (hc : c ∈ spelling) : ∃ n ∈ name, Letter n c := by
  induction h with
  | nil => cases hc
  | cons hletter _ ih =>
    rcases List.mem_cons.1 hc with rfl | hc
    · exact ⟨_, List.mem_cons_self .., hletter⟩
    · obtain ⟨n, hn, hletter⟩ := ih hc
      exact ⟨n, List.mem_cons_of_mem _ hn, hletter⟩

/-- What is no letter and not in a name is in no spelling of it. -/
theorem not_mem_spelling {name spelling : List Char} {c : Char} (hc : c.isAlpha = false)
    (hname : c ∉ name) (h : Spelling name spelling) : c ∉ spelling := by
  intro hmem
  obtain ⟨n, hn, hletter⟩ := exists_letter h hmem
  exact hname (eq_of_letter hc hletter ▸ hn)

/-! ### Arguments -/

/-- The arguments that a pattern accepts: a closing brace stands only before a
character that is none. -/
inductive Body : List Char → Prop where
  | nil : Body []
  | plain {c rest} : c ≠ '}' → Body rest → Body (c :: rest)
  | brace {c rest} : c ≠ '}' → Body rest → Body ('}' :: c :: rest)

theorem not_closing_cons {c : Char} (h : c ≠ '}') (rest : List Char) :
    ¬ Call.closing <+: c :: rest := by
  intro hstarts
  obtain ⟨tail, ht⟩ := hstarts
  simp only [Call.closing, List.cons_append, List.cons.injEq] at ht
  exact h ht.1.symm

/-- A closing in front of which one character is put is still looked for behind it. -/
theorem closing_infix_cons {c : Char} (h : c ≠ '}') (rest : List Char) :
    Call.closing <:+: c :: rest ↔ Call.closing <:+: rest := by
  rw [List.infix_cons_iff]
  exact or_iff_right (not_closing_cons h rest)

theorem Body.not_closing {args : List Char} (h : Body args) :
    ¬ Call.closing <:+: args ++ ['}'] := by
  induction h with
  | nil => decide
  | plain hc _ ih => rwa [List.cons_append, closing_infix_cons hc]
  | @brace c rest hc _ ih =>
    rw [List.cons_append, List.infix_cons_iff, List.cons_append, closing_infix_cons hc]
    intro hfound
    rcases hfound with ⟨tail, ht⟩ | h
    · simp only [Call.closing, List.cons_append, List.nil_append, List.cons.injEq] at ht
      exact hc ht.2.1.symm
    · exact ih h

theorem body_of_not_closing : ∀ {args : List Char}, ¬ Call.closing <:+: args ++ ['}'] → Body args
  | [], _ => .nil
  | c :: rest, h => by
    by_cases hc : c = '}'
    · subst hc
      match rest, h with
      | [], h => exact absurd (List.infix_refl _) h
      | d :: rest, h =>
        have hd : d ≠ '}' := by
          intro heq
          subst heq
          exact h ⟨[], rest ++ ['}'], rfl⟩
        exact .brace hd (body_of_not_closing fun hi => h (hi.trans ⟨['}', d], [], by simp⟩))
    · exact .plain hc (body_of_not_closing fun hi => h (hi.trans ⟨[c], [], by simp⟩))

/-- **The pattern's arguments are those with no closing in them that do not end
in a closing brace.** -/
theorem body_iff {args : List Char} : Body args ↔ ¬ Call.closing <:+: args ++ ['}'] :=
  ⟨Body.not_closing, body_of_not_closing⟩

theorem closed?_eq_some_iff {text args rest : List Char} :
    closed? text = some (args, rest) ↔ Body args ∧ text = args ++ Call.closing ++ rest := by
  constructor
  · intro h
    refine ⟨?_, closed?_eq_append h⟩
    fun_induction closed? text generalizing args with
    | case1 rest' =>
      simp only [Option.some.injEq, Prod.mk.injEq] at h
      exact h.1 ▸ .nil
    | case2 c rest' hc ih =>
      obtain ⟨⟨a, r⟩, hs, heq⟩ := Option.map_eq_some_iff.1 h
      simp only [Prod.mk.injEq] at heq
      obtain ⟨rfl, rfl⟩ := heq
      have hbody := ih hs
      have hrest := closed?_eq_append hs
      by_cases hbrace : c = '}'
      · -- The brace is lone, so the arguments go on after it with another character.
        cases hbody with
        | nil => exact absurd hrest (hc ('}' :: r) hbrace)
        | plain hd hbody => exact hbrace ▸ .brace hd hbody
        | brace hd hbody => exact absurd hrest (hc _ hbrace)
      · exact .plain hbrace hbody
    | case3 => simp at h
  · intro hsplit
    obtain ⟨hbody, rfl⟩ := hsplit
    induction hbody with
    | nil => rfl
    | @plain c args hc _ ih =>
      have hnot : ∀ t, c = '}' → args ++ Call.closing ++ rest = '}' :: t → False :=
        fun _ h => absurd h hc
      rw [List.cons_append, List.cons_append, closed?.eq_2 _ _ hnot, ih]
      rfl
    | @brace c args hc _ ih =>
      have hlone : ∀ t, '}' = '}' → c :: (args ++ Call.closing ++ rest) = '}' :: t → False :=
        fun _ _ h => hc (List.cons.inj h).1
      have hnot : ∀ t, c = '}' → args ++ Call.closing ++ rest = '}' :: t → False :=
        fun _ h => absurd h hc
      simp only [List.cons_append]
      rw [closed?.eq_2 _ _ hlone, closed?.eq_2 _ _ hnot, ih]
      rfl

theorem closed?_eq_none_iff {text : List Char} :
    closed? text = none ↔ ¬ Call.closing <:+: text := by
  fun_induction closed? text with
  | case1 rest =>
    have : Call.closing <:+: '}' :: '}' :: rest := ⟨[], rest, rfl⟩
    simp [this]
  | case2 c rest hc ih =>
    have hnot : ¬ Call.closing <+: c :: rest := by
      intro hstarts
      obtain ⟨tail, ht⟩ := hstarts
      simp only [Call.closing, List.cons_append, List.nil_append, List.cons.injEq] at ht
      exact hc tail ht.1.symm ht.2.symm
    rw [Option.map_eq_none_iff, ih, List.infix_cons_iff, or_iff_right hnot]
  | case3 => decide

/-- The arguments end at the first closing there is. -/
theorem Body.length_le {args rest lead tail : List Char} (h : Body args)
    (heq : args ++ Call.closing ++ rest = lead ++ Call.closing ++ tail) :
    args.length ≤ lead.length := by
  by_contra hlt
  have hlead : lead ++ Call.closing <+: args ++ Call.closing ++ rest := ⟨tail, heq.symm⟩
  have hargs : args ++ ['}'] <+: args ++ Call.closing ++ rest :=
    ⟨'}' :: rest, by simp [Call.closing]⟩
  have hsub : lead ++ Call.closing <+: args ++ ['}'] := by
    apply List.prefix_of_prefix_length_le hlead hargs
    simp only [List.length_append, Call.closing, List.length_cons, List.length_nil]
    omega
  exact h.not_closing ((List.suffix_append lead _).isInfix.trans hsub.isInfix)

/-! ### Calls -/

/-- What a call opens with, its name spelled so. -/
def opening (spelling : List Char) : List Char := '{' :: '{' :: spelling ++ [':', ':']

theorem mem_opening {spelling : List Char} {c : Char} :
    c ∈ opening spelling ↔ c = '{' ∨ c = ':' ∨ c ∈ spelling := by
  simp only [opening, List.mem_append, List.mem_cons, List.not_mem_nil, or_false]
  grind

theorem Call.opening_eq (k : Call) : k.opening = PipeGuard.opening k.name := rfl

theorem opened?_eq_some_iff {name text spelling rest : List Char} :
    opened? name text = some (spelling, rest) ↔
      Spelling name spelling ∧ text = opening spelling ++ rest := by
  constructor
  · intro h
    refine ⟨?_, opened?_eq_append h⟩
    simp only [opened?] at h
    split at h
    · split at h
      · rename_i hs
        simp only [Option.some.injEq, Prod.mk.injEq] at h
        exact h.1 ▸ (spelled?_eq_some_iff.1 hs).1
      · simp at h
    · simp at h
  · intro hsplit
    obtain ⟨hspell, rfl⟩ := hsplit
    have hs : spelled? name (spelling ++ ':' :: ':' :: rest) = some (spelling, ':' :: ':' :: rest) :=
      spelled?_eq_some_iff.2 ⟨hspell, rfl⟩
    simp [opened?, opening, hs]

/-- The pattern of `name` accepts the text of the call. -/
structure Accepted (name : List Char) (k : Call) : Prop where
  spelling : Spelling name k.name
  body : Body k.args

/-- An opening of `name` stands at the start of the text, and a closing somewhere
after it. -/
def Begins (name text : List Char) : Prop :=
  ∃ spelling rest, Spelling name spelling ∧ text = opening spelling ++ rest ∧
    Call.closing <:+: rest

/-- **The call found is the one that the pattern accepts.** -/
theorem call?_eq_some_iff {name text : List Char} {k : Call} :
    call? name text = some k ↔ Accepted name k ∧ k.whole <+: text := by
  constructor
  · intro h
    obtain ⟨rest, hrest⟩ := call?_eq_append h
    refine ⟨?_, rest, hrest.symm⟩
    simp only [call?] at h
    split at h
    · simp at h
    · rename_i hopen
      obtain ⟨⟨args, after⟩, hclose, rfl⟩ := Option.map_eq_some_iff.1 h
      exact ⟨(opened?_eq_some_iff.1 hopen).1, (closed?_eq_some_iff.1 hclose).1⟩
  · intro hwritten
    obtain ⟨⟨hspell, hbody⟩, rest, rfl⟩ := hwritten
    have hopen : opened? name (k.whole ++ rest) = some (k.name, k.args ++ Call.closing ++ rest) :=
      opened?_eq_some_iff.2 ⟨hspell, by simp [Call.whole, Call.opening_eq]⟩
    simp only [call?, hopen, closed?_eq_some_iff.2 ⟨hbody, rfl⟩, Option.map_some]

theorem call?_eq_none_iff {name text : List Char} :
    call? name text = none ↔ ¬ Begins name text := by
  simp only [call?]
  split
  · rename_i hnone
    simp only [true_iff]
    intro hbegins
    obtain ⟨spelling, rest, hspell, htext, _⟩ := hbegins
    rw [opened?_eq_some_iff.2 ⟨hspell, htext⟩] at hnone
    cases hnone
  · rename_i spelling rest hopen
    obtain ⟨hspell, htext⟩ := opened?_eq_some_iff.1 hopen
    rw [Option.map_eq_none_iff, closed?_eq_none_iff, not_iff_not]
    constructor
    · exact fun hclose => ⟨spelling, rest, hspell, htext, hclose⟩
    · intro hbegins
      obtain ⟨spelling', rest', hspell', htext', hclose⟩ := hbegins
      have hsame := hopen.symm.trans (opened?_eq_some_iff.2 ⟨hspell', htext'⟩)
      simp only [Option.some.injEq, Prod.mk.injEq] at hsame
      exact hsame.2 ▸ hclose

/-- What is accepted begins a call, and the other way round. -/
theorem begins_iff {name text : List Char} :
    Begins name text ↔ ∃ k, Accepted name k ∧ k.whole <+: text := by
  rw [← not_iff_not, ← call?_eq_none_iff, Option.eq_none_iff_forall_ne_some]
  simp only [ne_eq, call?_eq_some_iff, not_exists]

end PipeGuard
