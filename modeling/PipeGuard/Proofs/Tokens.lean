import Mathlib.Tactic.SplitIfs
import PipeGuard.Json.Literal
import PipeGuard.Json.Printer

/-! Strings and numbers read back.

A character of a string is written as it is, or as an escape that stands for it
(`writtenChar_cases`), so a string reads back whatever comes after it (`string_written`).
A number ends where no digit, point or exponent follows (`Stops`), and there the digits
of a whole number of 64 bits are read exactly (`number_digits`). Those of other numbers
need not be: a double is read with more than one rounding. -/
namespace PipeGuard.Json

/-- A text that does not go on with a number: it is at its end, at a punctuation mark or at the end
of a line. -/
def Stops (rest : List Char) : Prop :=
  ∀ c, rest.head? = some c → c = ',' ∨ c = ']' ∨ c = '\x7d' ∨ c = '\n'

theorem stops_nil : Stops [] := fun _ h => nomatch h

theorem stops_cons {c : Char} {rest : List Char}
    (h : c = ',' ∨ c = ']' ∨ c = '\x7d' ∨ c = '\n') : Stops (c :: rest) :=
  fun _ hc => Option.some.inj hc ▸ h

theorem skipGap_cons {c : Char} {rest : List Char} (h : isGap c = false) (position : Position) :
    Cursor.skipGap ⟨c :: rest, position⟩ = ⟨c :: rest, position⟩ := by
  show gapFrom (c :: rest) position = _
  rw [gapFrom, h]
  rfl

/-- Blanks are skipped, however many. -/
theorem skipGap_gap {gap : List Char} (h : ∀ c ∈ gap, isGap c = true) {c : Char}
    (hc : isGap c = false) (rest : List Char) (position : Position) :
    ∃ position', Cursor.skipGap ⟨gap ++ c :: rest, position⟩ = ⟨c :: rest, position'⟩ := by
  induction gap generalizing position with
  | nil => exact ⟨position, skipGap_cons hc position⟩
  | cons x gap ih =>
    obtain ⟨hx, hgap⟩ := List.forall_mem_cons.mp h
    obtain ⟨position', hskip⟩ := ih hgap (position.after x)
    refine ⟨position', ?_⟩
    show gapFrom (x :: (gap ++ c :: rest)) position = _
    rw [gapFrom, if_pos hx]
    exact hskip

/-- A text that a list may go on with: neither a blank nor a closing bracket comes first. -/
def Begins (text : List Char) : Prop :=
  ∃ c tail, text = c :: tail ∧ isGap c = false ∧ c ≠ ']'

theorem begins_cons {c : Char} {tail : List Char} (h : isGap c = false ∧ c ≠ ']') :
    Begins (c :: tail) := ⟨c, tail, rfl, h.1, h.2⟩

theorem Begins.skipGap {text : List Char} (h : Begins text) (rest : List Char)
    (position : Position) :
    Cursor.skipGap ⟨text ++ rest, position⟩ = ⟨text ++ rest, position⟩ := by
  obtain ⟨c, tail, rfl, hgap, -⟩ := h
  exact skipGap_cons hgap position

theorem begins_digit {d : Char} (h : d.isDigit = true) (tail : List Char) : Begins (d :: tail) := by
  refine begins_cons ⟨Bool.eq_false_iff.mpr fun hgap => ?_, ?_⟩
  · simp only [isGap, Bool.or_eq_true, decide_eq_true_eq] at hgap
    rcases hgap with ((rfl | rfl) | rfl) | rfl <;> cases h
  · rintro rfl
    cases h

namespace Read

/-- Where a value may end, the reader takes just the text, and gives the value. -/
def Takes {α : Type} (reader : Cursor → Read α) (text : List Char) (x : α) : Prop :=
  ∀ rest position, Stops rest →
    ∃ position', reader ⟨text ++ rest, position⟩ = .ok (x, ⟨rest, position'⟩)

theorem Takes.map {α β : Type} {reader : Cursor → Read α} {reader' : Cursor → Read β}
    {text : List Char} {x : α} (h : Takes reader text x) (f : α → β)
    (hmap : ∀ c, reader' c = (reader c).map fun (x, c) => (f x, c)) : Takes reader' text (f x) := by
  intro rest position hrest
  obtain ⟨position', hread⟩ := h rest position hrest
  refine ⟨position', ?_⟩
  rw [hmap, hread]
  rfl

/-! ### Strings -/

theorem hexValue_hexDigit (n : Nat) : hexValue? (hexDigit n) = some (n % 16) := by
  have hall : ∀ d < 16, hexValue? (Nat.digitChar d) = some d := by decide
  exact hall (n % 16) (Nat.mod_lt n (by decide))

/-- A control character is read from its four digits. -/
theorem codePoint_control {c : Char} (h : c.toNat < 0x20) (rest : List Char) (position : Position) :
    ∃ position', codePoint
        ⟨'0' :: '0' :: hexDigit (c.toNat / 16) :: hexDigit c.toNat :: rest, position⟩ =
      .ok (c, ⟨rest, position'⟩) := by
  have hunit : hexUnit? ['0', '0', hexDigit (c.toNat / 16), hexDigit c.toNat] = some c.toNat := by
    have hzero : hexValue? '0' = some 0 := by decide
    simp only [hexUnit?, hzero, hexValue_hexDigit, Option.bind_eq_bind, Option.bind_some]
    refine congrArg some ?_
    omega
  obtain ⟨position', hcode⟩ : ∃ position', codeUnit
      ⟨'0' :: '0' :: hexDigit (c.toNat / 16) :: hexDigit c.toNat :: rest, position⟩ =
        .ok (c.toNat, ⟨rest, position'⟩) := by
    unfold codeUnit
    simp only [List.take_succ_cons, List.take_zero, hunit]
    exact ⟨_, rfl⟩
  have htrailing : isTrailing c.toNat = false := by
    unfold isTrailing
    simp only [Bool.and_eq_false_iff, decide_eq_false_iff_not]
    omega
  have hleading : isLeading c.toNat = false := by
    unfold isLeading
    simp only [Bool.and_eq_false_iff, decide_eq_false_iff_not]
    omega
  refine ⟨position', ?_⟩
  unfold codePoint
  rw [hcode]
  simp only [bind, Except.bind, htrailing, hleading, Bool.false_eq_true, if_false, Bool.not_false,
    if_true, Char.ofNat_toNat]
  rfl

theorem escapeSequence_short {letter c : Char} (h : shortEscape? letter = some c)
    (rest : List Char) (position : Position) :
    ∃ position', escapeSequence ⟨letter :: rest, position⟩ = .ok (c, ⟨rest, position'⟩) := by
  have hletter : letter ≠ 'u' := by
    rintro rfl
    cases h
  unfold escapeSequence
  split
  · case _ hnil => cases hnil
  · case _ heq => exact absurd (List.cons.inj heq).1 hletter
  · case _ heq =>
    cases heq
    rw [h]
    exact ⟨_, rfl⟩

/-- A character is written as it is, or as an escape that stands for it. -/
theorem writtenChar_cases (c : Char) :
    writtenChar c = [c] ∧ c ≠ '"' ∧ c ≠ '\\' ∧ ¬ c.toNat < 0x20 ∨
      ∃ tail, writtenChar c = '\\' :: tail ∧ ∀ rest position, ∃ position',
        escapeSequence ⟨tail ++ rest, position⟩ = .ok (c, ⟨rest, position'⟩) := by
  unfold writtenChar
  split_ifs with hquote hback hfeed hreturn htab hbell hform hcontrol
  · exact .inr ⟨_, rfl, escapeSequence_short (by rw [hquote]; rfl)⟩
  · exact .inr ⟨_, rfl, escapeSequence_short (by rw [hback]; rfl)⟩
  · exact .inr ⟨_, rfl, escapeSequence_short (hfeed ▸ rfl)⟩
  · exact .inr ⟨_, rfl, escapeSequence_short (hreturn ▸ rfl)⟩
  · exact .inr ⟨_, rfl, escapeSequence_short (htab ▸ rfl)⟩
  · exact .inr ⟨_, rfl, escapeSequence_short (hbell ▸ rfl)⟩
  · exact .inr ⟨_, rfl, escapeSequence_short (hform ▸ rfl)⟩
  · exact .inr ⟨_, rfl, fun rest position => codePoint_control hcontrol rest _⟩
  · exact .inl ⟨rfl, hquote, hback, hcontrol⟩

theorem charsFrom_written {cs bound : List Char} (h : cs.length < bound.length)
    (seen rest : List Char) (position : Position) :
    ∃ position', charsFrom bound seen ⟨cs.flatMap writtenChar ++ '"' :: rest, position⟩ =
      .ok (seen.reverse ++ cs, ⟨rest, position'⟩) := by
  induction cs generalizing bound seen position with
  | nil =>
    obtain ⟨b, bound, rfl⟩ := List.exists_cons_of_length_pos h
    rw [List.append_nil]
    exact ⟨_, rfl⟩
  | cons c cs ih =>
    obtain ⟨b, bound, rfl⟩ := List.exists_cons_of_length_pos (Nat.zero_lt_of_lt h)
    have hlater : cs.length < bound.length := Nat.lt_of_succ_lt_succ h
    rw [List.flatMap_cons, List.append_assoc, List.append_cons seen.reverse, ← List.reverse_cons]
    obtain ⟨hwritten, hquote, hback, hprintable⟩ | ⟨tail, hwritten, hescape⟩ := writtenChar_cases c
    · obtain ⟨position', hread⟩ := ih hlater (c :: seen) (position.after c)
      refine ⟨position', ?_⟩
      rw [hwritten, List.singleton_append, charsFrom]
      split
      · case _ hnil => cases hnil
      · case _ heq => exact absurd (List.cons.inj heq).1 hquote
      · case _ heq => exact absurd (List.cons.inj heq).1 hback
      · case _ heq =>
        obtain ⟨rfl, -⟩ := List.cons.inj heq
        rw [if_neg hprintable]
        exact hread
    · obtain ⟨after, hread⟩ :=
        hescape (cs.flatMap writtenChar ++ '"' :: rest) (position.after '\\')
      obtain ⟨position', hrest⟩ := ih hlater (c :: seen) after
      refine ⟨position', ?_⟩
      rw [hwritten, List.cons_append, charsFrom]
      simp only [Cursor.next, hread]
      exact hrest

theorem length_le_written (cs : List Char) : cs.length ≤ (cs.flatMap writtenChar).length := by
  induction cs with
  | nil => exact Nat.le_refl 0
  | cons c cs ih =>
    have hone : 1 ≤ (writtenChar c).length := by
      obtain ⟨hwritten, -⟩ | ⟨tail, hwritten, -⟩ := writtenChar_cases c <;> simp [hwritten]
    rw [List.flatMap_cons, List.length_append, List.length_cons]
    omega

theorem writtenString_append (s : String) (rest : List Char) :
    writtenString s ++ rest = '"' :: (s.toList.flatMap writtenChar ++ '"' :: rest) := by
  unfold writtenString
  rw [List.cons_append, List.cons_append, List.append_assoc]
  rfl

/-- **A string reads back**, after its first quote. -/
theorem string_written (s : String) (rest : List Char) (position : Position) :
    ∃ position', string (Cursor.next ⟨writtenString s ++ rest, position⟩) =
      .ok (s, ⟨rest, position'⟩) := by
  have hbound : s.toList.length < (s.toList.flatMap writtenChar ++ '"' :: rest).length := by
    have := length_le_written s.toList
    rw [List.length_append, List.length_cons]
    omega
  obtain ⟨position', hread⟩ := charsFrom_written hbound [] rest (position.after '"')
  refine ⟨position', ?_⟩
  rw [writtenString_append]
  show string ⟨s.toList.flatMap writtenChar ++ '"' :: rest, position.after '"'⟩ = _
  unfold string chars
  rw [hread]
  show Except.ok (String.ofList s.toList, _) = _
  rw [String.ofList_toList]

/-! ### Numbers -/

theorem isDigit_stops {rest : List Char} (h : Stops rest) {c : Char} (hc : rest.head? = some c) :
    c.isDigit = false := by
  rcases h c hc with rfl | rfl | rfl | rfl <;> decide

theorem startsExponent_stops {rest : List Char} (h : Stops rest) : startsExponent rest = false := by
  cases rest with
  | nil => rfl
  | cons c rest => rcases h c rfl with rfl | rfl | rfl | rfl <;> rfl

theorem digitsFrom_append {ds rest : List Char} (hds : ∀ d ∈ ds, d.isDigit = true)
    (hrest : ∀ c, rest.head? = some c → c.isDigit = false) (position : Position)
    (seen : List Char) :
    ∃ position', digitsFrom (ds ++ rest) position seen =
      (seen.reverse ++ ds, ⟨rest, position'⟩) := by
  induction ds generalizing position seen with
  | nil =>
    rw [List.append_nil, List.nil_append]
    cases rest with
    | nil => exact ⟨_, rfl⟩
    | cons c rest =>
      refine ⟨position, ?_⟩
      rw [digitsFrom, hrest c rfl]
      rfl
  | cons d ds ih =>
    obtain ⟨position', hread⟩ :=
      ih (fun d hd => hds d (List.mem_cons_of_mem _ hd)) (position.after d) (d :: seen)
    refine ⟨position', ?_⟩
    rw [List.cons_append, digitsFrom, if_pos (hds d List.mem_cons_self), hread,
      List.reverse_cons, List.append_assoc]
    rfl

/-- One more digit of a number. -/
theorem ofDigitChars_digit (d : Char) (ds : List Char) (n : Nat) :
    Nat.ofDigitChars 10 (d :: ds) n = Nat.ofDigitChars 10 ds (n * 10 + digitValue d) := by
  rw [Nat.ofDigitChars_cons, Nat.mul_comm]
  rfl

theorem le_ofDigitChars (ds : List Char) (n : Nat) : n ≤ Nat.ofDigitChars 10 ds n := by
  induction ds generalizing n with
  | nil => exact Nat.le_refl n
  | cons d ds ih =>
    rw [Nat.ofDigitChars_cons]
    exact Nat.le_trans (by omega) (ih _)

/-- Digits that fit are all taken. -/
theorem gather_fits {ds : List Char} {n : Nat}
    (h : Nat.ofDigitChars 10 ds n ≤ greatestSignificand) :
    gather n ds = (Nat.ofDigitChars 10 ds n, []) := by
  induction ds generalizing n with
  | nil => rfl
  | cons d ds ih =>
    rw [ofDigitChars_digit] at h ⊢
    unfold gather
    rw [if_pos (Nat.le_trans (le_ofDigitChars _ _) h), ih h]

/-- Only zero begins with a zero. -/
theorem toDigits_eq_zero_cons {n : Nat} {ds : List Char} (h : Nat.toDigits 10 n = '0' :: ds) :
    n = 0 := by
  induction n using Nat.strongRecOn generalizing ds with
  | ind n ih =>
    by_cases hsmall : n < 10
    · rw [Nat.toDigits_of_lt_base hsmall] at h
      exact Nat.digitChar_eq_zero.mp (List.cons.inj h).1
    · rw [Nat.toDigits_of_base_le (by decide) (Nat.le_of_not_lt hsmall)] at h
      obtain ⟨d, rest, hfirst⟩ := List.exists_cons_of_ne_nil (@Nat.toDigits_ne_nil (n / 10) 10)
      rw [hfirst] at h
      obtain rfl := (List.cons.inj h).1
      have := ih (n / 10) (by omega) hfirst
      omega

theorem toDigits_cons (n : Nat) :
    ∃ d ds, Nat.toDigits 10 n = d :: ds ∧ d.isDigit = true := by
  obtain ⟨d, ds, hfirst⟩ := List.exists_cons_of_ne_nil (@Nat.toDigits_ne_nil n 10)
  exact ⟨d, ds, hfirst,
    Nat.isDigit_of_mem_toDigits (by decide) (by decide) (hfirst ▸ List.mem_cons_self)⟩

/-- The digits that a number begins with. A zero is not looked past, and may only stand alone. -/
theorem leading_digits {d : Char} {ds rest : List Char} (hds : ∀ c ∈ d :: ds, c.isDigit = true)
    (hzero : d = '0' → ds = []) (hrest : ∀ c, rest.head? = some c → c.isDigit = false)
    (position : Position) :
    ∃ position', (if d = '0' then ([d], Cursor.next ⟨d :: ds ++ rest, position⟩)
      else digits ⟨d :: ds ++ rest, position⟩) = (d :: ds, ⟨rest, position'⟩) := by
  split
  · case _ h =>
    obtain rfl := hzero h
    exact ⟨_, rfl⟩
  · exact digitsFrom_append hds hrest position []

/-- **A whole number that fits reads back**, after its sign. -/
theorem number_digits (negative : Bool) {n : Nat} (h : n ≤ greatestSignificand) :
    Takes (number negative) (Nat.toDigits 10 n) (whole negative n) := by
  intro rest position hrest
  have hdigits : ∀ d ∈ Nat.toDigits 10 n, d.isDigit = true := fun d hd =>
    Nat.isDigit_of_mem_toDigits (by decide) (by decide) hd
  have hgather : gather 0 (Nat.toDigits 10 n) = (n, []) := by
    have hvalue := @Nat.ofDigitChars_ten_toDigits n
    rw [gather_fits (by rw [hvalue]; exact h), hvalue]
  obtain ⟨d, ds, hfirst, hd⟩ := toDigits_cons n
  obtain ⟨position', hread⟩ := leading_digits (hfirst ▸ hdigits)
    (fun hzero => by
      obtain rfl : n = 0 := toDigits_eq_zero_cons (hzero ▸ hfirst)
      exact (List.cons.inj hfirst).2.symm)
    (fun c hc => isDigit_stops hrest hc) position
  rw [hfirst] at hgather ⊢
  refine ⟨position', ?_⟩
  unfold number
  simp only [List.cons_append, if_pos hd] at hread ⊢
  rw [hread]
  simp only [hgather]
  cases rest with
  | nil => rfl
  | cons c rest =>
    rcases hrest c rfl with rfl | rfl | rfl | rfl <;> simp [startsExponent]

end Read

end PipeGuard.Json
