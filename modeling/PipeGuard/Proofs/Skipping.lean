import Mathlib.Logic.Basic
import PipeGuard.Json.Skip
import PipeGuard.Proofs.Record

/-! Values that are passed over.

A value that nobody asked for is passed over with the open arrays and objects on a stack, and
strings and numbers are not decoded. `value_of_read`: what can be read can be passed over too, and
both stop at the same place. The other way does not hold: what is passed over may be too deep, its
numbers too large, or its strings half a pair of surrogates. -/
namespace PipeGuard.Json

/-! ### What is left of a text -/

namespace Cursor

theorem suffix_skipGap (c : Cursor) : c.skipGap.rest <:+ c.rest :=
  rest_skipGap c ▸ List.dropWhile_suffix _

theorem suffix_next (c : Cursor) : c.next.rest <:+ c.rest := rest_next c ▸ List.tail_suffix _

theorem next_of_rest {c : Cursor} {x : Char} {rest : List Char} (h : c.rest = x :: rest) :
    c.next.rest = rest := by
  rw [rest_next, h, List.tail_cons]

/-- A reader that goes on from the next character leaves less. -/
theorem length_lt_of_next {c c' : Cursor} {x : Char} {rest : List Char} (h : c.rest = x :: rest)
    (hsuffix : c'.rest <:+ c.next.rest) : c'.rest.length < c.rest.length := by
  rw [next_of_rest h] at hsuffix
  rw [h, List.length_cons]
  exact Nat.lt_succ_of_le hsuffix.length_le

theorem suffix_word {letters : List Char} {c c' : Cursor} (h : c.word letters = .ok c') :
    c'.rest <:+ c.rest := by
  induction letters generalizing c with
  | nil =>
    cases h
    exact List.suffix_refl _
  | cons letter letters ih =>
    rw [word] at h
    split at h
    · cases h
    · split at h
      · exact (ih h).trans c.suffix_next
      · cases h

end Cursor

namespace Read

open Cursor (suffix_next)

theorem suffix_digitsFrom (text : List Char) (position : Position) (seen : List Char) :
    (digitsFrom text position seen).2.rest <:+ text := by
  induction text generalizing position seen with
  | nil => exact List.suffix_refl _
  | cons c text ih =>
    rw [digitsFrom]
    split
    · exact (ih _ _).trans (List.suffix_cons c text)
    · exact List.suffix_refl _

theorem suffix_digits (c : Cursor) : (digits c).2.rest <:+ c.rest := suffix_digitsFrom _ _ _

theorem suffix_codeUnit {c c' : Cursor} {unit : Nat} (h : codeUnit c = .ok (unit, c')) :
    c'.rest <:+ c.rest := by
  unfold codeUnit at h
  split at h
  · cases h
    exact (suffix_next _).trans ((suffix_next _).trans ((suffix_next _).trans (suffix_next c)))
  · split at h <;> cases h

theorem colon_eq_ok {c c' : Cursor} (h : colon c = .ok c') :
    (∃ rest, c.skipGap.rest = ':' :: rest) ∧ c' = c.skipGap.next := by
  unfold colon at h
  simp only at h
  split at h
  · cases h
  · case _ rest hrest =>
    cases h
    exact ⟨⟨rest, hrest⟩, rfl⟩
  · cases h

theorem closeArray_eq_ok {c c' : Cursor} (h : closeArray c = .ok c') : c' = c.skipGap.next := by
  unfold closeArray at h
  simp only at h
  split at h
  · cases h
  · cases h
    rfl
  · split at h <;> cases h
  · cases h

theorem closeObject_eq_ok {c c' : Cursor} (h : closeObject c = .ok c') : c' = c.skipGap.next := by
  unfold closeObject at h
  simp only at h
  split at h
  · cases h
  · cases h
    rfl
  · cases h
  · cases h

/-- An array goes on, at its start or behind a comma, or it is at its bracket. -/
theorem nextItem_eq_ok {first more : Bool} {c c' : Cursor} (h : nextItem first c = .ok (more, c')) :
    (more = false ∧ c' = c.skipGap ∧ ∃ rest, c.skipGap.rest = ']' :: rest) ∨
    (more = true ∧ first = true ∧ c' = c.skipGap ∧ ∃ x rest, c.skipGap.rest = x :: rest ∧ x ≠ ']') ∨
    (more = true ∧ first = false ∧ c' = c.skipGap.next.skipGap ∧
      ∃ rest, c.skipGap.rest = ',' :: rest) := by
  unfold nextItem at h
  simp only at h
  split at h
  · cases h
  · case _ rest hrest =>
    cases h
    exact .inl ⟨rfl, rfl, rest, hrest⟩
  · case _ x rest hclose hrest =>
    cases first with
    | true =>
      cases h
      exact .inr (.inl ⟨rfl, rfl, rfl, x, rest, hrest, fun hx => hclose hx⟩)
    | false =>
      rw [if_neg Bool.false_ne_true] at h
      split at h
      · case _ hcomma =>
        split at h
        · cases h
        · cases h
        · cases h
          exact .inr (.inr ⟨rfl, rfl, rfl, rest, hcomma ▸ hrest⟩)
      · cases h

/-- An object goes on with a key, at its start or behind a comma, or it is at its brace. -/
theorem nextKey_eq_ok {first : Bool} {key? : Option String} {c c' : Cursor}
    (h : nextKey first c = .ok (key?, c')) :
    (key? = none ∧ c' = c.skipGap ∧ ∃ rest, c.skipGap.rest = '\x7d' :: rest) ∨
    ∃ key rest, key? = some key ∧
      ((first = true ∧ c.skipGap.rest = '"' :: rest ∧ string c.skipGap.next = .ok (key, c')) ∨
        (first = false ∧ (∃ tail, c.skipGap.rest = ',' :: tail) ∧
          c.skipGap.next.skipGap.rest = '"' :: rest ∧
          string c.skipGap.next.skipGap.next = .ok (key, c'))) := by
  unfold nextKey at h
  simp only at h
  split at h
  · cases h
  · case _ rest hrest =>
    cases h
    exact .inl ⟨rfl, rfl, rest, hrest⟩
  · case _ x rest _ hrest =>
    cases first with
    | true =>
      rw [if_pos rfl] at h
      split at h
      · case _ hquote =>
        obtain ⟨⟨key, c₁⟩, hread, heq⟩ := map_eq_ok h
        cases heq
        exact .inr ⟨key, rest, rfl, .inl ⟨rfl, hquote ▸ hrest, hread⟩⟩
      · cases h
    | false =>
      rw [if_neg Bool.false_ne_true] at h
      split at h
      · case _ hcomma =>
        split at h
        · cases h
        · case _ tail htail =>
          obtain ⟨⟨key, c₁⟩, hread, heq⟩ := map_eq_ok h
          cases heq
          exact .inr ⟨key, tail, rfl, .inr ⟨rfl, ⟨rest, hcomma ▸ hrest⟩, htail, hread⟩⟩
        · cases h
        · cases h
      · cases h

end Read

namespace Skip

open Cursor (suffix_next suffix_skipGap)

/-! ### Strings -/

theorem pairMark_eq_ok {x : Char} {c c' : Cursor} (h : Read.pairMark x c = .ok c') :
    (∃ rest, c.rest = x :: rest) ∧ c' = c.next := by
  unfold Read.pairMark at h
  split at h
  · cases h
  · case _ y rest hrest =>
    split at h
    · case _ hmark =>
      cases h
      exact ⟨⟨rest, hmark ▸ hrest⟩, rfl⟩
    · cases h

/-- A code point is one unit, or two with their marks. -/
theorem codePoint_eq_ok {c c' : Cursor} {x : Char} (h : Read.codePoint c = .ok (x, c')) :
    ∃ unit half, Read.codeUnit c = .ok (unit, half) ∧ (c' = half ∨
      ∃ tail unit', half.rest = '\\' :: tail ∧ (∃ tail', half.next.rest = 'u' :: tail') ∧
        Read.codeUnit half.next.next = .ok (unit', c')) := by
  unfold Read.codePoint at h
  simp only [bind, Except.bind] at h
  split at h
  · cases h
  · case _ found hunit =>
    obtain ⟨unit, half⟩ := found
    refine ⟨unit, half, hunit, ?_⟩
    split at h
    · cases h
    · split at h
      · cases h
        exact .inl rfl
      · split at h
        · cases h
        · case _ hback =>
          obtain ⟨⟨tail, htail⟩, rfl⟩ := pairMark_eq_ok hback
          split at h
          · cases h
          · case _ hletter =>
            obtain ⟨htail', rfl⟩ := pairMark_eq_ok hletter
            split at h
            · cases h
            · case _ found' hunit' =>
              obtain ⟨unit', c₁⟩ := found'
              split at h
              · obtain ⟨-, rfl⟩ := Prod.mk.inj (Except.ok.inj h)
                exact .inr ⟨tail, unit', htail, htail', hunit'⟩
              · cases h

theorem escapeSequence_unit {c c' : Cursor} {unit : Nat} (hmark : ∃ tail, c.rest = 'u' :: tail)
    (h : Read.codeUnit c.next = .ok (unit, c')) :
    escapeSequence c = .ok c' ∧ c'.rest <:+ c.rest := by
  obtain ⟨tail, htail⟩ := hmark
  refine ⟨?_, (Read.suffix_codeUnit h).trans (suffix_next c)⟩
  unfold escapeSequence
  simp only [htail, h]
  rfl

/-- An escape that is read is passed over, a pair of surrogates in two goes. -/
theorem escapeSequence_of_read {c c' : Cursor} {x : Char}
    (h : Read.escapeSequence c = .ok (x, c')) :
    (escapeSequence c = .ok c' ∧ c'.rest <:+ c.rest) ∨
      ∃ half tail, escapeSequence c = .ok half ∧ half.rest <:+ c.rest ∧ half.rest = '\\' :: tail ∧
        escapeSequence half.next = .ok c' ∧ c'.rest <:+ half.next.rest := by
  unfold Read.escapeSequence at h
  split at h
  · cases h
  · case _ tail htail =>
    obtain ⟨unit, half, hunit, rfl | ⟨tail', unit', hback, hletter, hunit'⟩⟩ := codePoint_eq_ok h
    · exact .inl (escapeSequence_unit ⟨tail, htail⟩ hunit)
    · obtain ⟨hhalf, hsuffix⟩ := escapeSequence_unit ⟨tail, htail⟩ hunit
      obtain ⟨hwhole, hsuffix'⟩ := escapeSequence_unit hletter hunit'
      exact .inr ⟨half, tail', hhalf, hsuffix, hback, hwhole, hsuffix'⟩
  · case _ letter tail hletter htail =>
    split at h
    · case _ hshort =>
      cases h
      refine .inl ⟨?_, suffix_next c⟩
      unfold escapeSequence
      split
      · case _ hnil => rw [hnil] at htail; cases htail
      · case _ hu => rw [hu] at htail; exact absurd (List.cons.inj htail).1.symm hletter
      · case _ heq =>
        rw [heq] at htail
        rw [(List.cons.inj htail).1, hshort]
        rfl
    · cases h

/-- Characters that are read are passed over, whatever bounds the turns. -/
theorem stringFrom_of_chars {bound seen cs : List Char} {c c' : Cursor}
    (h : Read.charsFrom bound seen c = .ok (cs, c')) {bound' : List Char}
    (hbound : c.rest.length ≤ bound'.length) :
    stringFrom bound' c = .ok c' ∧ c'.rest <:+ c.rest := by
  induction bound generalizing seen c bound' with
  | nil => cases h
  | cons _ bound ih =>
    rw [Read.charsFrom] at h
    -- a turn of either takes a character
    have hturn : ∀ {x rest}, c.rest = x :: rest → ∃ b bound₁, bound' = b :: bound₁ ∧
        c.next.rest.length ≤ bound₁.length := by
      intro x rest hrest
      rw [hrest] at hbound
      obtain ⟨b, bound₁, rfl⟩ := List.exists_cons_of_length_pos (Nat.zero_lt_of_lt hbound)
      exact ⟨b, bound₁, rfl, by rw [Cursor.next_of_rest hrest]; exact Nat.le_of_succ_le_succ hbound⟩
    split at h
    · cases h
    · case _ rest hrest =>
      obtain ⟨b, bound₁, rfl, -⟩ := hturn hrest
      cases h
      refine ⟨?_, suffix_next c⟩
      rw [stringFrom]
      simp only [hrest]
    · case _ rest hrest =>
      obtain ⟨b, bound₁, rfl, hbound₁⟩ := hturn hrest
      split at h
      · cases h
      · case _ x c₁ hescape =>
        obtain ⟨hpass, hsuffix⟩ | ⟨half, tail, hpass, hsuffix, hback, hpass', hsuffix'⟩ :=
          escapeSequence_of_read hescape
        · obtain ⟨hstring, hrest'⟩ := ih h (Nat.le_trans hsuffix.length_le hbound₁)
          refine ⟨?_, hrest'.trans (hsuffix.trans (suffix_next c))⟩
          rw [stringFrom]
          simp only [hrest, hpass]
          exact hstring
        · -- one more turn for the second half
          have hhalf := Nat.le_trans hsuffix.length_le hbound₁
          rw [hback] at hhalf
          obtain ⟨b', bound₂, rfl⟩ := List.exists_cons_of_length_pos (Nat.zero_lt_of_lt hhalf)
          have hbound₂ : half.next.rest.length ≤ bound₂.length := by
            rw [Cursor.next_of_rest hback]
            exact Nat.le_of_succ_le_succ hhalf
          obtain ⟨hstring, hrest'⟩ := ih h (Nat.le_trans hsuffix'.length_le hbound₂)
          refine ⟨?_, hrest'.trans (hsuffix'.trans ((suffix_next half).trans
            (hsuffix.trans (suffix_next c))))⟩
          rw [stringFrom]
          simp only [hrest, hpass]
          rw [stringFrom]
          simp only [hback, hpass']
          exact hstring
    · case _ x rest hquote hback hrest =>
      obtain ⟨b, bound₁, rfl, hbound₁⟩ := hturn hrest
      split at h
      · cases h
      · case _ hprintable =>
        obtain ⟨hstring, hrest'⟩ := ih h hbound₁
        refine ⟨?_, hrest'.trans (suffix_next c)⟩
        rw [stringFrom]
        split
        · case _ hnil => rw [hnil] at hrest; cases hrest
        · case _ heq => rw [heq] at hrest; exact absurd (List.cons.inj hrest).1.symm hquote
        · case _ heq => rw [heq] at hrest; exact absurd (List.cons.inj hrest).1.symm hback
        · case _ heq =>
          rw [heq] at hrest
          rw [(List.cons.inj hrest).1, if_neg hprintable]
          exact hstring

/-- A string that is read is passed over. -/
theorem string_of_read {c c' : Cursor} {s : String} (h : Read.string c = .ok (s, c')) :
    string c = .ok c' ∧ c'.rest <:+ c.rest := by
  obtain ⟨⟨cs, c₁⟩, hchars, heq⟩ := map_eq_ok h
  cases heq
  exact stringFrom_of_chars hchars (Nat.le_refl _)

/-! ### Numbers -/

theorem digitsFrom_seen (text : List Char) (position : Position) (seen : List Char) :
    (Read.digitsFrom text position seen).2 = (Read.digitsFrom text position []).2 := by
  induction text generalizing position seen with
  | nil => rfl
  | cons c text ih =>
    rw [Read.digitsFrom, Read.digitsFrom]
    split
    · rw [ih, ih _ [c]]
    · rfl

/-- The digits of an exponent end at one place, whether they fit or not. -/
theorem digits_exponentFrom {exponent : Nat} {text : List Char} {position : Position}
    {power? : Option Nat} {c : Cursor} (h : Read.exponentFrom exponent text position = (power?, c)) :
    (Read.digits ⟨text, position⟩).2 = if power?.isSome then c else (Read.digits c).2 := by
  unfold Read.digits
  induction text generalizing exponent position with
  | nil =>
    cases h
    rfl
  | cons d text ih =>
    rw [Read.exponentFrom] at h
    rw [Read.digitsFrom]
    split at h
    · case _ hd =>
      rw [if_pos hd, digitsFrom_seen]
      rcases ite_eq_iff.mp h with ⟨-, h⟩ | ⟨-, h⟩
      · exact ih h
      · cases h
        rfl
    · case _ hd =>
      cases h
      rw [if_neg hd]
      rfl

section
variable {negative : Bool} {significand : Nat} {exponent : Int} {c c' : Cursor} {n : Number}

theorem realAt_eq_ok (h : Read.realAt negative significand exponent c = .ok (n, c')) : c' = c := by
  unfold Read.realAt at h
  split at h
  · cases h
    rfl
  · cases h

theorem exponent_of_read (h : Read.withExponent negative significand exponent c = .ok (n, c')) :
    Skip.exponent c = .ok c' ∧ c'.rest <:+ c.rest := by
  unfold Read.withExponent at h
  split at h
  case _ down after hsign =>
  have hafter : after.rest <:+ c.rest ∧ ∀ d rest, after.rest = d :: rest → d.isDigit = true →
      Skip.exponent c = .ok (Read.digits after).2 := by
    split at hsign
    · case _ hrest =>
      cases hsign
      exact ⟨suffix_next c, fun d rest h hd => by simp [Skip.exponent, hrest, h, hd]⟩
    · case _ hrest =>
      cases hsign
      exact ⟨suffix_next c, fun d rest h hd => by simp [Skip.exponent, hrest, h, hd]⟩
    · case _ hplus hminus =>
      cases hsign
      refine ⟨List.suffix_refl _, fun d rest h hd => ?_⟩
      have hfirst : d ≠ '+' ∧ d ≠ '-' :=
        ⟨fun heq => hplus rest (heq ▸ h), fun heq => hminus rest (heq ▸ h)⟩
      simp [Skip.exponent, h, hd, hfirst]
  split at h
  · cases h
  · case _ d rest hrest =>
    split at h
    · case _ hd =>
      have hend : c' = (Read.digits after).2 := by
        split at h
        · case _ hread => exact (realAt_eq_ok h).trans (digits_exponentFrom hread).symm
        · case _ hread =>
          split at h
          · cases h
          · cases h
            exact (digits_exponentFrom hread).symm
      rw [hafter.2 d rest hrest hd, ← hend]
      exact ⟨rfl, hend ▸ (Read.suffix_digits after).trans hafter.1⟩
    · cases h

theorem fraction_of_read (h : Read.withFraction negative significand exponent c = .ok (n, c')) :
    Skip.fraction c = .ok c' ∧ c'.rest <:+ c.rest := by
  have hsuffix := Read.suffix_digits c
  unfold Read.withFraction at h
  simp only at h
  split at h
  · split at h <;> cases h
  · case _ ds after hne hdigits =>
    unfold Skip.fraction
    rw [hdigits] at hsuffix ⊢
    split
    · case _ heq => exact absurd (Prod.mk.inj heq).1 hne
    · case _ heq =>
      cases heq
      split at h
      · case _ hletter =>
        obtain ⟨hpass, hrest⟩ := exponent_of_read h
        rw [if_pos hletter]
        exact ⟨hpass, hrest.trans ((suffix_next after).trans hsuffix)⟩
      · case _ hletter =>
        rw [if_neg hletter]
        exact ⟨congrArg _ (realAt_eq_ok h).symm, realAt_eq_ok h ▸ hsuffix⟩

/-- A number that is read is passed over, its first digit at least. -/
theorem number_of_read (h : Read.number negative c = .ok (n, c')) :
    number c = .ok c' ∧ c'.rest <:+ c.next.rest := by
  unfold Read.number at h
  split at h
  · cases h
  · case _ d rest hrest =>
    split at h
    · case _ hd =>
      split at h
      case _ ds after hleading =>
      have hafter : (if d = '0' then c.next else (Read.digits c).2) = after := by
        have hpast := congrArg Prod.snd hleading
        rwa [apply_ite Prod.snd] at hpast
      have hsuffix : after.rest <:+ c.next.rest := by
        rw [← hafter]
        split
        · exact List.suffix_refl _
        · unfold Read.digits
          rw [Cursor.next_of_rest hrest, hrest, Read.digitsFrom, if_pos hd]
          exact Read.suffix_digitsFrom _ _ _
      have hend : ∀ {significand : Nat} {left : List Char},
          (if left.isEmpty then .ok (Read.whole negative significand, after)
            else Read.realAt negative significand left.length after) = .ok (n, c') → c' = after := by
        intro significand left h
        split at h
        · cases h
          rfl
        · exact realAt_eq_ok h
      split at h
      split at h
      · case _ hpoint =>
        obtain ⟨hpass, hrest'⟩ := fraction_of_read h
        exact ⟨by simp [number, hrest, hd, hafter, hpoint, hpass],
          hrest'.trans ((suffix_next after).trans hsuffix)⟩
      · case _ x tail hpoint htail =>
        split at h
        · cases h
        · case _ hzero =>
          split at h
          · case _ hletter =>
            obtain ⟨hpass, hrest'⟩ := exponent_of_read h
            rw [htail] at hletter
            exact ⟨by simp [number, hrest, hd, hafter, htail, hzero, hletter, hpass],
              hrest'.trans ((suffix_next after).trans hsuffix)⟩
          · case _ hletter =>
            obtain rfl := hend h
            rw [htail] at hletter
            exact ⟨by simp [number, hrest, hd, hafter, htail, hzero, hletter], hsuffix⟩
      · case _ htail =>
        obtain rfl := hend h
        exact ⟨by simp [number, hrest, hd, hafter, htail], hsuffix⟩
    · cases h

end

/-! ### One turn -/

section
variable {frames : List Frame} {c c' : Cursor}

theorem simple?_digit {d : Char} {rest : List Char} (h : c.rest = d :: rest)
    (hd : d.isDigit = true) : simple? c = some (number c) := by
  have hmark : ∀ mark : Char, mark.isDigit = false → d ≠ mark := by
    rintro mark hmark rfl
    rw [hmark] at hd
    cases hd
  unfold simple?
  simp only [h]
  split
  · case _ heq => cases heq
  iterate 7 · case _ heq => exact absurd (List.cons.inj heq).1 (hmark _ (by decide))
  · case _ heq =>
    obtain ⟨rfl, -⟩ := List.cons.inj heq
    rw [if_pos hd]

theorem takeValue_simple (h : simple? c.skipGap = some (.ok c')) :
    takeValue frames c = .ok (.after, frames, c') := by
  unfold takeValue
  simp only [h]
  rfl

theorem takeValue_array {rest : List Char} (h : c.skipGap.rest = '[' :: rest) :
    takeValue frames c = openFrame .array frames c.skipGap := by
  have hopen : simple? c.skipGap = none := by
    unfold simple?
    simp only [h]
  unfold takeValue
  simp only [hopen, h, List.head?_cons, if_true]

theorem takeValue_object {rest : List Char} (h : c.skipGap.rest = '\x7b' :: rest) :
    takeValue frames c = openFrame .object frames c.skipGap := by
  have hopen : simple? c.skipGap = none := by
    unfold simple?
    simp only [h]
  unfold takeValue
  simp only [hopen, h, List.head?_cons]
  rw [if_neg (by decide)]

/-- A bracket or brace that is closed at once. -/
theorem openFrame_closed (frame : Frame) {rest : List Char}
    (h : c.next.skipGap.rest = frame.closing :: rest) :
    openFrame frame frames c = .ok (.after, frames, c.next.skipGap.next) := by
  unfold openFrame
  simp only [h, if_true]

theorem openFrame_entered (frame : Frame) {x : Char} {rest : List Char}
    (h : c.next.skipGap.rest = x :: rest) (hx : x ≠ frame.closing)
    (henter : enter frame c.next.skipGap = .ok c') :
    openFrame frame frames c = .ok (.value, frame :: frames, c') := by
  unfold openFrame
  simp only [h, if_neg hx, henter]
  rfl

theorem takeAfter_closed (frame : Frame) {rest : List Char}
    (h : c.skipGap.rest = frame.closing :: rest) :
    takeAfter frame frames c = .ok (.after, frames, c.skipGap.next) := by
  have hcomma : frame.closing ≠ ',' := by cases frame <;> decide
  unfold takeAfter
  simp only [h, if_neg hcomma, if_true]

theorem takeAfter_comma (frame : Frame) {rest : List Char} (h : c.skipGap.rest = ',' :: rest)
    (henter : enter frame c.skipGap.next = .ok c') :
    takeAfter frame frames c = .ok (.value, frame :: frames, c') := by
  unfold takeAfter
  simp only [h, if_true, henter]
  rfl

/-- A key that is read, and its colon, are passed over. -/
theorem key_of_read {rest : List Char} {name : String} {c₁ : Cursor}
    (h : c.skipGap.rest = '"' :: rest) (hread : Read.string c.skipGap.next = .ok (name, c₁))
    (hcolon : Read.colon c₁ = .ok c') : key c = .ok c' := by
  unfold key
  simp only [h, (string_of_read hread).1, hcolon]

end

/-! ### Turns -/

/-- Turns from one place to another, with more characters to bound them than are left. -/
def Goes (turn : Turn) (frames : List Frame) (c : Cursor) (turn' : Turn) (frames' : List Frame)
    (c' : Cursor) : Prop :=
  ∀ bound : List Char, c.rest.length ≤ bound.length → ∃ bound' : List Char,
    c'.rest.length ≤ bound'.length ∧ turns bound turn frames c = turns bound' turn' frames' c'

section
variable {turn turn' turn'' : Turn} {frames frames' frames'' : List Frame} {c c' c'' : Cursor}

theorem Goes.trans (h : Goes turn frames c turn' frames' c')
    (h' : Goes turn' frames' c' turn'' frames'' c'') : Goes turn frames c turn'' frames'' c'' := by
  intro bound hbound
  obtain ⟨bound', hbound', heq⟩ := h bound hbound
  obtain ⟨bound'', hbound'', heq'⟩ := h' bound' hbound'
  exact ⟨bound'', hbound'', heq.trans heq'⟩

theorem goes_value (h : takeValue frames c = .ok (turn', frames', c'))
    (hless : c'.rest.length < c.rest.length) : Goes .value frames c turn' frames' c' := by
  intro bound hbound
  have hlong := Nat.lt_of_lt_of_le hless hbound
  obtain ⟨b, bound, rfl⟩ := List.exists_cons_of_length_pos (Nat.zero_lt_of_lt hlong)
  refine ⟨bound, Nat.le_of_lt_succ hlong, ?_⟩
  rw [turns, h]

theorem goes_after {frame : Frame} (h : takeAfter frame frames c = .ok (turn', frames', c'))
    (hless : c'.rest.length < c.rest.length) :
    Goes .after (frame :: frames) c turn' frames' c' := by
  intro bound hbound
  have hlong := Nat.lt_of_lt_of_le hless hbound
  obtain ⟨b, bound, rfl⟩ := List.exists_cons_of_length_pos (Nat.zero_lt_of_lt hlong)
  refine ⟨bound, Nat.le_of_lt_succ hlong, ?_⟩
  rw [turns, h]

end

/-- What a reader reads is passed over, whatever frames are open. -/
def Passes {α : Type} (read : Cursor → Read α) : Prop :=
  ∀ frames c x c', read c = .ok (x, c') → Goes .value frames c .after frames c'

section
variable {frames : List Frame} {c c' : Cursor}

/-- Whatever is read after a first character and some blanks leaves less. -/
theorem length_lt_of_skipGap {x : Char} {rest : List Char} (h : c.skipGap.rest = x :: rest)
    (hsuffix : c'.rest <:+ c.skipGap.next.rest) : c'.rest.length < c.rest.length :=
  Nat.lt_of_lt_of_le (Cursor.length_lt_of_next h hsuffix) (suffix_skipGap c).length_le

theorem goes_simple {x : Char} {rest : List Char} (h : c.skipGap.rest = x :: rest)
    (hpass : simple? c.skipGap = some (.ok c')) (hsuffix : c'.rest <:+ c.skipGap.next.rest) :
    Goes .value frames c .after frames c' :=
  goes_value (takeValue_simple hpass) (length_lt_of_skipGap h hsuffix)

/-- The items behind the first one, and the bracket. -/
theorem goes_items {depth : Nat} (hvalue : Passes (Read.value depth)) {bound : List Char}
    {seen xs : List Json} (h : Read.itemsFrom (Read.value depth) bound false seen c = .ok (xs, c')) :
    Goes .after (.array :: frames) c .after frames c' := by
  induction bound generalizing seen c with
  | nil => cases h
  | cons _ bound ih =>
    rw [Read.itemsFrom] at h
    split at h
    · cases h
    · case _ c₁ hnext =>
      obtain ⟨c₂, hclose, heq⟩ := map_eq_ok h
      cases heq
      obtain ⟨-, rfl, rest, hrest⟩ | ⟨hmore, -⟩ | ⟨hmore, -⟩ := Read.nextItem_eq_ok hnext
      · obtain rfl := Read.closeArray_eq_ok hclose
        rw [skipGap_skipGap]
        exact goes_after (takeAfter_closed .array hrest)
          (length_lt_of_skipGap hrest (List.suffix_refl _))
      · cases hmore
      · cases hmore
    · case _ c₁ hnext =>
      obtain ⟨hmore, -⟩ | ⟨-, hfirst, -⟩ | ⟨-, -, rfl, rest, hrest⟩ := Read.nextItem_eq_ok hnext
      · cases hmore
      · cases hfirst
      · split at h
        · cases h
        · case _ x c₂ hread =>
          rw [Read.value_skipGap] at hread
          have hcomma : Goes .after (.array :: frames) c .value (.array :: frames) c.skipGap.next :=
            goes_after (takeAfter_comma .array hrest rfl)
              (length_lt_of_skipGap hrest (List.suffix_refl _))
          exact (hcomma.trans (hvalue _ _ _ _ hread)).trans (ih h)

/-- From behind a key to behind the value of its member. -/
theorem goes_member {depth : Nat} (hvalue : Passes (Read.value depth)) {done ms : Members}
    {name : String} (h : Read.valueMember depth done name c = .ok (ms, c')) :
    ∃ c₁, Read.colon c = .ok c₁ ∧ c₁.rest <:+ c.rest ∧ Goes .value frames c₁ .after frames c' := by
  unfold Read.valueMember at h
  split at h
  · cases h
  · case _ c₁ hcolon =>
    obtain ⟨⟨x, c₂⟩, hread, heq⟩ := map_eq_ok h
    cases heq
    obtain ⟨-, rfl⟩ := Read.colon_eq_ok hcolon
    exact ⟨_, hcolon, (suffix_next _).trans (suffix_skipGap c), hvalue _ _ _ _ hread⟩

/-- The members behind the first one, and the brace. -/
theorem goes_members {depth : Nat} (hvalue : Passes (Read.value depth)) {bound : List Char}
    {done ms : Members}
    (h : Read.membersFrom (Read.valueMember depth) bound false done c = .ok (ms, c')) :
    Goes .after (.object :: frames) c .after frames c' := by
  induction bound generalizing done c with
  | nil => cases h
  | cons _ bound ih =>
    rw [Read.membersFrom] at h
    split at h
    · cases h
    · case _ c₁ hnext =>
      obtain ⟨c₂, hclose, heq⟩ := map_eq_ok h
      cases heq
      obtain ⟨-, rfl, rest, hrest⟩ | ⟨_, _, hsome, -⟩ := Read.nextKey_eq_ok hnext
      · obtain rfl := Read.closeObject_eq_ok hclose
        rw [skipGap_skipGap]
        exact goes_after (takeAfter_closed .object hrest)
          (length_lt_of_skipGap hrest (List.suffix_refl _))
      · cases hsome
    · case _ name c₁ hnext =>
      obtain ⟨hnone, -⟩ | ⟨_, rest, hsome, ⟨hfirst, -⟩ | ⟨-, ⟨tail, hcomma⟩, hquote, hstring⟩⟩ :=
        Read.nextKey_eq_ok hnext
      · cases hnone
      · cases hfirst
      · cases hsome
        split at h
        · cases h
        · case _ done' c₂ hmember =>
          obtain ⟨c₃, hcolon, hsuffix, hpass⟩ :=
            @goes_member (.object :: frames) _ _ _ hvalue _ _ _ hmember
          have hkey : Goes .after (.object :: frames) c .value (.object :: frames) c₃ :=
            goes_after (takeAfter_comma .object hcomma (key_of_read hquote hstring hcolon))
              (length_lt_of_skipGap hcomma (hsuffix.trans ((string_of_read hstring).2.trans
                ((suffix_next _).trans (suffix_skipGap _)))))
          exact (hkey.trans hpass).trans (ih h)

/-- An array, from in front of its bracket. -/
theorem goes_array {depth : Nat} (hvalue : Passes (Read.value depth)) {rest : List Char}
    (hrest : c.skipGap.rest = '[' :: rest) {xs : List Json}
    (h : Read.items (Read.value depth) c.skipGap.next = .ok (xs, c')) :
    Goes .value frames c .after frames c' := by
  unfold Read.items at h
  cases hbound : c.skipGap.next.rest with
  | nil => rw [hbound] at h; cases h
  | cons b bound =>
    rw [hbound, Read.itemsFrom] at h
    split at h
    · cases h
    · case _ c₁ hnext =>
      obtain ⟨c₂, hclose, heq⟩ := map_eq_ok h
      cases heq
      obtain ⟨-, rfl, tail, htail⟩ | ⟨hmore, -⟩ | ⟨hmore, -⟩ := Read.nextItem_eq_ok hnext
      · obtain rfl := Read.closeArray_eq_ok hclose
        rw [skipGap_skipGap]
        exact goes_value ((takeValue_array hrest).trans (openFrame_closed .array htail))
          (length_lt_of_skipGap hrest ((suffix_next _).trans (suffix_skipGap _)))
      · cases hmore
      · cases hmore
    · case _ c₁ hnext =>
      obtain ⟨hmore, -⟩ | ⟨-, -, rfl, x, tail, htail, hx⟩ | ⟨-, hfirst, -⟩ :=
        Read.nextItem_eq_ok hnext
      · cases hmore
      · split at h
        · cases h
        · case _ y c₂ hread =>
          have hopen : Goes .value frames c .value (.array :: frames) c.skipGap.next.skipGap :=
            goes_value ((takeValue_array hrest).trans (openFrame_entered .array htail hx rfl))
              (length_lt_of_skipGap hrest (suffix_skipGap _))
          exact (hopen.trans (hvalue _ _ _ _ hread)).trans (goes_items hvalue h)
      · cases hfirst

/-- An object, from in front of its brace. -/
theorem goes_object {depth : Nat} (hvalue : Passes (Read.value depth)) {rest : List Char}
    (hrest : c.skipGap.rest = '\x7b' :: rest) {ms : Members}
    (h : Read.members (Read.valueMember depth) [] c.skipGap.next = .ok (ms, c')) :
    Goes .value frames c .after frames c' := by
  unfold Read.members at h
  cases hbound : c.skipGap.next.rest with
  | nil => rw [hbound] at h; cases h
  | cons b bound =>
    rw [hbound, Read.membersFrom] at h
    split at h
    · cases h
    · case _ c₁ hnext =>
      obtain ⟨c₂, hclose, heq⟩ := map_eq_ok h
      cases heq
      obtain ⟨-, rfl, tail, htail⟩ | ⟨_, _, hsome, -⟩ := Read.nextKey_eq_ok hnext
      · obtain rfl := Read.closeObject_eq_ok hclose
        rw [skipGap_skipGap]
        exact goes_value ((takeValue_object hrest).trans (openFrame_closed .object htail))
          (length_lt_of_skipGap hrest ((suffix_next _).trans (suffix_skipGap _)))
      · cases hsome
    · case _ name c₁ hnext =>
      obtain ⟨hnone, -⟩ | ⟨_, tail, hsome, ⟨-, hquote, hstring⟩ | ⟨hfirst, -⟩⟩ :=
        Read.nextKey_eq_ok hnext
      · cases hnone
      · cases hsome
        split at h
        · cases h
        · case _ done' c₂ hmember =>
          obtain ⟨c₃, hcolon, hsuffix, hpass⟩ :=
            @goes_member (.object :: frames) _ _ _ hvalue _ _ _ hmember
          have hquote' : c.skipGap.next.skipGap.skipGap.rest = '"' :: tail := by
            rw [skipGap_skipGap, hquote]
          have hkey : enter .object c.skipGap.next.skipGap = .ok c₃ :=
            key_of_read hquote' (by rw [skipGap_skipGap]; exact hstring) hcolon
          have hopen : Goes .value frames c .value (.object :: frames) c₃ :=
            goes_value ((takeValue_object hrest).trans
                (openFrame_entered .object hquote (by decide) hkey))
              (length_lt_of_skipGap hrest (hsuffix.trans ((string_of_read hstring).2.trans
                ((suffix_next _).trans (suffix_skipGap _)))))
          exact (hopen.trans hpass).trans (goes_members hvalue h)
      · cases hfirst

end

/-- Values are passed over in turns. -/
theorem passes_value (depth : Nat) : Passes (Read.value depth) := by
  induction depth using Nat.strongRecOn with
  | ind depth ih =>
    intro frames c x c' h
    have hword : ∀ {y : Char} {rest letters : List Char}, c.skipGap.rest = y :: rest →
        simple? c.skipGap = some (c.skipGap.next.word letters) →
        c.skipGap.next.word letters = .ok c' → Goes .value frames c .after frames c' :=
      fun hrest hsimple hread =>
        goes_simple hrest (hsimple.trans (congrArg some hread)) (Cursor.suffix_word hread)
    have hread := Read.value_eq_ok h
    cases x with
    | null =>
      obtain ⟨⟨_, hrest⟩, hread⟩ := hread
      exact hword hrest (by unfold simple?; simp only [hrest]) hread
    | boolean b =>
      cases b with
      | true =>
        obtain ⟨⟨_, hrest⟩, hread⟩ := hread
        exact hword hrest (by unfold simple?; simp only [hrest]) hread
      | false =>
        obtain ⟨⟨_, hrest⟩, hread⟩ := hread
        exact hword hrest (by unfold simple?; simp only [hrest]) hread
    | number n =>
      obtain ⟨⟨_, hrest⟩, hread⟩ | ⟨⟨_, _, hrest, hd⟩, hread⟩ := hread
      · obtain ⟨hpass, hsuffix⟩ := number_of_read hread
        exact goes_simple hrest (by unfold simple?; simp only [hrest, hpass])
          (hsuffix.trans (suffix_next _))
      · obtain ⟨hpass, hsuffix⟩ := number_of_read hread
        exact goes_simple hrest (by rw [simple?_digit hrest hd, hpass]) hsuffix
    | string s =>
      obtain ⟨⟨_, hrest⟩, hread⟩ := hread
      obtain ⟨hpass, hsuffix⟩ := string_of_read hread
      exact goes_simple hrest (by unfold simple?; simp only [hrest, hpass]) hsuffix
    | array xs =>
      obtain ⟨inner, rfl, ⟨_, hrest⟩, hread⟩ := hread
      exact goes_array (ih inner (Nat.lt_succ_self inner)) hrest hread
    | object ms =>
      obtain ⟨inner, rfl, ⟨_, hrest⟩, hread⟩ := hread
      exact goes_object (ih inner (Nat.lt_succ_self inner)) hrest hread

/-- **What can be read can be passed over**, and both stop at the same place. -/
theorem value_of_read {depth : Nat} {c c' : Cursor} {x : Json}
    (h : Read.value depth c = .ok (x, c')) : value c = .ok c' := by
  obtain ⟨bound, -, hturns⟩ := passes_value depth [] c x c' h c.rest (Nat.le_refl _)
  unfold value
  rw [hturns]
  cases bound <;> rfl

end Skip

end PipeGuard.Json
