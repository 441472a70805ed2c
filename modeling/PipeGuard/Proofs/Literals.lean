import PipeGuard.Proofs.Nearest
import PipeGuard.Proofs.Numerals

/-! What number literals say.

A literal is a sign, digits, a point with more digits and an exponent, and it denotes a decimal
(`Literal.denoted`). It is read with the digits that fit in 64 bits (`number_literal`), and what it
is read as is written as a literal again: a whole number by its digits (`denoted_digits`), a double
by its shortest decimal (`denoted_render`).

`copied_of_readAs`: a whole number that fits keeps its value, and so does a literal of fifteen
digits or fewer with a small power of ten. Whatever else is read keeps seventeen digits at most. -/
namespace PipeGuard

/-- A number literal taken apart. -/
structure Literal where
  negative : Bool
  whole : List Char
  fraction : List Char
  /-- The power of ten behind a letter, if there is one. -/
  exponent : Option Int
  deriving DecidableEq, Repr

namespace Literal

/-- What is written behind the letter of an exponent. -/
def exponentOf : List Char → Int
  | '-' :: digits => -(Nat.ofDigitChars 10 digits 0 : Int)
  | '+' :: digits => Nat.ofDigitChars 10 digits 0
  | digits => Nat.ofDigitChars 10 digits 0

def exponentOf? : List Char → Option Int
  | [] => none
  | _ :: power => some (exponentOf power)

/-- Takes a literal apart that has no sign. -/
def unsigned (l : List Char) : Literal :=
  let (whole, rest) := l.span Char.isDigit
  match rest with
  | '.' :: rest =>
    let (fraction, rest) := rest.span Char.isDigit
    ⟨false, whole, fraction, exponentOf? rest⟩
  | rest => ⟨false, whole, [], exponentOf? rest⟩

/-- Takes a literal apart. -/
def ofChars : List Char → Literal
  | '-' :: l => { unsigned l with negative := true }
  | l => unsigned l

/-- All digits of a literal, without its point. -/
def significand (l : Literal) : Nat := Nat.ofDigitChars 10 (l.whole ++ l.fraction) 0

/-- The power of ten that the last digit is worth. -/
def scale (l : Literal) : Int := l.exponent.getD 0 - l.fraction.length

def value (l : Literal) : ℚ := (if l.negative then -1 else 1) * (l.significand * 10 ^ l.scale)

/-- The decimal that a literal denotes. -/
def denoted (l : List Char) : ℚ := (ofChars l).value

/-- Digits only, after the sign. -/
def Plain (l : Literal) : Prop := l.fraction = [] ∧ l.exponent = none

instance (l : Literal) : Decidable l.Plain := inferInstanceAs (Decidable (_ ∧ _))

/-! ### Taken apart -/

section
variable {ds fraction tail : List Char} (hds : ∀ d ∈ ds, d.isDigit = true)
include hds

theorem span_digits {rest : List Char} (hrest : Json.Read.NoDigit rest) :
    (ds ++ rest).span Char.isDigit = (ds, rest) := by
  rw [List.span_eq_takeWhile_dropWhile, List.takeWhile_append_of_pos hds,
    List.dropWhile_append_of_pos hds]
  cases rest with
  | nil => simp
  | cons c rest =>
    have hc := hrest c rfl
    rw [List.takeWhile_cons_of_neg (by rw [hc]; decide),
      List.dropWhile_cons_of_neg (by rw [hc]; decide), List.append_nil]

/-- A literal without a sign, by its parts. -/
theorem unsigned_eq (hfraction : ∀ d ∈ fraction, d.isDigit = true)
    (htail : ∀ c, tail.head? = some c → c.isDigit = false ∧ c ≠ '.') :
    unsigned (ds ++ ((if fraction.isEmpty then [] else '.' :: fraction) ++ tail)) =
      ⟨false, ds, fraction, exponentOf? tail⟩ := by
  have hstop : Json.Read.NoDigit tail := fun c hc => (htail c hc).1
  unfold unsigned
  cases fraction with
  | nil =>
    rw [List.isEmpty_nil, if_pos rfl, List.nil_append, span_digits hds hstop]
    simp only
    split
    · exact absurd rfl (htail '.' rfl).2
    · rfl
  | cons d fraction =>
    rw [List.isEmpty_cons, if_neg Bool.false_ne_true, List.cons_append,
      span_digits hds (Json.Read.noDigit_cons (by decide) _)]
    simp only [span_digits hfraction hstop]

end

theorem exponentOf_digits {ds : List Char} (hds : ∀ d ∈ ds, d.isDigit = true) :
    exponentOf ds = Nat.ofDigitChars 10 ds 0 := by
  unfold exponentOf
  split
  · exact absurd (hds '-' List.mem_cons_self) (by decide)
  · exact absurd (hds '+' List.mem_cons_self) (by decide)
  · rfl

end Literal

/-! ### How a literal is read -/

namespace Json.Read

open Literal (exponentOf exponentOf?)

/-- The digits at a cursor, all of them. -/
theorem digits_eq {c c' : Cursor} {ds : List Char} (h : digits c = (ds, c')) :
    c.rest = ds ++ c'.rest ∧ (∀ d ∈ ds, d.isDigit = true) ∧ NoDigit c'.rest := by
  have hfrom : ∀ {text : List Char} {position : Position} {seen ds : List Char} {c' : Cursor},
      digitsFrom text position seen = (ds, c') → ∃ more, ds = seen.reverse ++ more ∧
        text = more ++ c'.rest ∧ (∀ d ∈ more, d.isDigit = true) ∧ NoDigit c'.rest := by
    intro text
    induction text with
    | nil =>
      intro position seen ds c' h
      cases h
      exact ⟨[], (List.append_nil _).symm, rfl, fun _ hd => absurd hd List.not_mem_nil,
        fun _ hc => nomatch hc⟩
    | cons d text ih =>
      intro position seen ds c' h
      rw [digitsFrom] at h
      split at h
      · case _ hd =>
        obtain ⟨more, rfl, rfl, hmore, hstop⟩ := ih h
        refine ⟨d :: more, ?_, rfl, List.forall_mem_cons.mpr ⟨hd, hmore⟩, hstop⟩
        rw [List.reverse_cons, List.append_assoc]
        rfl
      · case _ hd =>
        cases h
        exact ⟨[], (List.append_nil _).symm, rfl, fun _ hd => absurd hd List.not_mem_nil,
          noDigit_cons (Bool.eq_false_iff.mpr hd) text⟩
  obtain ⟨more, rfl, hrest⟩ := hfrom h
  exact hrest

theorem exponentFrom_eq {text : List Char} {position : Position} {n : Nat} {power? : Option Nat}
    {c : Cursor} (h : exponentFrom n text position = (power?, c)) :
    ∃ ds, (∀ d ∈ ds, d.isDigit = true) ∧ match power? with
      | some power => text = ds ++ c.rest ∧ power = Nat.ofDigitChars 10 ds n
      | none => text = ds ++ (digits c).2.rest ∧ greatestExponent < Nat.ofDigitChars 10 ds n := by
  induction text generalizing position n with
  | nil =>
    cases h
    exact ⟨[], fun _ hd => absurd hd List.not_mem_nil, rfl, rfl⟩
  | cons d text ih =>
    rw [exponentFrom] at h
    split at h
    · case _ hd =>
      rcases ite_eq_iff.mp h with ⟨-, h⟩ | ⟨hlarge, h⟩
      · obtain ⟨ds, hds, hread⟩ := ih h
        refine ⟨d :: ds, List.forall_mem_cons.mpr ⟨hd, hds⟩, ?_⟩
        cases power? with
        | some power => exact ⟨congrArg (d :: ·) hread.1, (ofDigitChars_digit d ds n).symm ▸ hread.2⟩
        | none => exact ⟨congrArg (d :: ·) hread.1, (ofDigitChars_digit d ds n).symm ▸ hread.2⟩
      · cases h
        obtain ⟨hrest, hds, -⟩ := @digits_eq ⟨text, position.after d⟩ _ _ rfl
        refine ⟨d :: (digits ⟨text, position.after d⟩).1, List.forall_mem_cons.mpr ⟨hd, hds⟩,
          congrArg (d :: ·) hrest, ?_⟩
        rw [ofDigitChars_digit]
        exact Nat.lt_of_lt_of_le (Nat.lt_of_not_le hlarge) (le_ofDigitChars _ _)
    · cases h
      exact ⟨[], fun _ hd => absurd hd List.not_mem_nil, rfl, rfl⟩

/-- A double was read from digits and an exponent, or the exponent is too far down for any. -/
def Finishes (negative : Bool) (significand : Nat) (exponent power : Int) (n : Number) : Prop :=
  ∃ x, n = .real x ∧ (Double.ofDecimal? negative significand (exponent + power) = some x ∨
    x = .zero negative ∧ (significand = 0 ∨ power < -(greatestExponent : Int)))

section
variable {negative : Bool} {significand : Nat} {exponent : Int} {c c' : Cursor} {n : Number}

theorem realAt_eq_ok (h : realAt negative significand exponent c = .ok (n, c')) :
    c' = c ∧ ∃ x, n = .real x ∧ Double.ofDecimal? negative significand exponent = some x := by
  unfold realAt at h
  split at h
  · case _ hx =>
    cases h
    exact ⟨rfl, _, rfl, hx⟩
  · cases h

theorem finishes_realAt (h : realAt negative significand exponent c = .ok (n, c')) :
    c' = c ∧ Finishes negative significand exponent 0 n := by
  obtain ⟨hend, x, rfl, hx⟩ := realAt_eq_ok h
  exact ⟨hend, x, rfl, .inl (by rwa [Int.add_zero])⟩

theorem finishes_withExponent (h : withExponent negative significand exponent c = .ok (n, c')) :
    ∃ text, c.rest = text ++ c'.rest ∧
      Finishes negative significand exponent (exponentOf text) n := by
  unfold withExponent at h
  split at h
  case _ down after hsign =>
  -- the sign in front of the digits
  have hmark : ∃ mark, c.rest = mark ++ after.rest ∧ ∀ ds : List Char,
      (∀ d ∈ ds, d.isDigit = true) → exponentOf (mark ++ ds) =
        if down then -(Nat.ofDigitChars 10 ds 0 : Int) else Nat.ofDigitChars 10 ds 0 := by
    have hnext : ∀ {x : Char} {rest : List Char},
        c.rest = x :: rest → c.rest = [x] ++ c.next.rest := by
      intro x rest hrest
      rw [Cursor.rest_next, hrest]
      rfl
    split at hsign
    · case _ hrest =>
      cases hsign
      exact ⟨['+'], hnext hrest, fun ds _ => rfl⟩
    · case _ hrest =>
      cases hsign
      exact ⟨['-'], hnext hrest, fun ds _ => rfl⟩
    · cases hsign
      exact ⟨[], rfl, fun ds hds => Literal.exponentOf_digits hds⟩
  obtain ⟨mark, hrest, hpower⟩ := hmark
  split at h
  · cases h
  · split at h
    · split at h
      · case _ power c₁ hread =>
        obtain ⟨ds, hds, htext, rfl⟩ := exponentFrom_eq hread
        obtain ⟨rfl, x, rfl, hx⟩ := realAt_eq_ok h
        refine ⟨mark ++ ds, by rw [hrest, htext, List.append_assoc], x, rfl, .inl ?_⟩
        rw [hpower ds hds]
        cases down with
        | false => simpa using hx
        | true => simpa [Int.sub_eq_add_neg] using hx
      · case _ c₁ hread =>
        obtain ⟨ds, hds, htext, hlarge⟩ := exponentFrom_eq hread
        rcases ite_eq_iff.mp h with ⟨-, h⟩ | ⟨hsmall, h⟩
        · cases h
        · cases h
          refine ⟨mark ++ ds, by rw [hrest, htext, List.append_assoc], _, rfl, .inr ⟨rfl, ?_⟩⟩
          rw [hpower ds hds]
          refine or_iff_not_imp_left.mpr fun hzero => ?_
          cases down with
          | false => exact absurd ⟨hzero, rfl⟩ hsmall
          | true =>
            rw [if_pos rfl]
            omega
    · cases h

/-- What may follow the digits of a literal: nothing, or a letter and an exponent. -/
def IsTail (tail : List Char) : Prop := tail = [] ∨ startsExponent tail = true

theorem isTail_nil : IsTail [] := .inl rfl

theorem IsTail.head {tail : List Char} (h : IsTail tail) :
    ∀ x, tail.head? = some x → x.isDigit = false ∧ x ≠ '.' := by
  rintro x hx
  obtain rfl | hletter := h
  · cases hx
  · cases tail with
    | nil => cases hx
    | cons y tail =>
      obtain rfl := Option.some.inj hx
      have hcases : y = 'e' ∨ y = 'E' := by simpa [startsExponent] using hletter
      rcases hcases with rfl | rfl <;> decide

/-- A letter is passed and the exponent behind it is read. -/
theorem finishes_letter (hletter : startsExponent c.rest = true)
    (h : withExponent negative significand exponent c.next = .ok (n, c')) :
    ∃ tail, startsExponent tail = true ∧ c.rest = tail ++ c'.rest ∧
      Finishes negative significand exponent ((exponentOf? tail).getD 0) n := by
  obtain ⟨text, hrest, hn⟩ := finishes_withExponent h
  cases hfirst : c.rest with
  | nil =>
    rw [hfirst] at hletter
    cases hletter
  | cons x rest =>
    rw [Cursor.rest_next, hfirst] at hrest
    rw [hfirst] at hletter
    exact ⟨x :: text, hletter, congrArg (x :: ·) hrest, hn⟩

/-- A fraction, after its point. -/
theorem finishes_withFraction (h : withFraction negative significand exponent c = .ok (n, c')) :
    ∃ ds tail, ds ≠ [] ∧ (∀ d ∈ ds, d.isDigit = true) ∧ IsTail tail ∧
      c.rest = ds ++ (tail ++ c'.rest) ∧
      Finishes negative (gather significand ds).1
        (exponent - (ds.length - (gather significand ds).2.length))
        ((exponentOf? tail).getD 0) n := by
  unfold withFraction at h
  split at h
  · split at h <;> cases h
  · case _ ds after hne hdigits =>
    obtain ⟨hrest, hds, -⟩ := digits_eq hdigits
    split at h
    case _ m left hgather =>
    simp only at h
    split at h
    · case _ hletter =>
      obtain ⟨tail, htail, hafter, hn⟩ := finishes_letter hletter h
      refine ⟨ds, tail, hne, hds, .inr htail, hafter ▸ hrest, ?_⟩
      rw [hgather]
      exact hn
    · obtain ⟨rfl, hn⟩ := finishes_realAt h
      refine ⟨ds, [], hne, hds, .inl rfl, hrest, ?_⟩
      rw [hgather]
      exact hn

/-- The digits that a number begins with. -/
theorem leading_eq {d : Char} {rest ds : List Char} {after : Cursor} (hrest : c.rest = d :: rest)
    (hd : d.isDigit = true) (h : (if d = '0' then ([d], c.next) else digits c) = (ds, after)) :
    c.rest = ds ++ after.rest ∧ (∀ d ∈ ds, d.isDigit = true) ∧ ds ≠ [] := by
  split at h
  · cases h
    refine ⟨?_, List.forall_mem_singleton.mpr hd, List.cons_ne_nil _ _⟩
    rw [Cursor.rest_next, hrest]
    rfl
  · obtain ⟨hsplit, hall, hstop⟩ := digits_eq h
    refine ⟨hsplit, hall, ?_⟩
    rintro rfl
    have hfirst : after.rest.head? = some d := by
      rw [List.nil_append] at hsplit
      rw [← hsplit, hrest]
      rfl
    rw [hstop d hfirst] at hd
    cases hd

/-- What a number is read as, from its digits, a fraction and an exponent. -/
def FromParts (negative : Bool) (ds fraction tail : List Char) (n : Number) : Prop :=
  (fraction = [] ∧ tail = [] ∧ (gather 0 ds).2 = [] ∧ n = whole negative (gather 0 ds).1) ∨
    ((fraction = [] → tail = [] → (gather 0 ds).2 ≠ []) ∧
      Finishes negative (gather (gather 0 ds).1 fraction).1
        ((gather 0 ds).2.length - (fraction.length - (gather (gather 0 ds).1 fraction).2.length))
        ((exponentOf? tail).getD 0) n)

/-- **A number is read from digits, a fraction and an exponent.** -/
theorem number_eq_ok (h : number negative c = .ok (n, c')) :
    ∃ ds fraction tail, ds ≠ [] ∧ (∀ d ∈ ds, d.isDigit = true) ∧
      (∀ d ∈ fraction, d.isDigit = true) ∧ IsTail tail ∧
      c.rest = ds ++ ((if fraction.isEmpty then [] else '.' :: fraction) ++ tail) ++ c'.rest ∧
      FromParts negative ds fraction tail n := by
  have hnone : ∀ d ∈ ([] : List Char), d.isDigit = true := fun _ hd => absurd hd List.not_mem_nil
  unfold number at h
  split at h
  · cases h
  · case _ d rest hrest =>
    split at h
    · case _ hd =>
      split at h
      case _ ds after hleading =>
      obtain ⟨hds, hall, hne⟩ := leading_eq hrest hd hleading
      split at h
      case _ m left hgather =>
      -- with nothing behind the digits
      have hend : (if left.isEmpty then .ok (whole negative m, after)
          else realAt negative m left.length after) = .ok (n, c') →
            c' = after ∧ FromParts negative ds [] [] n := by
        intro h
        unfold FromParts
        rw [hgather]
        split at h
        · case _ hleft =>
          cases h
          exact ⟨rfl, .inl ⟨rfl, rfl, List.isEmpty_iff.mp hleft, rfl⟩⟩
        · case _ hleft =>
          obtain ⟨hc, hn⟩ := finishes_realAt h
          refine ⟨hc, .inr ⟨fun _ _ hnil => hleft (List.isEmpty_iff.mpr hnil), ?_⟩⟩
          simpa [gather, Literal.exponentOf?] using hn
      split at h
      · case _ tail hpoint =>
        obtain ⟨fraction, tail, hfne, hfraction, htail, hafter, hn⟩ := finishes_withFraction h
        rw [Cursor.rest_next, hpoint, List.tail_cons] at hafter
        refine ⟨ds, fraction, tail, hne, hall, hfraction, htail, ?_,
          .inr ⟨fun h => absurd h hfne, ?_⟩⟩
        · rw [hds, hpoint, hafter, if_neg (by simpa using hfne)]
          simp
        · rw [hgather]
          exact hn
      · case _ hfirst =>
        split at h
        · cases h
        · split at h
          · case _ hletter =>
            obtain ⟨tail, htail, hafter, hn⟩ := finishes_letter hletter h
            have hsome : tail ≠ [] := by
              rintro rfl
              cases htail
            refine ⟨ds, [], tail, hne, hall, hnone, .inr htail, ?_,
              .inr ⟨fun _ h => absurd h hsome, ?_⟩⟩
            · rw [hds, hafter]
              simp
            · rw [hgather]
              simpa [gather] using hn
          · obtain ⟨rfl, hn⟩ := hend h
            exact ⟨ds, [], [], hne, hall, hnone, .inl rfl, by simpa using hds, hn⟩
      · obtain ⟨rfl, hn⟩ := hend h
        exact ⟨ds, [], [], hne, hall, hnone, .inl rfl, by simpa using hds, hn⟩
    · cases h

end

theorem gather_all {m : Nat} {ds : List Char} (h : (gather m ds).2 = []) :
    (gather m ds).1 = Nat.ofDigitChars 10 ds m := by
  induction ds generalizing m with
  | nil => rfl
  | cons d ds ih =>
    rw [ofDigitChars_digit]
    unfold gather at h ⊢
    simp only at h ⊢
    split at h
    · case _ hfits =>
      rw [if_pos hfits]
      exact ih h
    · cases h

end Json.Read

namespace Literal

open Json.Read (greatestSignificand greatestExponent gather gather_fits gather_all gather_le
  le_ofDigitChars)

/-- The digits fit in 64 bits. -/
def Fits (l : Literal) : Prop := l.significand ≤ greatestSignificand

/-- The double that digits and a power of ten are read as: step by step, or at once if they are
plain. No power is too far down. -/
def Rounds (l : Literal) (x : Double) : Prop :=
  Double.ofDecimal? l.negative l.significand l.scale = some x ∨
    (l.Plain ∧ Double.ofRatio? l.negative l.significand 1 = some x) ∨
    (x = .zero l.negative ∧ (l.significand = 0 ∨ l.scale < -(greatestExponent : Int)))

/-- How a literal is read: a plain one that fits is a whole number, and any other one a double, from
its digits if they fit. -/
def ReadAs (l : Literal) (n : Number) : Prop :=
  (l.Plain ∧ l.Fits ∧ n = Json.Read.whole l.negative l.significand) ∨
    (¬ (l.Plain ∧ l.Fits) ∧ ∃ x, n = .real x ∧ (l.Fits → l.Rounds x))

theorem readAs_of_parts {negative : Bool} {ds fraction tail : List Char} {n : Number}
    (h : Json.Read.FromParts negative ds fraction tail n) :
    ReadAs ⟨negative, ds, fraction, exponentOf? tail⟩ n := by
  have hplain : Plain ⟨negative, ds, fraction, exponentOf? tail⟩ ↔ fraction = [] ∧ tail = [] := by
    refine and_congr_right fun _ => ?_
    show exponentOf? tail = none ↔ _
    cases tail <;> simp [exponentOf?]
  have hsplit : significand ⟨negative, ds, fraction, exponentOf? tail⟩ =
      Nat.ofDigitChars 10 fraction (Nat.ofDigitChars 10 ds 0) := Nat.ofDigitChars_append _
  have hgather : Fits ⟨negative, ds, fraction, exponentOf? tail⟩ →
      gather 0 ds = (Nat.ofDigitChars 10 ds 0, []) ∧
        gather (Nat.ofDigitChars 10 ds 0) fraction =
          (significand ⟨negative, ds, fraction, exponentOf? tail⟩, []) := by
    intro hfits
    unfold Fits at hfits
    rw [hsplit] at hfits ⊢
    exact ⟨gather_fits (Nat.le_trans (le_ofDigitChars _ _) hfits), gather_fits hfits⟩
  obtain ⟨rfl, rfl, hleft, rfl⟩ | ⟨hleft, x, rfl, hx⟩ := h
  · have hsame : significand ⟨negative, ds, [], exponentOf? []⟩ = (gather 0 ds).1 := by
      rw [gather_all hleft]
      exact hsplit
    refine .inl ⟨hplain.mpr ⟨rfl, rfl⟩, ?_, by rw [hsame]⟩
    unfold Fits
    rw [hsame]
    exact gather_le (Nat.zero_le _) ds
  · refine .inr ⟨fun ⟨hp, hfits⟩ => ?_, x, rfl, fun hfits => ?_⟩
    · obtain ⟨hfraction, htail⟩ := hplain.mp hp
      exact hleft hfraction htail (congrArg Prod.snd (hgather hfits).1)
    · obtain ⟨hwhole, hall⟩ := hgather hfits
      rw [hwhole] at hx
      simp only [hall] at hx
      have hscale : ((([] : List Char).length : Int) - (fraction.length - ([] : List Char).length) +
          (exponentOf? tail).getD 0) = scale ⟨negative, ds, fraction, exponentOf? tail⟩ := by
        show _ = (exponentOf? tail).getD 0 - fraction.length
        rw [List.length_nil]
        omega
      rw [hscale] at hx
      refine hx.imp_right fun ⟨hzero, hsmall⟩ => .inr ⟨hzero, hsmall.imp_right fun hlt => ?_⟩
      show (exponentOf? tail).getD 0 - (fraction.length : Int) < _
      omega

/-- The sign in front of a literal. -/
def sign (negative : Bool) : List Char := if negative then ['-'] else []

theorem ofChars_sign {text : List Char} (h : text.head? ≠ some '-') (negative : Bool) :
    ofChars (sign negative ++ text) = { unsigned text with negative := negative } := by
  cases negative with
  | true => rfl
  | false =>
    have hunsigned : (unsigned text).negative = false := by
      unfold unsigned
      simp only
      split <;> rfl
    show ofChars text = _
    unfold ofChars
    split
    · exact absurd rfl h
    · rw [← hunsigned]

/-- The text of a literal, by its parts. -/
theorem ofChars_eq {ds fraction tail : List Char} (hne : ds ≠ [])
    (hds : ∀ d ∈ ds, d.isDigit = true) (hfraction : ∀ d ∈ fraction, d.isDigit = true)
    (htail : Json.Read.IsTail tail) (negative : Bool) :
    ofChars (sign negative ++ (ds ++ ((if fraction.isEmpty then [] else '.' :: fraction) ++ tail))) =
      ⟨negative, ds, fraction, exponentOf? tail⟩ := by
  rw [ofChars_sign, unsigned_eq hds hfraction htail.head]
  obtain ⟨d, ds, rfl⟩ := List.exists_cons_of_ne_nil hne
  rintro hminus
  obtain rfl : d = '-' := Option.some.inj hminus
  exact absurd (hds '-' List.mem_cons_self) (by decide)

/-- **A number is read as its literal says**, as far as its digits fit. -/
theorem number_literal {negative : Bool} {c c' : Json.Cursor} {n : Number}
    (h : Json.Read.number negative c = .ok (n, c')) :
    ∃ text, c.rest = text ++ c'.rest ∧ (ofChars (sign negative ++ text)).ReadAs n := by
  obtain ⟨ds, fraction, tail, hne, hds, hfraction, htail, hrest, hn⟩ := Json.Read.number_eq_ok h
  refine ⟨_, hrest, ?_⟩
  rw [ofChars_eq hne hds hfraction htail]
  exact readAs_of_parts hn

/-! ### What is written -/

/-- One, or minus one. -/
def unit (negative : Bool) : ℚ := if negative then -1 else 1

theorem denoted_eq {ds fraction tail : List Char} (hne : ds ≠ [])
    (hds : ∀ d ∈ ds, d.isDigit = true) (hfraction : ∀ d ∈ fraction, d.isDigit = true)
    (htail : Json.Read.IsTail tail) (negative : Bool) :
    denoted (sign negative ++ (ds ++ ((if fraction.isEmpty then [] else '.' :: fraction) ++ tail))) =
      unit negative * ((Nat.ofDigitChars 10 (ds ++ fraction) 0 : Nat) *
        10 ^ ((exponentOf? tail).getD 0 - fraction.length)) := by
  unfold denoted
  rw [ofChars_eq hne hds hfraction htail]
  rfl

theorem denoted_digits (negative : Bool) (n : Nat) :
    denoted (sign negative ++ Nat.toDigits 10 n) = unit negative * n := by
  have hds : ∀ d ∈ Nat.toDigits 10 n, d.isDigit = true :=
    fun d hd => Nat.isDigit_of_mem_toDigits (by decide) (by decide) hd
  have hvalue := @Nat.ofDigitChars_ten_toDigits n
  have hnone : ∀ d ∈ ([] : List Char), d.isDigit = true := fun _ hd => absurd hd List.not_mem_nil
  have hdenoted := denoted_eq Nat.toDigits_ne_nil hds hnone Json.Read.isTail_nil negative
  simpa [exponentOf?, hvalue] using hdenoted

theorem denoted_zero {l : List Char} (h : (ofChars l).significand = 0) : denoted l = 0 := by
  unfold denoted value
  rw [h, Nat.cast_zero, zero_mul, mul_zero]

theorem exponentOf_toDigits (power : Int) :
    exponentOf ((if 0 ≤ power then '+' else '-') :: Nat.toDigits 10 power.natAbs) = power := by
  have hvalue := @Nat.ofDigitChars_ten_toDigits power.natAbs
  split
  · show (Nat.ofDigitChars 10 (Nat.toDigits 10 power.natAbs) 0 : Int) = power
    rw [hvalue]
    omega
  · show -(Nat.ofDigitChars 10 (Nat.toDigits 10 power.natAbs) 0 : Int) = power
    rw [hvalue]
    omega

section
variable {x : Double} {d : Char} {ds : List Char} (hall : ∀ c ∈ d :: ds, c.isDigit = true)
  (hvalue : Nat.ofDigitChars 10 (d :: ds) 0 = x.shortest.significand) (negative : Bool)
include hall hvalue

/-- The point stands among the digits, or behind them and as many zeros as it takes. -/
theorem denoted_among {point : Nat} (hpoint : 0 < point)
    (hplace : (point : Int) = (d :: ds).length + x.shortest.exponent) {whole : List Char}
    (hwhole : whole = d :: ds ++ List.replicate (point - (d :: ds).length) '0') :
    denoted (sign negative ++ (whole.take point ++
      '.' :: (if (whole.drop point).isEmpty then ['0'] else whole.drop point))) =
        unit negative * x.shortest.value := by
  have hdigits : ∀ c ∈ whole, c.isDigit = true := by
    rw [hwhole]
    exact List.forall_mem_append.mpr ⟨hall, Json.Read.isDigit_zeros _⟩
  have hlength : whole.length = max (d :: ds).length point := by
    rw [hwhole, List.length_append, List.length_replicate]
    omega
  have hne : whole.take point ≠ [] := by
    intro hnil
    have htaken := congrArg List.length hnil
    rw [List.length_take, List.length_nil] at htaken
    omega
  have htake : ∀ c ∈ whole.take point, c.isDigit = true :=
    fun c hc => hdigits c (List.mem_of_mem_take hc)
  -- what the digits up to the point and a fraction behind it come to
  have hparts : ∀ fraction, fraction ≠ [] → (∀ c ∈ fraction, c.isDigit = true) →
      denoted (sign negative ++ (whole.take point ++ '.' :: fraction)) =
        unit negative * ((Nat.ofDigitChars 10 (whole.take point ++ fraction) 0 : Nat) *
          10 ^ (-fraction.length : Int)) := by
    intro fraction hfraction hdigit
    have hdenoted := denoted_eq hne htake hdigit Json.Read.isTail_nil negative
    rwa [if_neg (by simpa using hfraction), List.append_nil, exponentOf?, Option.getD_none,
      Int.zero_sub] at hdenoted
  rcases Nat.lt_or_ge point (d :: ds).length with hinside | hbehind
  · have hnone : point - (d :: ds).length = 0 := by omega
    rw [hnone, List.replicate_zero, List.append_nil] at hwhole
    have hsome : whole.drop point ≠ [] := by
      rw [ne_eq, List.drop_eq_nil_iff]
      omega
    have hexponent : -((whole.drop point).length : Int) = x.shortest.exponent := by
      rw [List.length_drop]
      omega
    rw [if_neg (by simpa using hsome),
      hparts _ hsome fun c hc => hdigits c (List.mem_of_mem_drop hc),
      List.take_append_drop, hexponent, hwhole, hvalue]
    rfl
  · have hdrop : whole.drop point = [] := by
      rw [List.drop_eq_nil_iff]
      omega
    have hexponent : ((point - (d :: ds).length : Nat) : Int) = x.shortest.exponent := by omega
    rw [hdrop, List.isEmpty_nil, if_pos rfl,
      hparts ['0'] (List.cons_ne_nil _ _) (List.forall_mem_singleton.mpr rfl),
      List.take_of_length_le (by omega), hwhole, Nat.ofDigitChars_append, Nat.ofDigitChars_append,
      hvalue, Nat.ofDigitChars_replicate_zero]
    unfold Decimal.value
    rw [← hexponent, zpow_natCast]
    congr 1
    simp [Nat.ofDigitChars_cons]
    ring

/-- The point stands before the digits, with zeros between. -/
theorem denoted_before {zeros : Nat}
    (hplace : -(zeros : Int) = (d :: ds).length + x.shortest.exponent) :
    denoted (sign negative ++ (['0', '.'] ++ List.replicate zeros '0' ++ d :: ds)) =
      unit negative * x.shortest.value := by
  have hzeros : ∀ c ∈ List.replicate zeros '0' ++ d :: ds, c.isDigit = true :=
    List.forall_mem_append.mpr ⟨Json.Read.isDigit_zeros _, hall⟩
  have hdenoted := denoted_eq (List.cons_ne_nil '0' []) (List.forall_mem_singleton.mpr rfl) hzeros
    Json.Read.isTail_nil negative
  have hdigits : Nat.ofDigitChars 10 (['0'] ++ (List.replicate zeros '0' ++ d :: ds)) 0 =
      x.shortest.significand := by
    rw [Nat.ofDigitChars_append, Nat.ofDigitChars_append, ← hvalue]
    show Nat.ofDigitChars 10 (d :: ds) (Nat.ofDigitChars 10 (List.replicate zeros '0') 0) = _
    rw [Nat.ofDigitChars_replicate_zero, Nat.mul_zero]
  have hexponent : (0 : Int) - (List.replicate zeros '0' ++ d :: ds).length =
      x.shortest.exponent := by
    rw [List.length_append, List.length_replicate]
    omega
  rw [if_neg (by simp), List.append_nil, exponentOf?, Option.getD_none, hexponent,
    hdigits] at hdenoted
  exact hdenoted

/-- The point stands behind the first digit, and an exponent follows. -/
theorem denoted_power {power : Int}
    (hplace : power + 1 = (d :: ds).length + x.shortest.exponent) :
    denoted (sign negative ++ ([d] ++ (if ds.isEmpty then [] else '.' :: ds) ++
      ['e', if 0 ≤ power then '+' else '-'] ++ Nat.toDigits 10 power.natAbs)) =
        unit negative * x.shortest.value := by
  obtain ⟨hd, hds⟩ := List.forall_mem_cons.mp hall
  have htail : Json.Read.IsTail ('e' :: (if 0 ≤ power then '+' else '-') ::
      Nat.toDigits 10 power.natAbs) := .inr rfl
  have hdenoted := denoted_eq (List.cons_ne_nil d []) (List.forall_mem_singleton.mpr hd) hds htail
    negative
  have hexponent : power - ds.length = x.shortest.exponent := by
    rw [List.length_cons] at hplace
    omega
  rw [exponentOf?, exponentOf_toDigits, Option.getD_some, hexponent] at hdenoted
  unfold Decimal.value
  rw [← hvalue]
  simpa only [List.append_assoc, List.cons_append, List.nil_append] using hdenoted

end

end Literal

/-! ### Copies -/

namespace Double

open Literal (unit sign denoted)

theorem shortest_zero {x : Double} (h : x.mantissa = 0) : x.shortest.value = 0 := by
  unfold shortest
  rw [if_pos h]
  exact zero_mul _

/-- **A double is written as its shortest decimal.** -/
theorem denoted_render {x : Double} (hfinite : x.IsFinite) :
    denoted x.render = unit x.negative * x.shortest.value := by
  show denoted (sign x.negative ++ _) = _
  rcases Nat.eq_zero_or_pos x.mantissa with hzero | hpositive
  · have hnone : denoted (sign x.negative ++ ['0', '.', '0']) = 0 := by
      refine Literal.denoted_zero ?_
      cases x.negative <;> rfl
    rw [if_pos hzero, hnone, shortest_zero hzero, mul_zero]
  · rw [if_neg (Nat.ne_of_gt hpositive)]
    obtain ⟨d, ds, hdigits, -, hall, -, hvalue⟩ :=
      digits_of_upTo (shortest_spec hpositive hfinite.lowest_le)
    have hpoint : x.shortest.point = (d :: ds).length + x.shortest.exponent := by
      unfold Decimal.point
      rw [hdigits]
    simp only [hdigits]
    split
    · exact Literal.denoted_among hall hvalue x.negative (by omega) (by omega) rfl
    · split
      · exact Literal.denoted_before hall hvalue x.negative (by omega)
      · exact Literal.denoted_power hall hvalue x.negative (by omega)

/-- No decimal of a double is longer than seventeen digits. -/
theorem shortest_le {x : Double} (hfinite : x.IsFinite) : x.shortest.significand ≤ 10 ^ 17 := by
  rcases Nat.eq_zero_or_pos x.mantissa with hzero | hpositive
  · unfold shortest
    rw [if_pos hzero]
    exact Nat.zero_le _
  · exact shortest_digits hpositive hfinite

end Double

namespace Literal

open Json.Read (greatestExponent)

/-- A plain number that fits in 64 bits, with a sign or without. -/
def InRange (l : Literal) : Prop :=
  l.Plain ∧ l.significand ≤ if l.negative then 2 ^ 63 else 2 ^ 64 - 1

/-- What the literal of a number becomes when the number is read and written. Any other literal than
that of a whole number becomes the shortest decimal of a double. -/
structure Copied (before after : List Char) : Prop where
  whole : (ofChars before).InRange → denoted after = denoted before
  few : (ofChars before).significand < 10 ^ 15 → (ofChars before).scale.natAbs ≤ 22 →
    denoted after = denoted before
  zero : (ofChars before).significand = 0 → denoted after = denoted before
  double : ¬ (ofChars before).InRange → ∃ x : Double,
    ((ofChars before).Fits → (ofChars before).Rounds x) ∧ x.shortest.significand ≤ 10 ^ 17 ∧
      denoted after = unit x.negative * x.shortest.value

section
variable {l : List Char}

theorem denoted_plain (h : (ofChars l).Plain) :
    denoted l = unit (ofChars l).negative * (ofChars l).significand := by
  have hscale : (ofChars l).scale = 0 := by
    unfold scale
    rw [h.1, h.2]
    rfl
  unfold denoted value
  rw [hscale, zpow_zero, mul_one]
  rfl

theorem inRange_of_few (hplain : (ofChars l).Plain) (hfew : (ofChars l).significand < 10 ^ 15) :
    (ofChars l).InRange := by
  refine ⟨hplain, hfew.le.trans ?_⟩
  split <;> decide

/-- A double that is read from few digits is written with the same value. -/
theorem copied_of_double {x : Double} (hrange : ¬ (ofChars l).InRange) (hfinite : x.IsFinite)
    (h : (ofChars l).Fits → (ofChars l).Rounds x) : Copied l x.render := by
  have hrounds : (ofChars l).significand < 10 ^ 15 → (ofChars l).Rounds x :=
    fun hfew => h (Nat.le_trans hfew.le (by decide))
  have hzero : (ofChars l).significand = 0 → denoted x.render = denoted l := by
    intro hnone
    have hmantissa : x.mantissa = 0 := by
      rcases hrounds (by omega) with hread | ⟨hplain, -⟩ | ⟨rfl, -⟩
      · exact Double.ofDecimal?_zero (hnone ▸ hread)
      · exact absurd (inRange_of_few hplain (by omega)) hrange
      · rfl
    rw [Double.denoted_render hfinite, Double.shortest_zero hmantissa, mul_zero, denoted_zero hnone]
  refine ⟨fun hin => absurd hin hrange, fun hfew hscale => ?_, hzero,
    fun _ => ⟨x, h, Double.shortest_le hfinite, Double.denoted_render hfinite⟩⟩
  rcases Nat.eq_zero_or_pos (ofChars l).significand with hnone | hpositive
  · exact hzero hnone
  · rcases hrounds hfew with hread | ⟨hplain, -⟩ | ⟨-, hnone | hsmall⟩
    · obtain ⟨-, hsign, hvalue⟩ := Double.shortest_ofDecimal? hpositive hfew hscale hread
      rw [Double.denoted_render hfinite, hsign, hvalue]
      rfl
    · exact absurd (inRange_of_few hplain hfew) hrange
    · exact hzero hnone
    · have : (22 : Nat) ≤ greatestExponent := by decide
      omega

/-- **A literal that is read is written with the same value**, if it is a whole number that fits or
has few digits. -/
theorem copied_of_readAs {n : Number} (h : (ofChars l).ReadAs n) (hn : n.Kept) :
    Copied l n.render := by
  obtain ⟨hplain, hfits, rfl⟩ | ⟨hnot, x, rfl, hx⟩ := h
  · have hsame : ∀ {text : List Char}, denoted text = denoted l → (ofChars l).InRange →
        Copied l text := fun heq hin => ⟨fun _ => heq, fun _ _ => heq, fun _ => heq, (absurd hin ·)⟩
    unfold Json.Read.whole at hn ⊢
    split at hn
    · case _ hsign =>
      rw [if_pos hsign]
      refine hsame ?_ ⟨hplain, ?_⟩
      · rw [denoted_plain hplain, hsign]
        exact denoted_digits false _
      · rw [hsign]
        exact hfits
    · case _ hsign =>
      have hnegative : (ofChars l).negative = true := by simpa using hsign
      rw [if_neg hsign]
      split at hn
      · case _ hzero =>
        rw [if_pos hzero]
        refine hsame ?_ ⟨hplain, by rw [hzero]; exact Nat.zero_le _⟩
        show denoted (Double.render (.zero true)) = _
        rw [Double.denoted_render (Double.isFinite_zero true), denoted_zero hzero,
          Double.shortest_zero rfl, mul_zero]
      · case _ hzero =>
        rw [if_neg hzero]
        split at hn
        · case _ hsmall =>
          rw [if_pos hsmall]
          refine hsame ?_ ⟨hplain, ?_⟩
          · rw [denoted_plain hplain, hnegative]
            exact denoted_digits true _
          · rw [hnegative]
            exact hsmall
        · case _ hlarge =>
          rw [if_neg hlarge]
          refine copied_of_double (fun hin => hlarge ?_) hn fun _ => .inr (.inl ⟨hplain, ?_⟩)
          · have hle := hin.2
            rwa [hnegative] at hle
          · obtain ⟨x, hx, -⟩ := Double.ofRatio?_small true (Json.Read.le_of_significand hfits)
            rw [hnegative, hx]
            rfl
  · refine copied_of_double (fun hin => hnot ⟨hin.1, Nat.le_trans hin.2 ?_⟩) hn hx
    split <;> decide

end

end Literal

end PipeGuard
