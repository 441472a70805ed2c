import PipeGuard.Proofs.Decimals
import PipeGuard.Proofs.Record
import PipeGuard.Proofs.Tokens

/-! Numbers read, written and read back.

A number that is read is a whole number of 64 bits or a finite double (`number_kept`).
Written as digits, with a fraction or an exponent where it needs one, it can be read
again: as itself if it is whole, and else as some double (`Number.Kept.readsAs`). -/
namespace PipeGuard

open Json (Cursor Read)

namespace Number

/-- A whole number in the range of 64 bits, with or without a sign. Minus zero is kept as a
double. -/
def IsWhole : Number → Prop
  | natural n => n < Nat.pow 2 64
  | negative n => 0 < n ∧ n ≤ Nat.pow 2 63
  | real x => x = .zero true

instance (n : Number) : Decidable n.IsWhole :=
  match n with
  | .natural n => inferInstanceAs (Decidable (n < Nat.pow 2 64))
  | .negative n => inferInstanceAs (Decidable (0 < n ∧ n ≤ Nat.pow 2 63))
  | .real x => inferInstanceAs (Decidable (x = .zero true))

/-- A whole number in that range, or a finite double. -/
def Kept : Number → Prop
  | natural n => n < Nat.pow 2 64
  | negative n => 0 < n ∧ n ≤ Nat.pow 2 63
  | real x => x.IsFinite

end Number

namespace Json.Read

/-! ### What is read -/

theorem gather_le {n : Nat} (h : n ≤ greatestSignificand) (ds : List Char) :
    (gather n ds).1 ≤ greatestSignificand := by
  induction ds generalizing n with
  | nil => exact h
  | cons d ds ih =>
    unfold gather
    simp only
    split
    · case _ hgrown => exact ih hgrown
    · exact h

theorem le_of_significand {n : Nat} (h : n ≤ greatestSignificand) : n ≤ 2 ^ 64 :=
  Nat.le_trans h (Nat.sub_le _ 1)

section
variable {negative : Bool} {significand : Nat} (hfits : significand ≤ greatestSignificand)
  {exponent : Int} {c c' : Cursor} {n : Number}
include hfits

theorem realAt_kept (h : realAt negative significand exponent c = .ok (n, c')) : n.Kept := by
  unfold realAt at h
  split at h
  · case _ hx =>
    cases h
    exact Double.isFinite_ofDecimal? (le_of_significand hfits) hx
  · cases h

theorem withExponent_kept (h : withExponent negative significand exponent c = .ok (n, c')) :
    n.Kept := by
  unfold withExponent at h
  simp only at h
  split at h
  · cases h
  · split at h
    · split at h
      · exact realAt_kept hfits h
      · rcases ite_eq_iff.mp h with ⟨-, h⟩ | ⟨-, h⟩
        · cases h
        · cases h
          exact Double.isFinite_zero negative
    · cases h

theorem withFraction_kept (h : withFraction negative significand exponent c = .ok (n, c')) :
    n.Kept := by
  unfold withFraction at h
  simp only at h
  split at h
  · split at h <;> cases h
  · split at h
    · exact withExponent_kept (gather_le hfits _) h
    · exact realAt_kept (gather_le hfits _) h

omit exponent c c' n in
theorem whole_kept : (whole negative significand).Kept := by
  unfold whole
  split
  · exact Nat.lt_of_le_of_lt hfits (by decide)
  · split
    · exact Double.isFinite_zero true
    · case _ hzero =>
      split
      · case _ hsmall => exact ⟨Nat.pos_of_ne_zero hzero, hsmall⟩
      · obtain ⟨x, hx, -, hfinite⟩ := Double.ofRatio?_small true (le_of_significand hfits)
        rw [hx]
        exact hfinite

end

/-- **A number that was read is a whole number of 64 bits or a finite double.** -/
theorem number_kept {negative : Bool} {c c' : Cursor} {n : Number}
    (h : number negative c = .ok (n, c')) : n.Kept := by
  have hzero : 0 ≤ greatestSignificand := Nat.zero_le _
  unfold number at h
  simp only at h
  split at h
  · cases h
  · split at h
    · generalize (if _ = '0' then _ else _ : List Char × Cursor) = leading at h
      split at h
      · exact withFraction_kept (gather_le hzero _) h
      · split at h
        · cases h
        · split at h
          · exact withExponent_kept (gather_le hzero _) h
          · split at h
            · cases h
              exact whole_kept (gather_le hzero _)
            · exact realAt_kept (gather_le hzero _) h
      · split at h
        · cases h
          exact whole_kept (gather_le hzero _)
        · exact realAt_kept (gather_le hzero _) h
    · cases h

/-! ### Digits -/

theorem ofDigitChars_lt {ds : List Char} (h : ∀ d ∈ ds, d.isDigit = true) :
    Nat.ofDigitChars 10 ds 0 < 10 ^ ds.length := by
  induction ds with
  | nil => exact Nat.one_pos
  | cons d ds ih =>
    obtain ⟨hd, hds⟩ := List.forall_mem_cons.mp h
    have hdigit : d.toNat - '0'.toNat ≤ 9 := by
      have hnine : d.toNat ≤ '9'.toNat := (Char.isDigit_iff_toNat.mp hd).2
      exact Nat.sub_le_sub_right hnine _
    rw [Nat.ofDigitChars_cons, Nat.ofDigitChars_eq_ofDigitChars_zero, Nat.mul_zero, Nat.zero_add,
      List.length_cons, Nat.pow_succ]
    calc 10 ^ ds.length * (d.toNat - '0'.toNat) + Nat.ofDigitChars 10 ds 0
        < 10 ^ ds.length * (d.toNat - '0'.toNat) + 10 ^ ds.length := Nat.add_lt_add_left (ih hds) _
      _ = 10 ^ ds.length * (d.toNat - '0'.toNat + 1) := (Nat.mul_succ _ _).symm
      _ ≤ 10 ^ ds.length * 10 := Nat.mul_le_mul_left _ (Nat.succ_le_succ hdigit)

theorem isDigit_zeros (n : Nat) : ∀ c ∈ List.replicate n '0', c.isDigit = true :=
  fun _ hc => List.eq_of_mem_replicate hc ▸ rfl

/-- A text that no further digit follows. -/
def NoDigit (rest : List Char) : Prop := ∀ c, rest.head? = some c → c.isDigit = false

theorem noDigit_cons {c : Char} (h : c.isDigit = false) (rest : List Char) : NoDigit (c :: rest) :=
  fun _ hc => Option.some.inj hc ▸ h

/-- Digits of an exponent that fit are all taken. -/
theorem exponentFrom_fits {ds rest : List Char} (hds : ∀ d ∈ ds, d.isDigit = true)
    (hrest : NoDigit rest) {n : Nat} (h : Nat.ofDigitChars 10 ds n ≤ greatestExponent)
    (position : Position) :
    ∃ position', exponentFrom n (ds ++ rest) position =
      (some (Nat.ofDigitChars 10 ds n), ⟨rest, position'⟩) := by
  induction ds generalizing n position with
  | nil =>
    cases rest with
    | nil => exact ⟨_, rfl⟩
    | cons c rest =>
      refine ⟨position, ?_⟩
      rw [List.nil_append, exponentFrom, hrest c rfl]
      rfl
  | cons d ds ih =>
    obtain ⟨hd, hds⟩ := List.forall_mem_cons.mp hds
    rw [ofDigitChars_digit] at h ⊢
    obtain ⟨position', hread⟩ := ih hds h (position.after d)
    refine ⟨position', ?_⟩
    rw [List.cons_append, exponentFrom, if_pos hd]
    simp only
    rw [if_pos (Nat.le_trans (le_ofDigitChars _ _) h), hread]

/-! ### Doubles read -/

section
variable {negative : Bool} {significand : Nat} {exponent : Int} {x : Double}

theorem realAt_some (h : Double.ofDecimal? negative significand exponent = some x) (c : Cursor) :
    realAt negative significand exponent c = .ok (.real x, c) := by
  unfold realAt
  rw [h]

/-- An exponent reads back, after its letter. -/
theorem withExponent_written {power : Int} (hpower : power.natAbs ≤ greatestExponent)
    (h : Double.ofDecimal? negative significand (exponent + power) = some x) :
    Takes (withExponent negative significand exponent)
      ((if 0 ≤ power then '+' else '-') :: Nat.toDigits 10 power.natAbs) (.real x) := by
  intro rest position hrest
  have hvalue := @Nat.ofDigitChars_ten_toDigits power.natAbs
  have hdigits : ∀ d ∈ Nat.toDigits 10 power.natAbs, d.isDigit = true := fun d hd =>
    Nat.isDigit_of_mem_toDigits (by decide) (by decide) hd
  obtain ⟨position', hread⟩ := exponentFrom_fits hdigits (fun c hc => isDigit_stops hrest hc)
    (hvalue.trans_le hpower) (position.after (if 0 ≤ power then '+' else '-'))
  rw [hvalue] at hread
  obtain ⟨d, ds, hfirst, hd⟩ := toDigits_cons power.natAbs
  refine ⟨position', ?_⟩
  rcases le_or_gt 0 power with hup | hdown
  · rw [if_pos hup] at hread ⊢
    have hsum : exponent + (power.natAbs : Int) = exponent + power := by omega
    rw [List.cons_append]
    unfold withExponent
    simp only [Cursor.next]
    rw [hread]
    simp only [hfirst, List.cons_append, if_pos hd, Bool.false_eq_true, if_false, hsum]
    exact realAt_some h _
  · rw [if_neg (not_le.mpr hdown)] at hread ⊢
    have hsum : exponent - (power.natAbs : Int) = exponent + power := by omega
    rw [List.cons_append]
    unfold withExponent
    simp only [Cursor.next]
    rw [hread]
    simp only [hfirst, List.cons_append, if_pos hd, if_true, hsum]
    exact realAt_some h _

end

section
variable (negative : Bool) {d : Char} {ds fraction : List Char}
  (hdigits : ∀ c ∈ d :: ds, c.isDigit = true) (hzero : d = '0' → ds = [])
include hdigits hzero

/-- Digits, a point and more digits, up to an exponent or to the end. -/
theorem number_point (hne : fraction ≠ []) (hfraction : ∀ c ∈ fraction, c.isDigit = true)
    (hfits : Nat.ofDigitChars 10 (d :: ds ++ fraction) 0 ≤ greatestSignificand) {rest : List Char}
    (hrest : NoDigit rest) (position : Position) :
    ∃ position', number negative ⟨d :: ds ++ '.' :: (fraction ++ rest), position⟩ =
      if startsExponent rest then
        withExponent negative (Nat.ofDigitChars 10 (d :: ds ++ fraction) 0) (-fraction.length)
          (Cursor.next ⟨rest, position'⟩)
      else realAt negative (Nat.ofDigitChars 10 (d :: ds ++ fraction) 0) (-fraction.length)
        ⟨rest, position'⟩ := by
  rw [Nat.ofDigitChars_append] at hfits ⊢
  have hwhole : gather 0 (d :: ds) = (Nat.ofDigitChars 10 (d :: ds) 0, []) :=
    gather_fits (Nat.le_trans (le_ofDigitChars _ _) hfits)
  obtain ⟨p, hleading⟩ := leading_digits hdigits hzero
    (noDigit_cons (show '.'.isDigit = false by decide) (fraction ++ rest)) position
  obtain ⟨position', hread⟩ := digitsFrom_append hfraction hrest (p.after '.') []
  have hmore : digits ⟨fraction ++ rest, p.after '.'⟩ = (fraction, ⟨rest, position'⟩) := hread
  refine ⟨position', ?_⟩
  obtain ⟨c, cs, hc⟩ := List.exists_cons_of_ne_nil hne
  unfold number
  simp only [List.cons_append, if_pos (hdigits d List.mem_cons_self)] at hleading ⊢
  rw [hleading]
  simp only [hwhole, Cursor.next]
  unfold withFraction
  rw [hmore]
  subst hc
  simp only [gather_fits hfits, List.length_nil, Nat.cast_zero, sub_zero, zero_sub]
  rfl

/-- Digits and an exponent. -/
theorem number_letter (hfits : Nat.ofDigitChars 10 (d :: ds) 0 ≤ greatestSignificand)
    (rest : List Char) (position : Position) :
    ∃ position', number negative ⟨d :: ds ++ 'e' :: rest, position⟩ =
      withExponent negative (Nat.ofDigitChars 10 (d :: ds) 0) 0 ⟨rest, position'⟩ := by
  obtain ⟨p, hleading⟩ := leading_digits hdigits hzero
    (noDigit_cons (show 'e'.isDigit = false by decide) rest) position
  refine ⟨p.after 'e', ?_⟩
  unfold number
  simp only [List.cons_append, if_pos (hdigits d List.mem_cons_self)] at hleading ⊢
  rw [hleading]
  simp only [gather_fits hfits, Cursor.next]
  have hletter : ¬ (d = '0' ∧ 'e'.isDigit = true) := fun h => absurd h.2 (by decide)
  show (if d = '0' ∧ 'e'.isDigit = true then _ else if startsExponent ('e' :: rest) then _ else _) = _
  rw [if_neg hletter, if_pos (show startsExponent ('e' :: rest) = true from rfl)]
  rfl

variable {x : Double}

/-- Digits with a point read back. -/
theorem point_written (hne : fraction ≠ []) (hfraction : ∀ c ∈ fraction, c.isDigit = true)
    (hfits : Nat.ofDigitChars 10 (d :: ds ++ fraction) 0 ≤ greatestSignificand)
    (hx : Double.ofDecimal? negative (Nat.ofDigitChars 10 (d :: ds ++ fraction) 0)
      (-fraction.length) = some x) :
    Takes (number negative) (d :: ds ++ '.' :: fraction) (.real x) := by
  intro rest position hrest
  obtain ⟨position', hread⟩ := number_point negative hdigits hzero hne hfraction hfits
    (fun c hc => isDigit_stops hrest hc) position
  have htext : d :: ds ++ '.' :: fraction ++ rest = d :: ds ++ '.' :: (fraction ++ rest) :=
    List.append_assoc _ _ _
  refine ⟨position', ?_⟩
  rw [htext, hread, startsExponent_stops hrest, if_neg Bool.false_ne_true]
  exact realAt_some hx _

/-- Digits with an exponent read back, and with a point or without. -/
theorem power_written (hfraction : ∀ c ∈ fraction, c.isDigit = true)
    (hfits : Nat.ofDigitChars 10 (d :: ds ++ fraction) 0 ≤ greatestSignificand) {power : Int}
    (hpower : power.natAbs ≤ greatestExponent)
    (hx : Double.ofDecimal? negative (Nat.ofDigitChars 10 (d :: ds ++ fraction) 0)
      (-fraction.length + power) = some x) :
    Takes (number negative) (d :: ds ++ (if fraction.isEmpty then [] else '.' :: fraction) ++
      ['e', if 0 ≤ power then '+' else '-'] ++ Nat.toDigits 10 power.natAbs) (.real x) := by
  intro rest position hrest
  let tail := (if 0 ≤ power then '+' else '-') :: Nat.toDigits 10 power.natAbs ++ rest
  have htext : d :: ds ++ (if fraction.isEmpty then [] else '.' :: fraction) ++
      ['e', if 0 ≤ power then '+' else '-'] ++ Nat.toDigits 10 power.natAbs ++ rest =
        d :: ds ++ (if fraction.isEmpty then [] else '.' :: fraction) ++ 'e' :: tail := by
    simp only [tail, List.append_assoc, List.cons_append, List.nil_append]
  rw [htext]
  cases hfirst : fraction with
  | nil =>
    rw [hfirst, List.append_nil] at hfits hx
    rw [List.length_nil, Nat.cast_zero, neg_zero] at hx
    obtain ⟨p, hread⟩ := number_letter negative hdigits hzero hfits tail position
    obtain ⟨position', hrest⟩ := withExponent_written hpower hx rest p hrest
    exact ⟨position', by rw [List.isEmpty_nil, if_pos rfl, List.append_nil, hread, ← hrest]⟩
  | cons c cs =>
    have hne : fraction ≠ [] := hfirst ▸ List.cons_ne_nil c cs
    obtain ⟨p, hread⟩ := number_point negative hdigits hzero hne hfraction hfits
      (noDigit_cons (show 'e'.isDigit = false by decide) tail) position
    obtain ⟨position', hrest⟩ := withExponent_written hpower hx rest (p.after 'e') hrest
    have hsplit : d :: ds ++ '.' :: fraction ++ 'e' :: tail =
        d :: ds ++ '.' :: (fraction ++ 'e' :: tail) := List.append_assoc _ _ _
    refine ⟨position', ?_⟩
    rw [List.isEmpty_cons, if_neg Bool.false_ne_true, ← hfirst, hsplit, hread,
      if_pos (show startsExponent ('e' :: tail) = true from rfl)]
    exact hrest

end

end Json.Read

/-! ### Doubles written -/

namespace Double

open Json.Read (Takes greatestSignificand)

/-- No double but the greatest has an interval that ends above the limit. -/
theorem interval_le {x : Double} (hfinite : x.IsFinite)
    (hgreatest : ¬ (x.mantissa = 2 ^ 53 - 1 ∧ x.exponent = highest)) :
    ((4 * x.mantissa + 2 : Nat) : ℚ) * 2 ^ (x.exponent - 2) ≤ readableLimit := by
  have hmantissa := hfinite.mantissa_lt
  have hexponent := hfinite.le_highest
  unfold highest at hgreatest hexponent
  obtain ⟨limit, power, hlimit, hpower, hproduct⟩ : ∃ limit power : Nat,
      4 * x.mantissa + 2 ≤ limit ∧ x.exponent - 2 ≤ power ∧ limit * 2 ^ power ≤ readableLimit := by
    rcases hexponent.lt_or_eq with hless | heq
    · exact ⟨2 ^ 55 - 2, 968, by omega, by omega, by decide +kernel⟩
    · exact ⟨2 ^ 55 - 6, 969, by omega, by omega, by decide +kernel⟩
  calc ((4 * x.mantissa + 2 : Nat) : ℚ) * 2 ^ (x.exponent - 2)
      ≤ (limit : Nat) * 2 ^ (power : Int) := mul_le_mul (by exact_mod_cast hlimit)
        (zpow_le_zpow_right₀ (by norm_num) hpower) (two_zpow_pos _).le (Nat.cast_nonneg _)
    _ ≤ readableLimit := by rw [zpow_natCast]; exact_mod_cast hproduct

theorem shortest_exponent_lt {x : Double} (hfinite : x.IsFinite) (hpositive : 0 < x.mantissa) :
    x.shortest.exponent < 309 := by
  have hshortest := shortest_spec hpositive hfinite.lowest_le
  have hmantissa : 4 * x.mantissa + 2 ≤ 2 ^ 55 := by
    have := hfinite.mantissa_lt
    omega
  have hexponent : x.exponent - 2 ≤ 969 := by
    have hhighest : x.exponent ≤ 971 := hfinite.le_highest
    omega
  have hpowers : 2 ^ 55 * 2 ^ 969 < 10 ^ 309 := by decide +kernel
  refine (zpow_lt_zpow_iff_right₀ (show (1 : ℚ) < 10 by norm_num)).mp ?_
  calc (10 : ℚ) ^ x.shortest.exponent ≤ x.shortest.value :=
        le_mul_of_one_le_left (ten_zpow_pos _).le (by exact_mod_cast hshortest.positive)
    _ ≤ ((4 * x.mantissa + 2 : Nat) : ℚ) * 2 ^ (x.exponent - 2) := hshortest.value_le
    _ ≤ (2 ^ 55 : Nat) * 2 ^ (969 : Int) := mul_le_mul (by exact_mod_cast hmantissa)
        (zpow_le_zpow_right₀ (by norm_num) hexponent) (two_zpow_pos _).le (Nat.cast_nonneg _)
    _ < 10 ^ (309 : Int) := by
        rw [zpow_ofNat, zpow_ofNat]
        exact_mod_cast hpowers

/-- The decimal of the greatest double lies above it, but not by too much. -/
theorem greatest_readable (negative : Bool) : ∀ sign, ∃ y,
    ofDecimal? negative (shortest ⟨sign, 2 ^ 53 - 1, highest⟩).significand
      (shortest ⟨sign, 2 ^ 53 - 1, highest⟩).exponent = some y := by
  have hsome : ∀ negative sign : Bool,
      (ofDecimal? negative (shortest ⟨sign, 2 ^ 53 - 1, highest⟩).significand
        (shortest ⟨sign, 2 ^ 53 - 1, highest⟩).exponent).isSome = true := by decide +kernel
  exact fun sign => Option.isSome_iff_exists.mp (hsome negative sign)

/-- **The shortest decimal of a double can be read.** -/
theorem shortest_readable (negative : Bool) {x : Double} (hfinite : x.IsFinite)
    (hpositive : 0 < x.mantissa) :
    ∃ y, ofDecimal? negative x.shortest.significand x.shortest.exponent = some y := by
  have hshortest := shortest_spec hpositive hfinite.lowest_le
  have hfits := hshortest.significand_lt.le
  by_cases hgreatest : x.mantissa = 2 ^ 53 - 1 ∧ x.exponent = highest
  · obtain ⟨sign, mantissa, exponent⟩ := x
    obtain ⟨rfl, rfl⟩ := hgreatest
    exact greatest_readable negative sign
  · have hvalue := hshortest.value_le.trans (interval_le hfinite hgreatest)
    rcases lt_or_ge x.shortest.exponent 0 with hfraction | hwhole
    · exact ofDecimal?_fraction negative hfits hfraction
    · obtain ⟨n, hn⟩ := Int.eq_ofNat_of_zero_le hwhole
      unfold Decimal.value at hvalue
      rw [hn, zpow_natCast] at hvalue
      rw [hn]
      exact ofDecimal?_whole negative hfits hshortest.positive (by exact_mod_cast hvalue)

/-- A text without a sign that is read as a double. -/
def IsText (negative : Bool) (text : List Char) : Prop :=
  (∃ d ds, text = d :: ds ∧ d.isDigit = true) ∧
    ∃ y, Takes (Json.Read.number negative) text (.real y)

section
variable (negative : Bool) {d : Char} {ds fraction : List Char}
  (hdigits : ∀ c ∈ d :: ds, c.isDigit = true)
include hdigits

theorem isText_point (hzero : d = '0' → ds = []) (hne : fraction ≠ [])
    (hfraction : ∀ c ∈ fraction, c.isDigit = true)
    (hfits : Nat.ofDigitChars 10 (d :: ds ++ fraction) 0 ≤ greatestSignificand) :
    IsText negative (d :: ds ++ '.' :: fraction) := by
  have hlength : -(fraction.length : Int) < 0 := by
    have := List.length_pos_of_ne_nil hne
    omega
  obtain ⟨y, hy⟩ :=
    ofDecimal?_fraction negative (Json.Read.le_of_significand hfits) hlength
  exact ⟨⟨d, _, rfl, hdigits d List.mem_cons_self⟩, y,
    Json.Read.point_written negative hdigits hzero hne hfraction hfits hy⟩

variable (hfirst : d ≠ '0') (hfits : Nat.ofDigitChars 10 (d :: ds) 0 ≤ greatestSignificand)
include hfirst hfits

/-- The point stands among the digits, or behind them and as many zeros as it takes. -/
theorem isText_among {point : Nat} (hpoint : 0 < point) (hshort : point ≤ 16) {whole : List Char}
    (hwhole : whole = d :: ds ++ List.replicate (point - (d :: ds).length) '0') :
    IsText negative (whole.take point ++
      '.' :: (if (whole.drop point).isEmpty then ['0'] else whole.drop point)) := by
  have hall : ∀ c ∈ whole, c.isDigit = true := by
    rw [hwhole]
    exact List.forall_mem_append.mpr ⟨hdigits, Json.Read.isDigit_zeros _⟩
  obtain ⟨n, rfl⟩ : ∃ n, point = n + 1 := ⟨point - 1, by omega⟩
  obtain ⟨rest, hrest⟩ : ∃ rest, whole.take (n + 1) = d :: rest := ⟨_, by rw [hwhole]; rfl⟩
  have htake : ∀ c ∈ d :: rest, c.isDigit = true :=
    fun c hc => hall c (List.mem_of_mem_take (hrest ▸ hc))
  have hnone : d = '0' → rest = [] := fun h => absurd h hfirst
  by_cases hempty : whole.drop (n + 1) = []
  · rw [hempty, List.isEmpty_nil, if_pos rfl, hrest]
    have hlength : (d :: rest ++ ['0']).length ≤ 17 := by
      rw [← hrest, List.length_append, List.length_take]
      simp only [List.length_singleton]
      omega
    have hzero : ∀ c ∈ ['0'], c.isDigit = true := List.forall_mem_singleton.mpr rfl
    refine isText_point negative htake hnone (List.cons_ne_nil _ _) hzero ?_
    have hlt := Json.Read.ofDigitChars_lt (List.forall_mem_append.mpr ⟨htake, hzero⟩)
    exact hlt.le.trans ((Nat.pow_le_pow_right (by decide) hlength).trans (by decide))
  · -- then there are no zeros
    have hlong : whole = d :: ds := by
      rw [hwhole]
      have hlt : n + 1 < whole.length := by
        by_contra hle
        exact hempty (List.drop_eq_nil_of_le (not_lt.mp hle))
      have hnil : n + 1 - (d :: ds).length = 0 := by
        rw [hwhole, List.length_append, List.length_replicate] at hlt
        omega
      rw [hnil, List.replicate_zero, List.append_nil]
    have hsplit : d :: rest ++ whole.drop (n + 1) = d :: ds := by
      rw [← hrest, List.take_append_drop, hlong]
    rw [if_neg (by rwa [List.isEmpty_iff]), hrest]
    exact isText_point negative htake hnone hempty
      (fun c hc => hall c (List.mem_of_mem_drop hc)) (hsplit ▸ hfits)

omit hfirst in
/-- The point stands before the digits, with zeros between. -/
theorem isText_before (zeros : Nat) :
    IsText negative (['0', '.'] ++ List.replicate zeros '0' ++ d :: ds) := by
  have hzeros : ∀ c ∈ List.replicate zeros '0' ++ d :: ds, c.isDigit = true :=
    List.forall_mem_append.mpr ⟨Json.Read.isDigit_zeros _, hdigits⟩
  have hvalue : Nat.ofDigitChars 10 (['0'] ++ (List.replicate zeros '0' ++ d :: ds)) 0 =
      Nat.ofDigitChars 10 (d :: ds) 0 := by
    rw [Nat.ofDigitChars_append, Nat.ofDigitChars_append]
    show Nat.ofDigitChars 10 (d :: ds) (Nat.ofDigitChars 10 (List.replicate zeros '0') 0) = _
    rw [Nat.ofDigitChars_replicate_zero, Nat.mul_zero]
  show IsText negative (['0'] ++ '.' :: (List.replicate zeros '0' ++ d :: ds))
  exact isText_point negative (List.forall_mem_singleton.mpr rfl) (fun _ => rfl) (by simp) hzeros
    (hvalue.trans_le hfits)

end

/-- The digits of a positive decimal: the first is no zero, and they are few. -/
theorem digits_of_upTo {d : Decimal} {bound : ℚ} (h : d.UpTo bound) : ∃ first rest,
    d.digits = first :: rest ∧ first ≠ '0' ∧ (∀ c ∈ first :: rest, c.isDigit = true) ∧
      (first :: rest).length ≤ 20 ∧ Nat.ofDigitChars 10 (first :: rest) 0 = d.significand := by
  obtain ⟨first, rest, hdigits, -⟩ := Json.Read.toDigits_cons d.significand
  have hvalue := @Nat.ofDigitChars_ten_toDigits d.significand
  have hall : ∀ c ∈ d.digits, c.isDigit = true := fun c hc =>
    Nat.isDigit_of_mem_toDigits (by decide) (by decide) hc
  have hlength : d.digits.length ≤ 20 :=
    (Nat.length_toDigits_le_iff (by decide) (by decide)).mpr
      (h.significand_lt.trans (by decide))
  have hcons : d.digits = first :: rest := hdigits
  refine ⟨first, rest, hcons, ?_, hcons ▸ hall, hcons ▸ hlength, hdigits ▸ hvalue⟩
  rintro rfl
  exact absurd (Json.Read.toDigits_eq_zero_cons hdigits) (Nat.ne_of_gt h.positive)

/-- **What a double is written as is read as a double.** -/
theorem isText_render (negative : Bool) {x : Double} (hfinite : x.IsFinite) :
    ∃ text, IsText negative text ∧ x.render = (if x.negative then ['-'] else []) ++ text := by
  unfold render
  refine ⟨_, ?_, rfl⟩
  rcases Nat.eq_zero_or_pos x.mantissa with hzero | hpositive
  · rw [if_pos hzero]
    have hdigit : ∀ c ∈ ['0'], c.isDigit = true := List.forall_mem_singleton.mpr rfl
    exact isText_point negative hdigit (fun _ => rfl) (List.cons_ne_nil _ _) hdigit
      (Nat.zero_le _)
  · rw [if_neg (Nat.ne_of_gt hpositive)]
    have hshortest := shortest_spec hpositive hfinite.lowest_le
    obtain ⟨d, ds, hdigits, hfirst, hall, hlength, hvalue⟩ := digits_of_upTo hshortest
    have hfits : Nat.ofDigitChars 10 (d :: ds) 0 ≤ greatestSignificand :=
      hvalue.trans_le (Nat.le_pred_of_lt hshortest.significand_lt)
    have hpoint : x.shortest.point = (d :: ds).length + x.shortest.exponent := by
      unfold Decimal.point
      rw [hdigits]
    simp only [hdigits]
    split
    · case _ hamong => exact isText_among negative hall hfirst hfits (by omega) (by omega) rfl
    · split
      · exact isText_before negative hall hfits _
      · obtain ⟨y, hy⟩ := shortest_readable negative hfinite hpositive
        have hlarge := shortest_exponent_lt hfinite hpositive
        have hsmall := hshortest.le_exponent
        have hpower : (x.shortest.point - 1).natAbs ≤ Json.Read.greatestExponent := by
          have : (500 : Nat) ≤ Json.Read.greatestExponent := by decide
          omega
        have hsum : -(ds.length : Int) + (x.shortest.point - 1) = x.shortest.exponent := by
          rw [hpoint, List.length_cons]
          omega
        rw [← hvalue, ← hsum] at hy
        obtain ⟨hdigit, hrest⟩ := List.forall_mem_cons.mp hall
        exact ⟨⟨d, _, rfl, hdigit⟩, y, Json.Read.power_written negative
          (List.forall_mem_singleton.mpr hdigit) (fun h => absurd h hfirst) hrest hfits hpower hy⟩

end Double

/-! ### Numbers read back -/

namespace Number

open Json.Read (Takes)

/-- What a number is written as is read as a number, and may begin an item. -/
structure ReadsAs (n n' : Number) : Prop where
  begins : Json.Begins n.render
  takes : ∀ depth, Takes (Json.Read.value depth) n.render (.number n')

theorem readsAs_signed (negative : Bool) {n n' : Number} {text : List Char}
    (hrender : n.render = (if negative then ['-'] else []) ++ text)
    (hfirst : ∃ d ds, text = d :: ds ∧ d.isDigit = true)
    (h : Takes (Json.Read.number negative) text n') : n.ReadsAs n' := by
  obtain ⟨d, ds, rfl, hd⟩ := hfirst
  cases negative with
  | false =>
    have hdigit : n.render = d :: ds := hrender
    have hbegins := Json.begins_digit hd ds
    refine ⟨hdigit ▸ hbegins, fun depth rest position hrest => ?_⟩
    obtain ⟨position', hread⟩ := h rest position hrest
    have hgap := hbegins.skipGap rest position
    refine ⟨position', ?_⟩
    rw [hdigit, Json.Read.value_digit (congrArg Cursor.rest hgap) hd, hgap, hread]
    rfl
  | true =>
    have hminus : n.render = '-' :: d :: ds := hrender
    refine ⟨hminus ▸ Json.begins_cons (by decide), fun depth rest position hrest => ?_⟩
    obtain ⟨position', hread⟩ := h rest (position.after '-') hrest
    refine ⟨position', ?_⟩
    rw [hminus, List.cons_append, Json.Read.value_minus rfl]
    show (Json.Read.number true ⟨d :: ds ++ rest, position.after '-'⟩).map _ = _
    rw [hread]
    rfl

/-- **A whole number reads back as it is.** -/
theorem IsWhole.readsAs {n : Number} (h : n.IsWhole) : n.ReadsAs n := by
  cases n with
  | natural n =>
    exact readsAs_signed false rfl (Json.Read.toDigits_cons n)
      (Json.Read.number_digits false (Nat.le_pred_of_lt h))
  | negative n =>
    obtain ⟨hpositive, hle⟩ := h
    have hvalue : Json.Read.whole true n = .negative n := by
      unfold Json.Read.whole
      rw [if_neg (by decide), if_neg (Nat.ne_of_gt hpositive), if_pos hle]
    have hread := Json.Read.number_digits true
      (Nat.le_trans hle (show Nat.pow 2 63 ≤ Json.Read.greatestSignificand by decide))
    rw [hvalue] at hread
    exact readsAs_signed true rfl (Json.Read.toDigits_cons n) hread
  | real x =>
    obtain rfl : x = .zero true := h
    have hrender : (Number.real (.zero true)).render = ['-'] ++ (['0'] ++ '.' :: ['0']) := by
      decide +kernel
    have hdecimal : Double.ofDecimal? true 0 (-1) = some (.zero true) := by decide +kernel
    have hdigit : ∀ c ∈ ['0'], c.isDigit = true := List.forall_mem_singleton.mpr rfl
    exact readsAs_signed true hrender ⟨'0', _, rfl, rfl⟩
      (Json.Read.point_written true hdigit (fun _ => rfl) (List.cons_ne_nil _ _) hdigit
        (Nat.zero_le _) hdecimal)

theorem IsWhole.kept {n : Number} (h : n.IsWhole) : n.Kept := by
  cases n with
  | natural n => exact h
  | negative n => exact h
  | real x => exact (show x = .zero true from h) ▸ Double.isFinite_zero true

/-- **Any number that was read can be read again.** -/
theorem Kept.readsAs {n : Number} (h : n.Kept) : ∃ n', n.ReadsAs n' := by
  cases n with
  | natural n => exact ⟨_, IsWhole.readsAs (show (natural n).IsWhole from h)⟩
  | negative n => exact ⟨_, IsWhole.readsAs (show (negative n).IsWhole from h)⟩
  | real x =>
    obtain ⟨text, ⟨hfirst, y, hread⟩, hrender⟩ := Double.isText_render x.negative h
    exact ⟨.real y, readsAs_signed _ hrender hfirst hread⟩

end Number

end PipeGuard
