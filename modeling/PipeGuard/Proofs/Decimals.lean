import PipeGuard.Json.Shortest
import PipeGuard.Proofs.Rounding

/-! How large the shortest decimal of a double is.

The decimals that are tried lie on grids, the first with the power of ten that the double
begins with and seventeen finer ones (`decimalExponent_spec`). A decimal of a grid is taken
from the interval around the double (`onGrid?_spec`), so it is no greater than the end of
that interval, and not so fine that its digits would not fit in 64 bits
(`shortest_spec`). -/
namespace PipeGuard

namespace Decimal

/-- The number that a decimal stands for. -/
def value (d : Decimal) : ℚ := d.significand * 10 ^ d.exponent

/-- A positive decimal up to a bound, with digits that fit in 64 bits. -/
structure UpTo (bound : ℚ) (d : Decimal) : Prop where
  positive : 0 < d.significand
  significand_lt : d.significand < 2 ^ 64
  value_le : d.value ≤ bound
  le_exponent : -347 ≤ d.exponent

/-- Trailing zeros are worth nothing. -/
theorem strip_spec (count : Nat) (d : Decimal) :
    (d.strip count).value = d.value ∧ (d.strip count).significand ≤ d.significand ∧
      d.exponent ≤ (d.strip count).exponent := by
  induction count generalizing d with
  | zero => exact ⟨rfl, le_refl _, le_refl _⟩
  | succ count ih =>
    rw [strip]
    split
    · case _ hten =>
      obtain ⟨significand, exponent⟩ := d
      have hsplit : significand = significand / 10 * 10 :=
        (Nat.div_mul_cancel (Nat.dvd_of_mod_eq_zero hten)).symm
      obtain ⟨hvalue, hle, hexponent⟩ := ih ⟨significand / 10, exponent + 1⟩
      refine ⟨hvalue.trans ?_, hle.trans (Nat.div_le_self _ _),
        (Int.le_add_one (le_refl exponent)).trans hexponent⟩
      show ((significand / 10 : Nat) : ℚ) * 10 ^ (exponent + 1) = significand * 10 ^ exponent
      rw [zpow_add_one₀ (by norm_num), mul_comm ((10 : ℚ) ^ exponent), ← mul_assoc]
      congr 1
      exact_mod_cast hsplit.symm
    · exact ⟨rfl, le_refl _, le_refl _⟩

theorem value_pos_iff {d : Decimal} : 0 < d.value ↔ 0 < d.significand := by
  unfold value
  rw [mul_pos_iff_of_pos_right (zpow_pos (by norm_num) _)]
  exact Nat.cast_pos

/-- Trailing zeros may go. -/
theorem UpTo.strip {bound : ℚ} {d : Decimal} (h : d.UpTo bound) (count : Nat) :
    (d.strip count).UpTo bound := by
  obtain ⟨hvalue, hle, hexponent⟩ := strip_spec count d
  refine ⟨?_, hle.trans_lt h.significand_lt, hvalue.trans_le h.value_le,
    h.le_exponent.trans hexponent⟩
  rw [← value_pos_iff, hvalue, value_pos_iff]
  exact h.positive

end Decimal

namespace Double

theorem ten_zpow_pos (e : Int) : (0 : ℚ) < 10 ^ e := zpow_pos (by norm_num) e

variable {num den : Nat}

/-! ### The first digit -/

theorem leadingZeros_spec (steps count : Nat) {num : Nat} (h : num < 10 * den) :
    ∃ zeros ≤ steps, leadingZeros steps count num den = count + zeros ∧
      num * 10 ^ zeros < 10 * den ∧ (den ≤ num * 10 ^ zeros ∨ zeros = steps) := by
  induction steps generalizing count num with
  | zero => exact ⟨0, le_refl 0, rfl, by rwa [pow_zero, mul_one], .inr rfl⟩
  | succ steps ih =>
    rw [leadingZeros]
    split
    · case _ hle =>
      exact ⟨0, Nat.zero_le _, rfl, by rwa [pow_zero, mul_one], .inl (by rwa [pow_zero, mul_one])⟩
    · case _ hlt =>
      obtain ⟨zeros, hle, hzeros, habove, hbelow⟩ := @ih (count + 1) (num * 10) (by omega)
      rw [mul_assoc, ← pow_succ'] at habove hbelow
      exact ⟨zeros + 1, by omega, by omega, habove, hbelow.imp_right (congrArg (· + 1))⟩

/-- The power of ten that a fraction begins with, if the fraction is not too small. -/
theorem decimalExponent_spec (hden : 0 < den) (hsmall : (10 : ℚ) ^ (-329 : Int) ≤ num / den) :
    (10 : ℚ) ^ decimalExponent num den ≤ num / den ∧
      (num : ℚ) / den < 10 ^ (decimalExponent num den + 1) := by
  have hpos : (0 : ℚ) < den := by exact_mod_cast hden
  unfold decimalExponent
  split
  · case _ hle =>
    have hquotient : 0 < num / den := Nat.div_pos hle hden
    generalize hlength : (Nat.toDigits 10 (num / den)).length = length
    have hlong : 0 < length := hlength ▸ Nat.length_toDigits_pos
    have habove : num / den < 10 ^ length :=
      (Nat.length_toDigits_le_iff (by decide) hlong).mp hlength.le
    have hbelow : 10 ^ (length - 1) ≤ num / den := by
      rcases Nat.eq_zero_or_pos (length - 1) with hzero | hmore
      · rw [hzero]
        exact hquotient
      · refine not_lt.mp fun hlt => ?_
        have := (Nat.length_toDigits_le_iff (by decide) hmore).mpr hlt
        omega
    rw [Nat.div_lt_iff_lt_mul hden] at habove
    rw [Nat.le_div_iff_mul_le hden] at hbelow
    rw [le_div_iff₀ hpos, div_lt_iff₀ hpos]
    have hexponent : (length : Int) - 1 = (length - 1 : Nat) := by omega
    constructor
    · rw [hexponent, zpow_natCast]
      exact_mod_cast hbelow
    · rw [sub_add_cancel, zpow_natCast]
      exact_mod_cast habove
  · case _ hlt =>
    obtain ⟨zeros, -, hzeros, habove, hbelow⟩ :=
      leadingZeros_spec 330 0 (show num < 10 * den by omega)
    rw [Nat.zero_add] at hzeros
    have hten : (0 : ℚ) < 10 ^ zeros := by positivity
    have habove' : (num : ℚ) * 10 ^ zeros < 10 * den := by exact_mod_cast habove
    rw [hzeros, zpow_neg, zpow_add_one₀ (by norm_num), zpow_neg, zpow_natCast]
    constructor
    · rw [inv_le_iff_one_le_mul₀ hten, div_mul_eq_mul_div, le_div_iff₀ hpos, one_mul]
      rcases hbelow with hbelow | hsteps
      · exact_mod_cast hbelow
      · -- then the fraction is smaller than allowed
        exfalso
        rw [zpow_neg, zpow_ofNat, inv_le_iff_one_le_mul₀ (by positivity), div_mul_eq_mul_div,
          le_div_iff₀ hpos, one_mul] at hsmall
        rw [hsteps, pow_succ, ← mul_assoc, mul_comm 10 (den : ℚ)] at habove'
        exact absurd (lt_of_mul_lt_mul_right habove' (by norm_num)) (not_lt.mpr hsmall)
    · rw [div_lt_iff₀ hpos, inv_mul_eq_div, div_mul_eq_mul_div, lt_div_iff₀ hten]
      exact habove'

/-! ### The grids -/

/-- A fraction in units of a power of ten. -/
theorem tens_ratio (num den : Nat) (e : Int) :
    ((num * Nat.pow 10 (-e).toNat : Nat) : ℚ) / (den * Nat.pow 10 e.toNat : Nat) =
      num / den / 10 ^ e := by
  rcases le_total 0 e with h | h
  · have hnone : (-e).toNat = 0 := by omega
    rw [hnone, Nat.cast_mul, Nat.cast_mul, cast_pow_toNat 10 h, div_div]
    simp
  · have hnone : e.toNat = 0 := by omega
    have hneg : 0 ≤ -e := by omega
    rw [hnone, Nat.cast_mul, Nat.cast_mul, cast_pow_toNat 10 hneg, zpow_neg]
    simp [div_eq_mul_inv, mul_right_comm]

/-- What lies below a number of units of a grid. -/
theorem grid_le {e : Int} (hden : 0 < den) {point limit : Nat}
    (h : point * (den * Nat.pow 10 e.toNat) ≤ limit * (num * Nat.pow 10 (-e).toNat)) :
    Decimal.value ⟨point, e⟩ ≤ limit * (num / den) := by
  have hpos : (0 : ℚ) < (den * Nat.pow 10 e.toNat : Nat) := by
    exact_mod_cast Nat.mul_pos hden (Nat.pow_pos (by decide))
  have hle : (point : ℚ) ≤ limit * (num / den / 10 ^ e) := by
    rw [← tens_ratio, ← mul_div_assoc, le_div_iff₀ hpos]
    exact_mod_cast h
  rw [← mul_div_assoc, le_div_iff₀ (ten_zpow_pos e)] at hle
  exact hle

section
variable {span : Span} (hlow : 0 < span.low) (hmid : span.mid ≤ span.high) (hnum : 0 < num)
  (hden : 0 < den)
include hlow hmid hnum hden

omit hlow hmid hnum hden in
theorem le_of_fits {limit point : Nat}
    (h : if span.closed then limit ≤ point else limit < point) : limit ≤ point := by
  split at h
  · exact h
  · exact Nat.le_of_lt h

/-- A decimal that serves for a double lies in its span. -/
theorem onGrid?_spec {e : Int} {d : Decimal} (h : onGrid? span num den e = some d) :
    d.exponent = e ∧ 0 < d.significand ∧ d.value ≤ span.high * (num / den) := by
  unfold onGrid? at h
  simp only at h
  generalize hn : num * Nat.pow 10 (-e).toNat = n at h
  generalize hd : den * Nat.pow 10 e.toNat = d' at h
  have hn' : 0 < n := hn ▸ Nat.mul_pos hnum (Nat.pow_pos (by decide))
  rcases ite_eq_iff.mp h with ⟨hfits, h⟩ | ⟨-, h⟩
  · obtain rfl := Option.some.inj h
    have hbelow : span.low * n ≤ span.mid * n / d' * d' := le_of_fits hfits.1
    refine ⟨rfl, ?_, grid_le hden ?_⟩
    · refine Nat.pos_of_ne_zero fun hzero => ?_
      rw [show span.mid * n / d' = 0 from hzero, Nat.zero_mul] at hbelow
      exact absurd hbelow (Nat.not_le.mpr (Nat.mul_pos hlow hn'))
    · rw [hn, hd]
      exact (Nat.div_mul_le_self _ _).trans (Nat.mul_le_mul_right n hmid)
  · rcases ite_eq_iff.mp h with ⟨hfits, h⟩ | ⟨-, h⟩
    · obtain rfl := Option.some.inj h
      refine ⟨rfl, Nat.succ_pos _, grid_le hden ?_⟩
      rw [hn, hd]
      exact le_of_fits hfits
    · cases h

/-- So does the first decimal that is found, or the one of the finest grid. -/
theorem firstGrid_spec (finer : Nat) {e : Int}
    (hfine : (10 : ℚ) ^ (e - finer) ≤ span.mid * (num / den)) :
    e - finer ≤ (firstGrid span num den finer e).exponent ∧
      0 < (firstGrid span num den finer e).significand ∧
      (firstGrid span num den finer e).value ≤ span.high * (num / den) := by
  induction finer generalizing e with
  | zero =>
    rw [Nat.cast_zero, sub_zero] at hfine ⊢
    rw [firstGrid, mul_assoc]
    refine ⟨le_refl e, ?_, grid_le hden ?_⟩
    · refine Nat.div_pos ?_ (Nat.mul_pos hden (Nat.pow_pos (by decide)))
      have hpos : (0 : ℚ) < (den * Nat.pow 10 e.toNat : Nat) := by
        exact_mod_cast Nat.mul_pos hden (Nat.pow_pos (by decide))
      have hone : (1 : ℚ) ≤ span.mid * (num / den / 10 ^ e) := by
        rw [← mul_div_assoc, le_div_iff₀ (ten_zpow_pos e), one_mul]
        exact hfine
      rw [← tens_ratio, ← mul_div_assoc, le_div_iff₀ hpos, one_mul] at hone
      exact_mod_cast hone
    · exact (Nat.div_mul_le_self _ _).trans (Nat.mul_le_mul_right _ hmid)
  | succ finer ih =>
    rw [firstGrid]
    cases hgrid : onGrid? span num den e with
    | some d =>
      obtain ⟨hexponent, hpositive, hvalue⟩ := onGrid?_spec hlow hmid hnum hden hgrid
      exact ⟨by rw [Option.getD_some, hexponent]; omega, hpositive, hvalue⟩
    | none =>
      have hsame : e - (finer + 1 : Nat) = e - 1 - finer := by omega
      rw [hsame] at hfine ⊢
      rw [Option.getD_none]
      exact ih hfine

end

/-! ### The shortest decimal -/

/-- A quarter of a double's last place, as a ratio. -/
theorem quarter_ratio (exponent : Int) : 0 < (inUnits 1 1 (2 - exponent)).1 ∧
    0 < (inUnits 1 1 (2 - exponent)).2 ∧
    ((inUnits 1 1 (2 - exponent)).1 : ℚ) / (inUnits 1 1 (2 - exponent)).2 =
      2 ^ (exponent - 2) := by
  have hunit : ((inUnits 1 1 (2 - exponent)).1 : ℚ) / (inUnits 1 1 (2 - exponent)).2 =
      2 ^ (exponent - 2) := by
    rw [inUnits_ratio, Nat.cast_one, div_one, one_div, ← zpow_neg, neg_sub]
  refine ⟨Nat.pos_of_ne_zero fun hzero => ?_, inUnits_pos Nat.one_pos 1 _, hunit⟩
  rw [hzero, Nat.cast_zero, zero_div] at hunit
  exact (two_zpow_pos _).ne hunit

section
variable {x : Double} (hmantissa : 0 < x.mantissa)
include hmantissa

theorem span_low_pos : 0 < x.span.low := by
  show 0 < 4 * x.mantissa - _
  split <;> omega

theorem span_high_le : (x.span.high : ℚ) ≤ 3 / 2 * x.span.mid := by
  have : 2 * (4 * x.mantissa + 2) ≤ 3 * (4 * x.mantissa) := by omega
  have hcast : (2 : ℚ) * x.span.high ≤ 3 * x.span.mid := by exact_mod_cast this
  linarith

/-- Doubles are no smaller than the least of them. -/
theorem le_span_mid (hlowest : lowest ≤ x.exponent) :
    (10 : ℚ) ^ (-329 : Int) ≤ x.span.mid * 2 ^ (x.exponent - 2) := by
  have hone : (1 : ℚ) ≤ x.span.mid := by
    have : 1 ≤ 4 * x.mantissa := by omega
    exact_mod_cast this
  have hpowers : 2 ^ 1076 ≤ 10 ^ 329 := by decide +kernel
  calc (10 : ℚ) ^ (-329 : Int) ≤ 2 ^ (-1076 : Int) := by
        rw [zpow_neg, zpow_neg, zpow_ofNat, zpow_ofNat]
        exact inv_anti₀ (by positivity) (by exact_mod_cast hpowers)
    _ ≤ 2 ^ (x.exponent - 2) :=
      zpow_le_zpow_right₀ (by norm_num) (by unfold lowest at hlowest; omega)
    _ ≤ x.span.mid * 2 ^ (x.exponent - 2) := le_mul_of_one_le_left (two_zpow_pos _).le hone

/-- One and a half of the double, in units of a grid that is 18 places finer at most. -/
theorem significand_lt {unit : ℚ} (hunit : 0 < unit) {first : Int}
    (habove : x.span.mid * unit < 10 ^ (first + 1)) {d : Decimal}
    (hfine : first - 17 ≤ d.exponent) (hvalue : d.value ≤ x.span.high * unit) :
    d.significand < 2 ^ 64 := by
  have hlarge : (d.significand : ℚ) * 10 ^ d.exponent < 3 / 2 * 10 ^ 18 * 10 ^ d.exponent := by
    calc (d.significand : ℚ) * 10 ^ d.exponent ≤ x.span.high * unit := hvalue
      _ ≤ 3 / 2 * (x.span.mid * unit) := by
        rw [← mul_assoc]
        exact mul_le_mul_of_nonneg_right (span_high_le hmantissa) hunit.le
      _ < 3 / 2 * 10 ^ (first + 1) := mul_lt_mul_of_pos_left habove (by norm_num)
      _ ≤ 3 / 2 * 10 ^ (18 + d.exponent) := mul_le_mul_of_nonneg_left
        (zpow_le_zpow_right₀ (by norm_num) (by omega)) (by norm_num)
      _ = 3 / 2 * 10 ^ 18 * 10 ^ d.exponent := by
        rw [zpow_add₀ (by norm_num), mul_assoc]
        norm_num
  have hsignificand := lt_of_mul_lt_mul_right hlarge (ten_zpow_pos _).le
  have hfits : (d.significand : ℚ) < (2 ^ 64 : Nat) := hsignificand.trans (by norm_num)
  exact_mod_cast hfits

/-- The shortest decimal comes from the first grid that serves, from the power of ten of the first
digit on. -/
theorem shortest_found (hlowest : lowest ≤ x.exponent) :
    ∃ (num den : Nat) (first : Int), 0 < den ∧ (num / den : ℚ) = 2 ^ (x.exponent - 2) ∧
      (10 : ℚ) ^ first ≤ x.span.mid * (num / den) ∧
      (x.span.mid * (num / den) : ℚ) < 10 ^ (first + 1) ∧
      x.shortest = (firstGrid x.span num den 17 first).strip 17 := by
  obtain ⟨hnum, hden, hunit⟩ := quarter_ratio x.exponent
  have hsmall := le_span_mid hmantissa hlowest
  rw [← hunit] at hsmall
  unfold shortest
  rw [if_neg (Nat.ne_of_gt hmantissa)]
  simp only
  generalize inUnits 1 1 (2 - x.exponent) = unit at hunit hden hsmall
  have hmid : ((4 * x.mantissa * unit.1 : Nat) : ℚ) / unit.2 =
      (x.span.mid : ℚ) * (unit.1 / unit.2) := by
    rw [Nat.cast_mul, mul_div_assoc]
    rfl
  obtain ⟨hbelow, habove⟩ := decimalExponent_spec hden (hmid ▸ hsmall)
  rw [hmid] at hbelow habove
  exact ⟨unit.1, unit.2, _, hden, hunit, hbelow, habove, rfl⟩

/-- **The shortest decimal of a double lies below the end of its interval**, and its digits fit in
64 bits. -/
theorem shortest_spec (hlowest : lowest ≤ x.exponent) :
    x.shortest.UpTo ((4 * x.mantissa + 2 : Nat) * 2 ^ (x.exponent - 2)) := by
  obtain ⟨num, den, first, hden, hunit, hbelow, habove, hshortest⟩ :=
    shortest_found hmantissa hlowest
  have hsmall := le_span_mid hmantissa hlowest
  rw [← hunit] at hsmall
  have hratio : (0 : ℚ) < num / den := hunit ▸ two_zpow_pos _
  have hnum : 0 < num := by
    refine Nat.pos_of_ne_zero fun hzero => ?_
    rw [hzero, Nat.cast_zero, zero_div] at hratio
    exact lt_irrefl _ hratio
  have hfirst : -330 ≤ first := by
    have := (zpow_lt_zpow_iff_right₀ (show (1 : ℚ) < 10 by norm_num)).mp (hsmall.trans_lt habove)
    omega
  obtain ⟨hexponent, hpositive, hvalue⟩ := firstGrid_spec (span_low_pos hmantissa)
    (show x.span.mid ≤ x.span.high from Nat.le_add_right _ 2) hnum hden 17 (e := first)
    ((zpow_le_zpow_right₀ (by norm_num) (by omega)).trans hbelow)
  rw [hshortest, ← hunit]
  exact Decimal.UpTo.strip
    ⟨hpositive, significand_lt hmantissa hratio habove hexponent hvalue, hvalue, by omega⟩ 17

end

end Double

end PipeGuard
