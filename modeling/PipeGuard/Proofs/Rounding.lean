import Mathlib.Algebra.Order.Field.Power
import Mathlib.Tactic.FieldSimp
import Mathlib.Tactic.Linarith
import Mathlib.Tactic.NormNum
import Mathlib.Tactic.Positivity
import Mathlib.Tactic.GCongr
import Mathlib.Algebra.Order.Field.Rat
import PipeGuard.Json.Double

/-! How large a double gets when a decimal is read.

A fraction is rounded to the nearest double, and rounding keeps the order of fractions
(`roundedSize_mono`). So whatever is no greater than a fraction that can be rounded can be
rounded too, to no more (`ofRatio?_mono`), and the same goes for products and quotients.

A decimal is read by several of these, and none of them gets too large if the decimal is a
fraction (`ofDecimal?_fraction`), or comes to no more than what lies half way between the
two greatest doubles (`ofDecimal?_whole`). -/
namespace PipeGuard.Double

/-! ### The nearest whole number -/

theorem divideRound_cases (num den : Nat) :
    (divideRound num den = num / den ∧ 2 * (num % den) ≤ den ∧
      (2 * (num % den) = den → num / den % 2 = 0)) ∨
    (divideRound num den = num / den + 1 ∧ den ≤ 2 * (num % den) ∧
      (2 * (num % den) = den → num / den % 2 = 1)) := by
  unfold divideRound
  simp only
  split
  · case _ hbelow => exact .inl ⟨rfl, Nat.le_of_lt hbelow, by omega⟩
  · split
    · case _ habove => exact .inr ⟨rfl, Nat.le_of_lt habove, by omega⟩
    · have hhalf : 2 * (num % den) = den := by omega
      rcases Nat.mod_two_eq_zero_or_one (num / den) with heven | hodd
      · exact .inl ⟨by omega, by omega, fun _ => heven⟩
      · exact .inr ⟨by omega, by omega, fun _ => hodd⟩

/-- A greater fraction is not rounded to less. -/
theorem divideRound_mono {num den num' den' : Nat} (hden : 0 < den) (hden' : 0 < den')
    (h : num * den' ≤ num' * den) : divideRound num den ≤ divideRound num' den' := by
  have hnum := Nat.div_add_mod num den
  have hnum' := Nat.div_add_mod num' den'
  have hr := Nat.mod_lt num hden
  have hr' := Nat.mod_lt num' hden'
  have hle : num / den ≤ num' / den' := by
    rw [Nat.le_div_iff_mul_le hden']
    refine Nat.le_of_mul_le_mul_right ?_ hden
    calc num / den * den' * den = num / den * den * den' := Nat.mul_right_comm _ _ _
      _ ≤ num * den' := Nat.mul_le_mul_right _ (Nat.div_mul_le_self num den)
      _ ≤ num' * den := h
  obtain ⟨h₁, hbelow, htie⟩ | ⟨h₁, habove, htie⟩ := divideRound_cases num den <;>
    obtain ⟨h₂, hbelow', htie'⟩ | ⟨h₂, habove', htie'⟩ := divideRound_cases num' den' <;>
    rw [h₁, h₂]
  · exact hle
  · omega
  · -- rounded up and down: then both lie half way, above an odd and an even number
    by_contra hgt
    have hsame : num / den = num' / den' := by omega
    have hparts : num % den * den' ≤ num' % den' * den := by
      rw [← hnum, ← hnum', hsame] at h
      nlinarith
    have hhalf : den * den' ≤ 2 * (num' % den') * den := by nlinarith
    have hhalf' : 2 * (num' % den') = den' := by nlinarith
    have : 2 * (num % den) = den := by nlinarith
    have := htie this
    have := htie' hhalf'
    omega
  · omega

theorem divideRound_whole (n : Nat) {den : Nat} (hden : 0 < den) :
    divideRound (n * den) den = n := by
  unfold divideRound
  simp only [Nat.mul_mod_left, Nat.mul_div_cancel n hden]
  rw [if_pos (by omega)]

/-! ### Fractions and powers -/

variable {num den num' den' : Nat}

theorem cast_pow_toNat (base : Nat) {e : Int} (h : 0 ≤ e) :
    ((Nat.pow base e.toNat : Nat) : ℚ) = (base : ℚ) ^ e := by
  rw [Nat.pow_eq, Nat.cast_pow, ← zpow_natCast, Int.toNat_of_nonneg h]

theorem two_zpow_pos (e : Int) : (0 : ℚ) < 2 ^ e := zpow_pos (by norm_num) e

theorem two_pow_mul_zpow (n : Nat) (e : Int) : ((2 ^ n : Nat) : ℚ) * 2 ^ e = 2 ^ (e + n) := by
  rw [zpow_add₀ (by norm_num), zpow_natCast, mul_comm, Nat.cast_pow, Nat.cast_ofNat]

theorem inUnits_pos (hden : 0 < den) (num : Nat) (exponent : Int) :
    0 < (inUnits num den exponent).2 := by
  unfold inUnits
  split
  · exact Nat.mul_pos hden (Nat.pow_pos (by decide))
  · exact hden

/-- A fraction in units of a power of two. -/
theorem inUnits_ratio (num den : Nat) (exponent : Int) :
    ((inUnits num den exponent).1 : ℚ) / (inUnits num den exponent).2 =
      num / den / 2 ^ exponent := by
  unfold inUnits
  split
  · case _ h =>
    rw [Nat.cast_mul, cast_pow_toNat 2 h, div_div]
    rfl
  · case _ h =>
    have hneg : 0 ≤ -exponent := by omega
    show ((num * Nat.pow 2 (-exponent).toNat : Nat) : ℚ) / den = _
    rw [Nat.cast_mul, cast_pow_toNat 2 hneg, zpow_neg, div_right_comm, div_eq_mul_inv (num : ℚ)]
    rfl

theorem two_pow_log2_le {n : Nat} (h : 0 < n) : (2 : ℚ) ^ (n.log2 : Int) ≤ n := by
  rw [zpow_natCast]
  exact_mod_cast Nat.log2_self_le (Nat.ne_of_gt h)

theorem lt_two_pow_log2 (n : Nat) : (n : ℚ) < 2 ^ ((n.log2 : Int) + 1) := by
  have h : n < 2 ^ (n.log2 + 1) := Nat.lt_log2_self
  calc (n : ℚ) < ((2 ^ (n.log2 + 1) : Nat) : ℚ) := by exact_mod_cast h
    _ = 2 ^ ((n.log2 : Int) + 1) := by push_cast; rw [← zpow_natCast]; rfl

/-- A fraction lies within a factor of two of what the logarithms say. -/
theorem log2_ratio (hnum : 0 < num) (hden : 0 < den) :
    (2 : ℚ) ^ ((num.log2 : Int) - den.log2 - 1) < num / den ∧
      (num : ℚ) / den < 2 ^ ((num.log2 : Int) - den.log2 + 1) := by
  have hpos : (0 : ℚ) < den := by exact_mod_cast hden
  rw [lt_div_iff₀ hpos, div_lt_iff₀ hpos]
  constructor
  · calc (2 : ℚ) ^ ((num.log2 : Int) - den.log2 - 1) * den
        < 2 ^ ((num.log2 : Int) - den.log2 - 1) * 2 ^ ((den.log2 : Int) + 1) :=
          mul_lt_mul_of_pos_left (lt_two_pow_log2 den) (two_zpow_pos _)
      _ = 2 ^ (num.log2 : Int) := by rw [← zpow_add₀ (by norm_num)]; congr 1; omega
      _ ≤ num := two_pow_log2_le hnum
  · calc (num : ℚ) < 2 ^ ((num.log2 : Int) + 1) := lt_two_pow_log2 num
      _ = 2 ^ ((num.log2 : Int) - den.log2 + 1) * 2 ^ (den.log2 : Int) := by
          rw [← zpow_add₀ (by norm_num)]; congr 1; omega
      _ ≤ 2 ^ ((num.log2 : Int) - den.log2 + 1) * den :=
          mul_le_mul_of_nonneg_left (two_pow_log2_le hden) (two_zpow_pos _).le

/-- The units in which a fraction has a mantissa of 53 bits, or the lowest ones. -/
structure Fits (ratio : ℚ) (exponent : Int) : Prop where
  lowest_le : lowest ≤ exponent
  lt : ratio < 2 ^ (exponent + 53)
  le : exponent = lowest ∨ 2 ^ (exponent + 52) ≤ ratio

theorem exponentFor_fits (hnum : 0 < num) (hden : 0 < den) :
    Fits (num / den) (exponentFor num den) := by
  obtain ⟨hlow, hhigh⟩ := log2_ratio hnum hden
  unfold exponentFor
  simp only
  generalize hguess : (num.log2 : Int) - den.log2 - 52 = guess
  have hiff : Nat.pow 2 52 * (inUnits num den guess).2 ≤ (inUnits num den guess).1 ↔
      (2 : ℚ) ^ (guess + 52) ≤ num / den := by
    have hpos : (0 : ℚ) < (inUnits num den guess).2 := by exact_mod_cast inUnits_pos hden num guess
    rw [← @Nat.cast_le ℚ, Nat.cast_mul, ← le_div_iff₀ hpos, inUnits_ratio,
      le_div_iff₀ (two_zpow_pos _), zpow_add₀ (by norm_num), mul_comm]
    norm_num
  -- the exponent before the lowest one is looked at
  obtain ⟨e, he, hlt, hle⟩ : ∃ e, (if Nat.pow 2 52 * (inUnits num den guess).2 ≤
      (inUnits num den guess).1 then guess else guess - 1) = e ∧
        (num : ℚ) / den < 2 ^ (e + 53) ∧ (2 : ℚ) ^ (e + 52) ≤ num / den := by
    split
    · case _ h =>
      refine ⟨guess, rfl, ?_, hiff.mp h⟩
      have hsum : guess + 53 = (num.log2 : Int) - den.log2 + 1 := by omega
      rw [hsum]
      exact hhigh
    · case _ h =>
      refine ⟨guess - 1, rfl, ?_, ?_⟩
      · have hsum : guess - 1 + 53 = guess + 52 := by omega
        rw [hsum]
        exact lt_of_not_ge (mt hiff.mpr h)
      · have hsum : guess - 1 + 52 = (num.log2 : Int) - den.log2 - 1 := by omega
        rw [hsum]
        exact hlow.le
  rw [he]
  refine ⟨le_max_left _ _, ?_, ?_⟩
  · exact hlt.trans_le (zpow_le_zpow_right₀ (by norm_num) (by omega))
  · rcases le_total e lowest with h | h
    · exact .inl (max_eq_left h)
    · rw [max_eq_right h]
      exact .inr hle

/-- A greater fraction takes no smaller units. -/
theorem Fits.mono {r r' : ℚ} {e e' : Int} (h : Fits r e) (h' : Fits r' e') (hle : r ≤ r') :
    e ≤ e' := by
  rcases h.le with hlowest | hlow
  · rw [hlowest]
    exact h'.lowest_le
  · have hlt : (2 : ℚ) ^ (e + 52) < 2 ^ (e' + 53) := (hlow.trans hle).trans_lt h'.lt
    have := (zpow_lt_zpow_iff_right₀ (by norm_num)).mp hlt
    omega

/-! ### The nearest double -/

/-- The size of a double, whatever its sign. -/
def size (x : Double) : ℚ := x.mantissa * 2 ^ x.exponent

/-- The size that a fraction is rounded to, were there no greatest exponent. -/
def roundedSize (num den : Nat) : ℚ :=
  let units := inUnits num den (exponentFor num den)
  divideRound units.1 units.2 * 2 ^ exponentFor num den

theorem divideRound_units_le (hden : 0 < den) {n : Nat} {e : Int} (h : (num : ℚ) / den ≤ n * 2 ^ e) :
    divideRound (inUnits num den e).1 (inUnits num den e).2 ≤ n := by
  have hpos := inUnits_pos hden num e
  have hcast : (0 : ℚ) < (inUnits num den e).2 := by exact_mod_cast hpos
  rw [← div_le_iff₀ (two_zpow_pos e), ← inUnits_ratio, div_le_iff₀ hcast] at h
  have hle : (inUnits num den e).1 ≤ n * (inUnits num den e).2 := by exact_mod_cast h
  rw [← divideRound_whole n hpos]
  exact divideRound_mono hpos hpos (Nat.mul_le_mul_right _ hle)

theorem le_divideRound_units (hden : 0 < den) {n : Nat} {e : Int} (h : n * 2 ^ e ≤ (num : ℚ) / den) :
    n ≤ divideRound (inUnits num den e).1 (inUnits num den e).2 := by
  have hpos := inUnits_pos hden num e
  have hcast : (0 : ℚ) < (inUnits num den e).2 := by exact_mod_cast hpos
  rw [← le_div_iff₀ (two_zpow_pos e), ← inUnits_ratio, le_div_iff₀ hcast] at h
  have hle : n * (inUnits num den e).2 ≤ (inUnits num den e).1 := by exact_mod_cast h
  rw [← divideRound_whole n hpos]
  exact divideRound_mono hpos hpos (Nat.mul_le_mul_right _ hle)

theorem Fits.mantissa_le {e : Int} (h : Fits (num / den) e) (hden : 0 < den) :
    divideRound (inUnits num den e).1 (inUnits num den e).2 ≤ 2 ^ 53 :=
  divideRound_units_le hden (h.lt.le.trans_eq (two_pow_mul_zpow 53 e).symm)

theorem Fits.le_mantissa {e : Int} (h : Fits (num / den) e) (hden : 0 < den) :
    e = lowest ∨ 2 ^ 52 ≤ divideRound (inUnits num den e).1 (inUnits num den e).2 :=
  h.le.imp_right fun hlow =>
    le_divideRound_units hden ((two_pow_mul_zpow 52 e).le.trans hlow)

theorem divideRound_zero (den : Nat) : divideRound 0 den = 0 := by
  unfold divideRound
  simp

theorem roundedSize_zero (den : Nat) : roundedSize 0 den = 0 := by
  unfold roundedSize
  have hzero : (inUnits 0 den (exponentFor 0 den)).1 = 0 := by
    unfold inUnits
    split <;> simp
  simp only [hzero, divideRound_zero, Nat.cast_zero, zero_mul]

theorem roundedSize_nonneg (num den : Nat) : 0 ≤ roundedSize num den :=
  mul_nonneg (Nat.cast_nonneg _) (two_zpow_pos _).le

/-- **Rounding keeps the order of fractions.** -/
theorem roundedSize_mono (hden : 0 < den) (hden' : 0 < den')
    (h : (num : ℚ) / den ≤ num' / den') : roundedSize num den ≤ roundedSize num' den' := by
  rcases Nat.eq_zero_or_pos num with rfl | hnum
  · rw [roundedSize_zero]
    exact roundedSize_nonneg num' den'
  · have hratio : (0 : ℚ) < num / den := by positivity
    have hnum' : 0 < num' := by
      rcases Nat.eq_zero_or_pos num' with rfl | hpos
      · rw [Nat.cast_zero, zero_div] at h
        exact absurd (hratio.trans_le h) (lt_irrefl 0)
      · exact hpos
    have hfits := exponentFor_fits hnum hden
    have hfits' := exponentFor_fits hnum' hden'
    unfold roundedSize
    simp only
    generalize exponentFor num den = e at hfits ⊢
    generalize exponentFor num' den' = e' at hfits' ⊢
    rcases (hfits.mono hfits' h).eq_or_lt with rfl | hlt
    · -- in the same units
      refine mul_le_mul_of_nonneg_right ?_ (two_zpow_pos e).le
      have hpos := inUnits_pos hden num e
      have hpos' := inUnits_pos hden' num' e
      have hcast : (0 : ℚ) < (inUnits num den e).2 := by exact_mod_cast hpos
      have hcast' : (0 : ℚ) < (inUnits num' den' e).2 := by exact_mod_cast hpos'
      have hunits := div_le_div_of_nonneg_right h (two_zpow_pos e).le
      rw [← inUnits_ratio, ← inUnits_ratio, div_le_div_iff₀ hcast hcast'] at hunits
      exact_mod_cast divideRound_mono hpos hpos' (by exact_mod_cast hunits)
    · -- a power of two lies between them
      have hbelow := hfits.mantissa_le hden
      have habove := (hfits'.le_mantissa hden').resolve_left (by have := hfits.lowest_le; omega)
      calc (divideRound (inUnits num den e).1 (inUnits num den e).2 : ℚ) * 2 ^ e
          ≤ (2 ^ 53 : Nat) * 2 ^ e :=
            mul_le_mul_of_nonneg_right (by exact_mod_cast hbelow) (two_zpow_pos e).le
        _ = 2 ^ (e + (53 : Nat)) := two_pow_mul_zpow 53 e
        _ ≤ 2 ^ (e' + (52 : Nat)) := zpow_le_zpow_right₀ (by norm_num) (by push_cast; omega)
        _ = (2 ^ 52 : Nat) * 2 ^ e' := (two_pow_mul_zpow 52 e').symm
        _ ≤ divideRound (inUnits num' den' e').1 (inUnits num' den' e').2 * 2 ^ e' :=
            mul_le_mul_of_nonneg_right (by exact_mod_cast habove) (two_zpow_pos e').le

/-- Within the range of exponents. -/
structure IsFinite (x : Double) : Prop where
  mantissa_lt : x.mantissa < 2 ^ 53
  lowest_le : lowest ≤ x.exponent
  le_highest : x.exponent ≤ highest

theorem isFinite_zero (negative : Bool) : (zero negative).IsFinite :=
  ⟨by show 0 < 2 ^ 53; norm_num, le_refl _, by show lowest ≤ highest; decide⟩

/-- A mantissa that was rounded up to 54 bits, with its last bit in the exponent. -/
def carried (negative : Bool) (mantissa : Nat) (exponent : Int) : Double :=
  if mantissa = Nat.pow 2 53 then ⟨negative, Nat.pow 2 52, exponent + 1⟩
  else ⟨negative, mantissa, exponent⟩

section
variable {m : Nat} {e : Int} (negative : Bool)

theorem size_carried : (carried negative m e).size = m * 2 ^ e := by
  unfold carried
  split
  · case _ hfull =>
    subst hfull
    show ((2 ^ 52 : Nat) : ℚ) * 2 ^ (e + 1) = (2 ^ 53 : Nat) * 2 ^ e
    rw [two_pow_mul_zpow, two_pow_mul_zpow]
    congr 1
    omega
  · rfl

theorem mantissa_carried (hm : m ≤ 2 ^ 53) : (carried negative m e).mantissa < 2 ^ 53 := by
  unfold carried
  split
  · show 2 ^ 52 < 2 ^ 53
    norm_num
  · case _ hne => exact Nat.lt_of_le_of_ne hm hne

theorem exponent_carried : e ≤ (carried negative m e).exponent := by
  unfold carried
  split
  · show e ≤ e + 1
    omega
  · exact le_refl e

/-- The greatest exponent is kept by what lies below a power of two. -/
theorem carried_large_iff (hm : m ≤ 2 ^ 53) (hnormal : e = lowest ∨ 2 ^ 52 ≤ m) :
    highest < (carried negative m e).exponent ↔ ¬ (m : ℚ) * 2 ^ e < 2 ^ (1024 : Int) := by
  have hhighest : highest = 971 := rfl
  have hlowest : lowest = -1074 := rfl
  have hone : (1 : ℚ) < 2 := by norm_num
  unfold carried
  split
  · case _ hfull =>
    have hsize : (m : ℚ) * 2 ^ e = 2 ^ (e + (53 : Nat)) := by rw [hfull, Nat.pow_eq, two_pow_mul_zpow]
    rw [hsize, zpow_lt_zpow_iff_right₀ hone]
    push_cast
    omega
  · case _ hne =>
    show highest < e ↔ _
    constructor
    · intro hlarge
      have hfull : 2 ^ 52 ≤ m := hnormal.resolve_left (by omega)
      refine not_lt.mpr ?_
      calc (2 : ℚ) ^ (1024 : Int) = (2 ^ 52 : Nat) * 2 ^ (972 : Int) := (two_pow_mul_zpow 52 972).symm
        _ ≤ m * 2 ^ e := mul_le_mul (by exact_mod_cast hfull)
          (zpow_le_zpow_right₀ hone.le (by omega)) (two_zpow_pos _).le (Nat.cast_nonneg _)
    · intro hlarge
      by_contra hsmall
      refine hlarge ?_
      calc (m : ℚ) * 2 ^ e < (2 ^ 53 : Nat) * 2 ^ e :=
          mul_lt_mul_of_pos_right (by exact_mod_cast Nat.lt_of_le_of_ne hm hne) (two_zpow_pos e)
        _ = 2 ^ (e + (53 : Nat)) := two_pow_mul_zpow 53 e
        _ ≤ 2 ^ (1024 : Int) := zpow_le_zpow_right₀ hone.le (by push_cast; omega)

end

/-- What a fraction is rounded to, if that is not too large. -/
theorem ofRatio?_spec (negative : Bool) (num : Nat) (hden : 0 < den) :
    if roundedSize num den < 2 ^ (1024 : Int) then
      ∃ x, ofRatio? negative num den = some x ∧ x.size = roundedSize num den ∧ x.IsFinite
    else ofRatio? negative num den = none := by
  unfold ofRatio?
  rcases Nat.eq_zero_or_pos num with rfl | hnum
  · rw [roundedSize_zero, if_pos (two_zpow_pos _), if_pos rfl]
    exact ⟨_, rfl, zero_mul _, isFinite_zero negative⟩
  · rw [if_neg (Nat.ne_of_gt hnum)]
    have hfits := exponentFor_fits hnum hden
    unfold roundedSize
    simp only
    generalize exponentFor num den = e at hfits ⊢
    have hmantissa := hfits.mantissa_le hden
    have hnormal := hfits.le_mantissa hden
    generalize divideRound (inUnits num den e).1 (inUnits num den e).2 = m at hmantissa hnormal ⊢
    show if (m : ℚ) * 2 ^ e < 2 ^ (1024 : Int) then
        ∃ x, (if highest < (carried negative m e).exponent then none
          else some (carried negative m e)) = some x ∧ x.size = m * 2 ^ e ∧ x.IsFinite
      else (if highest < (carried negative m e).exponent then none
        else some (carried negative m e)) = none
    have hlarge := carried_large_iff negative hmantissa hnormal
    by_cases hsmall : (m : ℚ) * 2 ^ e < 2 ^ (1024 : Int)
    · have hkept : ¬ highest < (carried negative m e).exponent := fun h => hlarge.mp h hsmall
      rw [if_pos hsmall, if_neg hkept]
      exact ⟨_, rfl, size_carried negative, mantissa_carried negative hmantissa,
        hfits.lowest_le.trans (exponent_carried negative), not_lt.mp hkept⟩
    · rw [if_neg hsmall, if_pos (hlarge.mpr hsmall)]

/-- **What is no greater than a fraction that can be rounded can be rounded, to no more.** -/
theorem ofRatio?_mono (negative : Bool) {negative' : Bool} (hden : 0 < den) (hden' : 0 < den')
    {y : Double} (h : (num : ℚ) / den ≤ num' / den') (hy : ofRatio? negative' num' den' = some y) :
    ∃ x, ofRatio? negative num den = some x ∧ x.size ≤ y.size ∧ x.IsFinite := by
  have hspec := ofRatio?_spec negative num hden
  have hspec' := ofRatio?_spec negative' num' hden'
  have hmono := roundedSize_mono hden hden' h
  split at hspec'
  · case _ hsmall =>
    obtain ⟨y', hy', hsize', -⟩ := hspec'
    obtain rfl : y = y' := Option.some.inj (hy.symm.trans hy')
    rw [if_pos (hmono.trans_lt hsmall)] at hspec
    obtain ⟨x, hx, hsize, hfinite⟩ := hspec
    exact ⟨x, hx, hsize.trans_le (hmono.trans_eq hsize'.symm), hfinite⟩
  · rw [hspec'] at hy
    cases hy

/-! ### Products and quotients -/

theorem ofScaled?_eq (negative : Bool) (num : Nat) (hden : 0 < den) (exponent : Int) :
    ∃ num' den' : Nat, 0 < den' ∧ (num' : ℚ) / den' = num / den * 2 ^ exponent ∧
      ofScaled? negative num den exponent = ofRatio? negative num' den' := by
  unfold ofScaled?
  split
  · case _ h =>
    refine ⟨_, _, hden, ?_, rfl⟩
    rw [Nat.cast_mul, cast_pow_toNat 2 h, mul_div_right_comm]
    rfl
  · case _ h =>
    have hneg : 0 ≤ -exponent := by omega
    refine ⟨num, den * Nat.pow 2 (-exponent).toNat, Nat.mul_pos hden (Nat.pow_pos (by decide)), ?_,
      rfl⟩
    rw [Nat.cast_mul, cast_pow_toNat 2 hneg, zpow_neg, ← div_div, div_inv_eq_mul]
    rfl

theorem ofScaled?_mono (negative : Bool) {negative' : Bool} {e e' : Int} (hden : 0 < den)
    (hden' : 0 < den') {y : Double} (h : (num : ℚ) / den * 2 ^ e ≤ num' / den' * 2 ^ e')
    (hy : ofScaled? negative' num' den' e' = some y) :
    ∃ x, ofScaled? negative num den e = some x ∧ x.size ≤ y.size ∧ x.IsFinite := by
  obtain ⟨n, d, hd, hratio, heq⟩ := ofScaled?_eq negative num hden e
  obtain ⟨n', d', hd', hratio', heq'⟩ := ofScaled?_eq negative' num' hden' e'
  rw [heq]
  exact ofRatio?_mono negative hd hd' (by rw [hratio, hratio']; exact h) (heq' ▸ hy)

variable {x y x' y' z : Double}

theorem size_nonneg (x : Double) : 0 ≤ x.size := mul_nonneg (Nat.cast_nonneg _) (two_zpow_pos _).le

theorem times?_mono (h : x.size * y.size ≤ x'.size * y'.size) (hz : x'.times? y' = some z) :
    ∃ z', x.times? y = some z' ∧ z'.size ≤ z.size ∧ z'.IsFinite := by
  have hproduct : ∀ x y : Double, ((x.mantissa * y.mantissa : Nat) : ℚ) / (1 : Nat) *
      2 ^ (x.exponent + y.exponent) = x.size * y.size := by
    intro x y
    unfold size
    rw [Nat.cast_mul, Nat.cast_one, div_one, zpow_add₀ (by norm_num), mul_mul_mul_comm]
  refine ofScaled?_mono _ Nat.one_pos Nat.one_pos ?_ hz
  rw [hproduct, hproduct]
  exact h

/-- A number of up to 64 bits is not made greater by a division by one or more. -/
theorem over?_small (hx : x.size ≤ 2 ^ 64) (hy : 1 ≤ y.size) :
    ∃ z, x.over? y = some z ∧ z.size ≤ 2 ^ 64 ∧ z.IsFinite := by
  have hmantissa : 0 < y.mantissa := by
    refine Nat.pos_of_ne_zero fun hzero => ?_
    unfold size at hy
    rw [hzero, Nat.cast_zero, zero_mul] at hy
    exact absurd hy (by norm_num)
  have hquotient : (x.mantissa : ℚ) / y.mantissa * 2 ^ (x.exponent - y.exponent) =
      x.size / y.size := by
    unfold size
    rw [zpow_sub₀ (by norm_num), div_mul_div_comm]
  have hbound : ofScaled? false (2 ^ 64) 1 0 = some ⟨false, 2 ^ 52, 12⟩ := by decide +kernel
  have hle : (x.mantissa : ℚ) / y.mantissa * 2 ^ (x.exponent - y.exponent) ≤
      (2 ^ 64 : Nat) / (1 : Nat) * 2 ^ (0 : Int) := by
    rw [hquotient]
    refine (div_le_self x.size_nonneg hy).trans (hx.trans_eq ?_)
    norm_num
  obtain ⟨z, hz, hsize, hfinite⟩ :=
    ofScaled?_mono (x.negative != y.negative) hmantissa Nat.one_pos hle hbound
  refine ⟨z, hz, hsize.trans_eq ?_, hfinite⟩
  show ((2 ^ 52 : Nat) : ℚ) * 2 ^ (12 : Int) = _
  norm_num

/-! ### Reading decimals -/

/-- Whole numbers as fractions. -/
theorem whole_le {a b : Nat} (h : a ≤ b) : (a : ℚ) / (1 : Nat) ≤ b / (1 : Nat) := by
  rw [Nat.cast_one, div_one, div_one]
  exact Nat.cast_le.mpr h

theorem power?_mono {n n' : Nat} (h : n ≤ n') {y : Double} (hy : power? n' = some y) :
    ∃ x, power? n = some x ∧ x.size ≤ y.size := by
  have hle : Nat.pow 10 n ≤ Nat.pow 10 n' := Nat.pow_le_pow_right (by decide) h
  obtain ⟨x, hx, hsize, -⟩ := ofRatio?_mono false Nat.one_pos Nat.one_pos
    (whole_le hle) hy
  exact ⟨x, hx, hsize⟩

/-- A power of ten that is used has a double, and that is no less than one. -/
theorem power?_large {n : Nat} (h : n ≤ greatestPower) : ∃ y, power? n = some y ∧ 1 ≤ y.size := by
  obtain ⟨top, htop⟩ : ∃ top, power? greatestPower = some top :=
    Option.isSome_iff_exists.mp (by decide +kernel)
  obtain ⟨y, hy, -⟩ := power?_mono h htop
  obtain ⟨x, hx, hsize⟩ := power?_mono (Nat.zero_le n) hy
  have hunit : power? 0 = some ⟨false, 2 ^ 52, -52⟩ := by decide +kernel
  obtain rfl : x = ⟨false, 2 ^ 52, -52⟩ := Option.some.inj (hx.symm.trans hunit)
  refine ⟨y, hy, le_trans (le_of_eq ?_) hsize⟩
  show (1 : ℚ) = ((2 ^ 52 : Nat) : ℚ) * 2 ^ (-52 : Int)
  rw [two_pow_mul_zpow]
  norm_num

theorem shrink?_small {greatest x : Double} (hgreatest : 1 ≤ greatest.size) (hx : x.size ≤ 2 ^ 64)
    (hfinite : x.IsFinite) (count : Nat) :
    ∃ z, shrink? greatest count x = some z ∧ z.size ≤ 2 ^ 64 ∧ z.IsFinite := by
  induction count generalizing x with
  | zero => exact ⟨x, rfl, hx, hfinite⟩
  | succ count ih =>
    rw [shrink?]
    split
    · exact ⟨x, rfl, hx, hfinite⟩
    · obtain ⟨z, hz, hsize, hfinite'⟩ := over?_small hx hgreatest
      rw [hz]
      exact ih hsize hfinite'

/-- A number of up to 64 bits can be divided by any power of ten. -/
theorem shiftDown?_small {x : Double} (hx : x.size ≤ 2 ^ 64) (hfinite : x.IsFinite) (n : Nat) :
    ∃ z, x.shiftDown? n = some z ∧ z.IsFinite := by
  obtain ⟨greatest, hgreatest, hone⟩ := power?_large (le_refl greatestPower)
  obtain ⟨small, hsmall, hsize, -⟩ :=
    shrink?_small hone hx hfinite ((n - 1) / greatestPower)
  have hrest : n - (n - 1) / greatestPower * greatestPower ≤ greatestPower := by
    unfold greatestPower
    omega
  obtain ⟨power, hpower, hone'⟩ := power?_large hrest
  obtain ⟨z, hz, -, hfinite'⟩ := over?_small hsize hone'
  refine ⟨z, ?_, hfinite'⟩
  unfold shiftDown?
  simp only [hgreatest, hsmall, hpower, Option.bind_some, hz]

theorem ofRatio?_small (negative : Bool) {n : Nat} (h : n ≤ 2 ^ 64) :
    ∃ x, ofRatio? negative n 1 = some x ∧ x.size ≤ 2 ^ 64 ∧ x.IsFinite := by
  have hbound : ofRatio? false (2 ^ 64) 1 = some ⟨false, 2 ^ 52, 12⟩ := by decide +kernel
  obtain ⟨x, hx, hsize, hfinite⟩ :=
    ofRatio?_mono negative Nat.one_pos Nat.one_pos (whole_le h) hbound
  refine ⟨x, hx, hsize.trans_eq ?_, hfinite⟩
  show ((2 ^ 52 : Nat) : ℚ) * 2 ^ (12 : Int) = _
  norm_num

/-- A fraction of 64 bits can be read. -/
theorem ofDecimal?_fraction (negative : Bool) {significand : Nat} (h : significand ≤ 2 ^ 64)
    {exponent : Int} (hexponent : exponent < 0) :
    ∃ x, ofDecimal? negative significand exponent = some x := by
  obtain ⟨x, hx, hsize, hfinite⟩ := ofRatio?_small negative h
  obtain ⟨z, hz, -⟩ := shiftDown?_small hsize hfinite (-exponent).toNat
  refine ⟨z, ?_⟩
  unfold ofDecimal?
  rw [hx, Option.bind_some, if_neg (by omega), hz]

/-- What is no greater than a decimal that can be read can be read. -/
theorem ofDecimal?_mono (negative : Bool) {significand significand' n n' : Nat} (hn : n ≤ n')
    (hn' : n' ≤ greatestPower) (h : significand ≤ significand') {y : Double}
    (hy : ofDecimal? false significand' n' = some y) :
    ∃ x, ofDecimal? negative significand n = some x := by
  unfold ofDecimal? at hy ⊢
  obtain ⟨top, htop, hy⟩ := Option.bind_eq_some_iff.mp hy
  obtain ⟨x, hx, hsize, -⟩ :=
    ofRatio?_mono negative Nat.one_pos Nat.one_pos (whole_le h) htop
  rw [hx, Option.bind_some, if_pos (Int.natCast_nonneg n), Int.toNat_natCast]
  rw [if_pos (Int.natCast_nonneg n'), Int.toNat_natCast] at hy
  unfold shiftUp? at hy ⊢
  rw [if_pos hn'] at hy
  rw [if_pos (Nat.le_trans hn hn')]
  obtain ⟨power', hpower', hy⟩ := Option.bind_eq_some_iff.mp hy
  obtain ⟨power, hpower, hsize'⟩ := power?_mono hn hpower'
  obtain ⟨z, hz, -⟩ :=
    times?_mono (mul_le_mul hsize hsize' power.size_nonneg top.size_nonneg) hy
  exact ⟨z, by rw [hpower, Option.bind_some, hz]⟩

theorem isFinite_ofDecimal? {negative : Bool} {significand : Nat} (h : significand ≤ 2 ^ 64)
    {exponent : Int} {z : Double} (hz : ofDecimal? negative significand exponent = some z) :
    z.IsFinite := by
  obtain ⟨x, hx, hsize, hfinite⟩ := ofRatio?_small negative h
  unfold ofDecimal? at hz
  rw [hx, Option.bind_some] at hz
  split at hz
  · unfold shiftUp? at hz
    split at hz
    · obtain ⟨power, -, hz⟩ := Option.bind_eq_some_iff.mp hz
      obtain ⟨z', hz', -, hfinite'⟩ := times?_mono le_rfl hz
      obtain rfl : z' = z := Option.some.inj (hz'.symm.trans hz)
      exact hfinite'
    · split at hz
      · exact Option.some.inj hz ▸ hfinite
      · cases hz
  · obtain ⟨z', hz', hfinite'⟩ := shiftDown?_small hsize hfinite (-exponent).toNat
    obtain rfl : z' = z := Option.some.inj (hz'.symm.trans hz)
    exact hfinite'

/-- Half way between the two greatest doubles. -/
def readableLimit : Nat := (2 ^ 54 - 3) * 2 ^ 970

/-- What comes to no more than that limit can be read, for all powers of ten that matter. -/
theorem readable_limit : ∀ n ≤ greatestPower, 288 ≤ n →
    (ofDecimal? false (min (2 ^ 64) (readableLimit / 10 ^ n)) n).isSome = true := by
  decide +kernel

theorem readableLimit_lt : readableLimit < 10 ^ (greatestPower + 1) := by decide +kernel

theorem ofDecimal?_whole (negative : Bool) {significand n : Nat} (h : significand ≤ 2 ^ 64)
    (hpositive : 0 < significand) (hlimit : significand * 10 ^ n ≤ readableLimit) :
    ∃ x, ofDecimal? negative significand n = some x := by
  have hn : n ≤ greatestPower := by
    by_contra hlarge
    have hpow : 10 ^ (greatestPower + 1) ≤ 10 ^ n :=
      Nat.pow_le_pow_right (by decide) (not_le.mp hlarge)
    exact absurd hlimit (not_le.mpr (readableLimit_lt.trans_le
      (hpow.trans (Nat.le_mul_of_pos_left (10 ^ n) hpositive))))
  have hmin : significand ≤ min (2 ^ 64) (readableLimit / 10 ^ n) :=
    Nat.le_min.mpr ⟨h, (Nat.le_div_iff_mul_le (Nat.pow_pos (by decide))).mpr hlimit⟩
  rcases Nat.le_total 288 n with hgreat | hsmall
  · obtain ⟨y, hy⟩ := Option.isSome_iff_exists.mp (readable_limit n hn hgreat)
    exact ofDecimal?_mono negative (le_refl n) hn hmin hy
  · -- with fewer zeros no significand of 64 bits comes near the limit
    obtain ⟨y, hy⟩ := Option.isSome_iff_exists.mp (readable_limit 288 (by decide) (le_refl 288))
    have htop : min (2 ^ 64) (readableLimit / 10 ^ 288) = 2 ^ 64 := by decide +kernel
    rw [htop] at hy
    exact ofDecimal?_mono negative hsmall (by decide) h hy

end PipeGuard.Double
