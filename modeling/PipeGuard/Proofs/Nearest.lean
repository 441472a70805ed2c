import Mathlib.Tactic.Ring
import PipeGuard.Proofs.Decimals

/-! Decimals that doubles keep.

A fraction is rounded to a double in whose interval it lies (`ofRatio?_holds`), and the shortest
decimal of a double is taken from that interval (`onGrid?_holds`). A decimal of fifteen digits or
fewer that is rounded once is the only one of its grid there, so it is what the double is written as
(`shortest_of_few`). And what a double is written as has seventeen digits at most
(`shortest_digits`). -/
namespace PipeGuard.Double

/-! ### Rounded once -/

/-- A fraction is rounded by half a unit at most, and by less than that to an odd number. -/
theorem divideRound_near (num : Nat) {den : Nat} (hden : 0 < den) :
    (2 * divideRound num den - 1 : ℚ) ≤ 2 * (num / den) ∧
      2 * (num / den : ℚ) ≤ 2 * divideRound num den + 1 ∧
      (divideRound num den % 2 = 1 →
        (2 * divideRound num den - 1 : ℚ) < 2 * (num / den) ∧
          2 * (num / den : ℚ) < 2 * divideRound num den + 1) := by
  have hpos : (0 : ℚ) < den := by exact_mod_cast hden
  have hratio : (num : ℚ) / den = (num / den : Nat) + (num % den : Nat) / den := by
    rw [eq_comm, ← mul_div_cancel_right₀ ((num / den : Nat) : ℚ) hpos.ne', ← add_div]
    congr 1
    exact_mod_cast Nat.div_add_mod' num den
  have hrest : (0 : ℚ) ≤ (num % den : Nat) / den := by positivity
  have hless : ((num % den : Nat) : ℚ) / den < 1 :=
    (div_lt_one hpos).mpr (by exact_mod_cast Nat.mod_lt num hden)
  rw [hratio]
  generalize hr : ((num % den : Nat) : ℚ) / den = r at hrest hless
  have hhalf : ∀ {a b : Nat}, a * (num % den) ≤ b * den → (a : ℚ) * r ≤ b := by
    intro a b h
    rw [← hr, ← mul_div_assoc, div_le_iff₀ hpos]
    exact_mod_cast h
  have hhalf' : ∀ {a b : Nat}, a * den ≤ b * (num % den) → (a : ℚ) ≤ b * r := by
    intro a b h
    rw [← hr, ← mul_div_assoc, le_div_iff₀ hpos]
    exact_mod_cast h
  obtain ⟨hround, hbelow, htie⟩ | ⟨hround, habove, htie⟩ := divideRound_cases num den
  · rw [hround]
    have hle := @hhalf 2 1 (by rwa [Nat.one_mul])
    push_cast at hle
    refine ⟨by linarith, by linarith, fun hodd => ⟨by linarith, ?_⟩⟩
    have hlt : 2 * (num % den) < den :=
      Nat.lt_of_le_of_ne hbelow fun heq => by rw [htie heq] at hodd; cases hodd
    have : (2 : ℚ) * r < 1 := by
      rw [← hr, ← mul_div_assoc, div_lt_one hpos]
      exact_mod_cast hlt
    linarith
  · rw [hround]
    have hle := @hhalf' 1 2 (by rwa [Nat.one_mul])
    push_cast at hle ⊢
    refine ⟨by linarith, by linarith, fun hodd => ⟨?_, by linarith⟩⟩
    have hlt : den < 2 * (num % den) :=
      Nat.lt_of_le_of_ne habove fun heq => by have := htie heq.symm; omega
    have : 1 < (2 : ℚ) * r := by
      rw [← hr, ← mul_div_assoc, one_lt_div hpos]
      exact_mod_cast hlt
    linarith

/-- A number lies behind the low end of a span, of which each part is worth `unit`. -/
def Span.Above (span : Span) (unit v : ℚ) : Prop :=
  if span.closed then span.low * unit ≤ v else span.low * unit < v

/-- A number lies before the high end of a span. -/
def Span.Below (span : Span) (unit v : ℚ) : Prop :=
  if span.closed then v ≤ span.high * unit else v < span.high * unit

/-- A number lies in a span. -/
structure Span.Holds (span : Span) (unit v : ℚ) : Prop where
  above : span.Above unit v
  below : span.Below unit v

section
variable {span : Span} {unit v w : ℚ}

theorem Span.Above.le (h : span.Above unit v) : span.low * unit ≤ v := by
  unfold Span.Above at h
  split at h
  · exact h
  · exact h.le

theorem Span.Below.le (h : span.Below unit v) : v ≤ span.high * unit := by
  unfold Span.Below at h
  split at h
  · exact h
  · exact h.le

theorem Span.Above.mono (h : span.Above unit v) (hle : v ≤ w) : span.Above unit w := by
  unfold Span.Above at h ⊢
  split
  · case _ hclosed =>
    rw [if_pos hclosed] at h
    exact h.trans hle
  · case _ hopen =>
    rw [if_neg hopen] at h
    exact h.trans_le hle

theorem Span.Below.mono (h : span.Below unit w) (hle : v ≤ w) : span.Below unit v := by
  unfold Span.Below at h ⊢
  split
  · case _ hclosed =>
    rw [if_pos hclosed] at h
    exact hle.trans h
  · case _ hopen =>
    rw [if_neg hopen] at h
    exact hle.trans_lt h

theorem Span.above_of_lt (h : span.low * unit < v) : span.Above unit v := by
  unfold Span.Above
  split
  · exact h.le
  · exact h

theorem Span.below_of_lt (h : v < span.high * unit) : span.Below unit v := by
  unfold Span.Below
  split
  · exact h.le
  · exact h

/-- The same in parts of the span. -/
theorem Span.holds_iff {q : ℚ} (hunit : 0 < unit) :
    span.Holds unit (q * unit) ↔
      if span.closed then (span.low : ℚ) ≤ q ∧ q ≤ span.high
      else (span.low : ℚ) < q ∧ q < span.high := by
  have hiff : span.Holds unit (q * unit) ↔
      span.Above unit (q * unit) ∧ span.Below unit (q * unit) :=
    ⟨fun h => ⟨h.above, h.below⟩, fun h => ⟨h.1, h.2⟩⟩
  rw [hiff]
  unfold Span.Above Span.Below
  simp only [mul_le_mul_iff_of_pos_right hunit, mul_lt_mul_iff_of_pos_right hunit]
  split <;> rfl

end

/-- A double with 53 bits, or one of the smallest. -/
def Normal (x : Double) : Prop := x.exponent = lowest ∨ 2 ^ 52 ≤ x.mantissa

/-- A fraction in units of the last place lies in the span of the whole number nearest to it. -/
theorem span_holds {negative : Bool} {m : Nat} {e : Int} {r : ℚ} (hlow : (2 * m - 1 : ℚ) ≤ 2 * r)
    (hhigh : 2 * r ≤ 2 * m + 1) (hodd : m % 2 = 1 → (2 * m - 1 : ℚ) < 2 * r ∧ 2 * r < 2 * m + 1)
    (hfull : e = lowest ∨ (2 : ℚ) ^ 52 ≤ r) (hr : 0 ≤ r) :
    (span ⟨negative, m, e⟩).Holds (2 ^ (e - 2)) (r * 2 ^ e) := by
  have hquarter : r * 2 ^ e = 4 * r * 2 ^ (e - 2) := by
    rw [zpow_sub₀ (by norm_num)]
    ring
  have hbelow : ((span ⟨negative, m, e⟩).low : ℚ) ≤ 4 * m - 2 ∨
      m = 2 ^ 52 ∧ lowest < e ∧ ((span ⟨negative, m, e⟩).low : ℚ) = 4 * m - 1 ∨ m = 0 := by
    unfold span
    simp only
    split
    · case _ h =>
      refine .inr (.inl ⟨h.1, h.2, ?_⟩)
      rw [h.1]
      norm_num
    · rcases Nat.eq_zero_or_pos m with hzero | hpos
      · exact .inr (.inr hzero)
      · left
        rw [Nat.cast_sub (by omega)]
        push_cast
        exact le_rfl
  have hhigh' : ((span ⟨negative, m, e⟩).high : ℚ) = 4 * m + 2 := by
    unfold span
    push_cast
    rfl
  rw [hquarter, Span.holds_iff (two_zpow_pos _), hhigh']
  split
  · refine ⟨?_, by linarith⟩
    rcases hbelow with h | ⟨hm, hlowest, h⟩ | hzero
    · linarith
    · -- there the fraction is no smaller than the power of two
      have hle := hfull.resolve_left hlowest.ne'
      rw [h, hm]
      push_cast
      linarith
    · have hnone : (span ⟨negative, m, e⟩).low = 0 := by
        unfold span
        simp only [hzero]
        omega
      rw [hnone, Nat.cast_zero]
      linarith
  · case _ hclosed =>
    have hone : m % 2 = 1 := by
      have : ¬ m % 2 = 0 := fun h => hclosed (decide_eq_true h)
      omega
    obtain ⟨hlow, hhigh⟩ := hodd hone
    refine ⟨?_, by linarith⟩
    rcases hbelow with h | ⟨hm, -, -⟩ | hzero
    · linarith
    · rw [hm] at hone
      cases hone
    · rw [hzero] at hone
      cases hone

/-- The span of a power of two that is not the least. -/
theorem span_power (negative : Bool) {e : Int} (h : lowest ≤ e) :
    span ⟨negative, Nat.pow 2 52, e + 1⟩ = ⟨2 ^ 54 - 1, 2 ^ 54, 2 ^ 54 + 2, true⟩ := by
  have hlowest : lowest < e + 1 := by omega
  unfold span
  simp only [hlowest, and_true, if_true]
  rfl

variable {num den : Nat}

/-- **A fraction lies in the interval of the double it is rounded to.** -/
theorem ofRatio?_holds {negative : Bool} {x : Double} (hnum : 0 < num) (hden : 0 < den)
    (h : ofRatio? negative num den = some x) :
    x.span.Holds (2 ^ (x.exponent - 2)) (num / den) ∧ x.Normal := by
  unfold ofRatio? at h
  rw [if_neg (Nat.ne_of_gt hnum)] at h
  simp only at h
  have hfits := exponentFor_fits hnum hden
  generalize exponentFor num den = e at h hfits
  have hratio := inUnits_ratio num den e
  obtain ⟨hlow, hhigh, hodd⟩ := divideRound_near (inUnits num den e).1 (inUnits_pos hden num e)
  have hmantissa := hfits.mantissa_le hden
  have hnormal := hfits.le_mantissa hden
  have hlowest := hfits.lowest_le
  have hfull : e = lowest ∨ (2 : ℚ) ^ 52 ≤ num / den / 2 ^ e := by
    refine hfits.le.imp_right fun hle => ?_
    rw [le_div_iff₀ (two_zpow_pos e)]
    exact ((two_pow_mul_zpow 52 e).trans_le hle).trans' (by norm_num)
  generalize divideRound (inUnits num den e).1 (inUnits num den e).2 = m
    at h hlow hhigh hodd hmantissa hnormal
  rw [hratio] at hlow hhigh hodd
  have hvalue : (num : ℚ) / den = num / den / 2 ^ e * 2 ^ e :=
    (div_mul_cancel₀ _ (two_zpow_pos e).ne').symm
  have hnonneg : (0 : ℚ) ≤ num / den / 2 ^ e := by positivity
  rw [hvalue]
  generalize (num : ℚ) / den / 2 ^ e = r at hlow hhigh hodd hfull hnonneg
  obtain rfl : carried negative m e = x := by
    rcases ite_eq_iff.mp h with ⟨-, h⟩ | ⟨-, h⟩
    · cases h
    · exact Option.some.inj h
  unfold carried
  split
  · case _ hcarry =>
    -- carried, with an interval twice as coarse
    rw [hcarry] at hlow hhigh
    norm_num at hlow hhigh
    have hquarter : r * 2 ^ e = 2 * r * 2 ^ (e + 1 - 2) := by
      rw [zpow_sub₀ (by norm_num), zpow_add_one₀ (by norm_num)]
      ring
    refine ⟨?_, .inr (le_refl _)⟩
    show (span ⟨negative, Nat.pow 2 52, e + 1⟩).Holds (2 ^ (e + 1 - 2)) (r * 2 ^ e)
    rw [hquarter, Span.holds_iff (two_zpow_pos _), span_power negative hlowest]
    norm_num
    constructor <;> linarith
  · exact ⟨span_holds hlow hhigh hodd hfull hnonneg, hnormal⟩

/-! ### One grid -/

section
variable {span : Span} {e : Int} (hden : 0 < den)
include hden

/-- A point of a grid against the parts of a span. -/
theorem grid_le_iff (point limit : Nat) :
    point * (den * Nat.pow 10 e.toNat) ≤ limit * (num * Nat.pow 10 (-e).toNat) ↔
      (point : ℚ) * 10 ^ e ≤ limit * (num / den) := by
  have hpos : (0 : ℚ) < (den * Nat.pow 10 e.toNat : Nat) := by
    exact_mod_cast Nat.mul_pos hden (Nat.pow_pos (by decide))
  rw [← le_div_iff₀ (ten_zpow_pos e), mul_div_assoc, ← tens_ratio, ← mul_div_assoc,
    le_div_iff₀ hpos]
  exact_mod_cast Iff.rfl

theorem le_grid_iff (point limit : Nat) :
    limit * (num * Nat.pow 10 (-e).toNat) ≤ point * (den * Nat.pow 10 e.toNat) ↔
      (limit * (num / den) : ℚ) ≤ point * 10 ^ e := by
  have hpos : (0 : ℚ) < (den * Nat.pow 10 e.toNat : Nat) := by
    exact_mod_cast Nat.mul_pos hden (Nat.pow_pos (by decide))
  rw [← div_le_iff₀ (ten_zpow_pos e), mul_div_assoc, ← tens_ratio, ← mul_div_assoc,
    div_le_iff₀ hpos]
  exact_mod_cast Iff.rfl

/-- The two points next to the double, and which of them is taken. -/
theorem onGrid?_cases : ∃ below : Nat,
    (below : ℚ) * 10 ^ e ≤ span.mid * (num / den) ∧
    (span.mid * (num / den) : ℚ) < (below + 1 : Nat) * 10 ^ e ∧
    ((onGrid? span num den e = some ⟨below, e⟩ ∧ span.Above (num / den) (below * 10 ^ e)) ∨
      (onGrid? span num den e = some ⟨below + 1, e⟩ ∧
        span.Below (num / den) ((below + 1 : Nat) * 10 ^ e)) ∨
      (onGrid? span num den e = none ∧ ¬ span.Above (num / den) (below * 10 ^ e) ∧
        ¬ span.Below (num / den) ((below + 1 : Nat) * 10 ^ e))) := by
  have hgrid : 0 < den * Nat.pow 10 e.toNat := Nat.mul_pos hden (Nat.pow_pos (by decide))
  generalize hbelow : span.mid * (num * Nat.pow 10 (-e).toNat) / (den * Nat.pow 10 e.toNat) = below
  have hfitsBelow : (if span.closed then
      span.low * (num * Nat.pow 10 (-e).toNat) ≤ below * (den * Nat.pow 10 e.toNat)
      else span.low * (num * Nat.pow 10 (-e).toNat) < below * (den * Nat.pow 10 e.toNat)) ↔
        span.Above (num / den) (below * 10 ^ e) := by
    unfold Span.Above
    rw [le_grid_iff hden, ← not_le, grid_le_iff hden, not_le]
  have hfitsAbove : (if span.closed then
      (below + 1) * (den * Nat.pow 10 e.toNat) ≤ span.high * (num * Nat.pow 10 (-e).toNat)
      else (below + 1) * (den * Nat.pow 10 e.toNat) < span.high * (num * Nat.pow 10 (-e).toNat)) ↔
        span.Below (num / den) ((below + 1 : Nat) * 10 ^ e) := by
    unfold Span.Below
    rw [grid_le_iff hden, ← not_le, le_grid_iff hden, not_le]
  refine ⟨below, ?_, ?_, ?_⟩
  · rw [← grid_le_iff hden, ← hbelow]
    exact Nat.div_mul_le_self _ _
  · rw [← not_le, ← grid_le_iff hden, not_le, ← hbelow]
    exact Nat.lt_mul_of_div_lt (Nat.lt_succ_self _) hgrid
  · generalize hfound : onGrid? span num den e = found
    unfold onGrid? at hfound
    simp only at hfound
    rw [hbelow] at hfound
    rcases ite_eq_iff.mp hfound with ⟨hfits, rfl⟩ | ⟨hother, hfound⟩
    · exact .inl ⟨rfl, hfitsBelow.mp hfits.1⟩
    · rcases ite_eq_iff.mp hfound with ⟨hfits, rfl⟩ | ⟨hnot, rfl⟩
      · exact .inr (.inl ⟨rfl, hfitsAbove.mp hfits⟩)
      · refine .inr (.inr ⟨rfl, fun habove => ?_, fun hbelow' => hnot (hfitsAbove.mpr hbelow')⟩)
        exact hother ⟨hfitsBelow.mpr habove, .inl hnot⟩

/-- What is taken from a grid lies in the span. -/
theorem onGrid?_holds {d : Decimal} (hlow : (span.low * (num / den) : ℚ) < span.mid * (num / den))
    (hhigh : (span.mid * (num / den) : ℚ) < span.high * (num / den))
    (h : onGrid? span num den e = some d) :
    d.exponent = e ∧ span.Holds (num / den) d.value ∧
      ((d.significand : ℚ) - 1) * 10 ^ e ≤ span.mid * (num / den) := by
  obtain ⟨below, hle, hlt, ⟨hfound, habove⟩ | ⟨hfound, hbelow⟩ | ⟨hfound, -⟩⟩ :=
    @onGrid?_cases num den span e hden
  · obtain rfl := Option.some.inj (h.symm.trans hfound)
    refine ⟨rfl, ⟨habove, Span.below_of_lt (hle.trans_lt hhigh)⟩, le_trans ?_ hle⟩
    exact mul_le_mul_of_nonneg_right (sub_le_self _ zero_le_one) (ten_zpow_pos e).le
  · obtain rfl := Option.some.inj (h.symm.trans hfound)
    refine ⟨rfl, ⟨Span.above_of_lt (hlow.trans hlt), hbelow⟩, le_trans (le_of_eq ?_) hle⟩
    push_cast
    ring
  · cases h.symm.trans hfound

/-- A grid with a point in the span serves. -/
theorem onGrid?_of_holds {point : Nat} (h : span.Holds (num / den) (point * 10 ^ e)) :
    ∃ d, onGrid? span num den e = some d := by
  obtain ⟨below, hle, hlt, ⟨hfound, -⟩ | ⟨hfound, -⟩ | ⟨-, habove, hbelow⟩⟩ :=
    @onGrid?_cases num den span e hden
  · exact ⟨_, hfound⟩
  · exact ⟨_, hfound⟩
  · -- the point is one of the two or lies beyond them
    exfalso
    rcases Nat.lt_or_ge below point with hpoint | hpoint
    · refine hbelow (h.below.mono ?_)
      exact mul_le_mul_of_nonneg_right (Nat.cast_le.mpr hpoint) (ten_zpow_pos e).le
    · refine habove (h.above.mono ?_)
      exact mul_le_mul_of_nonneg_right (Nat.cast_le.mpr hpoint) (ten_zpow_pos e).le

/-- So does a grid that is finer than the span is wide. -/
theorem onGrid?_of_fine (h : (10 : ℚ) ^ e < (span.high - span.low) * (num / den)) :
    ∃ d, onGrid? span num den e = some d := by
  obtain ⟨below, hle, hlt, ⟨hfound, -⟩ | ⟨hfound, -⟩ | ⟨-, habove, hbelow⟩⟩ :=
    @onGrid?_cases num den span e hden
  · exact ⟨_, hfound⟩
  · exact ⟨_, hfound⟩
  · exfalso
    have hlow := not_lt.mp (mt Span.above_of_lt habove)
    have hhigh := not_lt.mp (mt Span.below_of_lt hbelow)
    push_cast at hhigh
    linarith

end

/-! ### The first grid that serves -/

/-- The first grid that serves is no finer than any that does. -/
theorem firstGrid_found {span : Span} {finer : Nat} {e goal : Int} {d : Decimal}
    (hgoal : onGrid? span num den goal = some d) (hle : goal ≤ e) (hfine : e < goal + finer) :
    ∃ found, goal ≤ found ∧ found ≤ e ∧
      onGrid? span num den found = some (firstGrid span num den finer e) := by
  induction finer generalizing e with
  | zero => omega
  | succ finer ih =>
    rw [firstGrid]
    cases hgrid : onGrid? span num den e with
    | some d' => exact ⟨e, hle, le_refl e, hgrid⟩
    | none =>
      have hne : goal ≠ e := by
        rintro rfl
        rw [hgrid] at hgoal
        cases hgoal
      obtain ⟨found, hbelow, habove, hfound⟩ := @ih (e - 1) (by omega) (by push_cast at hfine; omega)
      exact ⟨found, hbelow, by omega, hfound⟩

/-- Two points of one grid in a span narrower than the grid are the same. -/
theorem Span.Holds.unique {span : Span} {unit : ℚ} {m : Int} {i j : Nat}
    (hnarrow : (span.high - span.low) * unit < 10 ^ m) (hi : span.Holds unit (i * 10 ^ m))
    (hj : span.Holds unit (j * 10 ^ m)) : i = j := by
  have hclose : ∀ {i j : Nat},
      span.Holds unit (i * 10 ^ m) → span.Holds unit (j * 10 ^ m) → i ≤ j := by
    intro i j hi hj
    have hlt : (i : ℚ) * 10 ^ m < (j + 1 : Nat) * 10 ^ m := by
      have hlow := hj.above.le
      have hhigh := hi.below.le
      push_cast
      linarith
    exact Nat.lt_succ_iff.mp (Nat.cast_lt.mp (lt_of_mul_lt_mul_right hlt (ten_zpow_pos m).le))
  exact Nat.le_antisymm (hclose hi hj) (hclose hj hi)

/-- A decimal on a finer grid. -/
theorem exists_finer (point : Nat) {e m : Int} (h : m ≤ e) :
    ∃ point' : Nat, (point : ℚ) * 10 ^ e = point' * 10 ^ m := by
  refine ⟨point * 10 ^ (e - m).toNat, ?_⟩
  rw [Nat.cast_mul, Nat.cast_pow, ← zpow_natCast, Int.toNat_of_nonneg (by omega), mul_assoc]
  push_cast
  rw [← zpow_add₀ (by norm_num), sub_add_cancel]

/-! ### The shortest decimal -/

section
variable {x : Double} (hmantissa : 0 < x.mantissa)
include hmantissa

/-- The ends of the interval, by the last place of the double. -/
theorem span_ends : x.size = x.span.mid * 2 ^ (x.exponent - 2) ∧
    x.span.high * 2 ^ (x.exponent - 2) = x.size + 2 ^ x.exponent / 2 ∧
    ((x.span.low : ℚ) * 2 ^ (x.exponent - 2) = x.size - 2 ^ x.exponent / 2 ∨
      x.mantissa = 2 ^ 52 ∧
        (x.span.low : ℚ) * 2 ^ (x.exponent - 2) = x.size - 2 ^ x.exponent / 4) := by
  have hquarter : (2 : ℚ) ^ (x.exponent - 2) = 2 ^ x.exponent / 4 := by
    rw [zpow_sub₀ (by norm_num)]
    norm_num
  unfold size span
  rw [hquarter]
  simp only
  refine ⟨?_, ?_, ?_⟩
  · push_cast
    ring
  · push_cast
    ring
  · split
    · case _ hpower =>
      right
      refine ⟨hpower.1, ?_⟩
      rw [Nat.cast_sub (by omega)]
      push_cast
      ring
    · left
      rw [Nat.cast_sub (by omega)]
      push_cast
      ring

/-- What a grid gives for a double. -/
theorem onGrid?_span {num den : Nat} {e : Int} {d : Decimal} (hden : 0 < den)
    (hunit : (num / den : ℚ) = 2 ^ (x.exponent - 2)) (h : onGrid? x.span num den e = some d) :
    d.exponent = e ∧ x.span.Holds (2 ^ (x.exponent - 2)) d.value ∧
      ((d.significand : ℚ) - 1) * 10 ^ e ≤ x.size := by
  obtain ⟨hsize, hhigh, hlow⟩ := span_ends hmantissa
  have hlast := two_zpow_pos x.exponent
  rw [hsize, ← hunit] at hhigh hlow ⊢
  refine onGrid?_holds hden ?_ ?_ h
  · rcases hlow with hlow | ⟨-, hlow⟩ <;> rw [hlow] <;> linarith
  · rw [hhigh]
    linarith

/-- **A decimal of fifteen digits or fewer that is rounded once is the shortest decimal.** -/
theorem shortest_of_few {negative : Bool} {num den significand : Nat} {e : Int} (hden : 0 < den)
    (hpositive : 0 < num) (hfew : significand < 10 ^ 15)
    (hvalue : (num / den : ℚ) = significand * 10 ^ e) (hlowest : lowest ≤ x.exponent)
    (hbits : 2 ^ 52 ≤ x.mantissa) (h : ofRatio? negative num den = some x) :
    x.shortest.value = significand * 10 ^ e := by
  obtain ⟨hholds, -⟩ := ofRatio?_holds hpositive hden h
  obtain ⟨unum, uden, first, huden, hunit, hbelow, habove, hshortest⟩ :=
    shortest_found hmantissa hlowest
  obtain ⟨hmid, hhigh, hlow⟩ := span_ends hmantissa
  rw [hunit, ← hmid] at hbelow habove
  rw [hvalue] at hholds
  have hlast := two_zpow_pos x.exponent
  -- the last place is worth less than either power of ten
  have hsize : (2 : ℚ) ^ 52 * 2 ^ x.exponent ≤ x.size :=
    mul_le_mul_of_nonneg_right (by exact_mod_cast hbits) hlast.le
  have hvalue_le : (significand : ℚ) * 10 ^ e < 10 ^ 15 * 10 ^ e :=
    mul_lt_mul_of_pos_right (by exact_mod_cast hfew) (ten_zpow_pos e)
  have hclose : x.size - 2 ^ x.exponent / 2 ≤ significand * 10 ^ e := by
    refine le_trans ?_ hholds.above.le
    rcases hlow with hlow | ⟨-, hlow⟩ <;> rw [hlow]
    linarith
  have htens : (2 : ℚ) ^ x.exponent < 10 ^ e := by
    by_contra hle
    norm_num at hsize hvalue_le
    linarith
  have hfirst : (2 : ℚ) ^ x.exponent < 10 ^ first := by
    rw [zpow_add_one₀ (by norm_num)] at habove
    by_contra hle
    norm_num at hsize
    linarith
  have hplaces : first < e + 16 := by
    refine (zpow_lt_zpow_iff_right₀ (show (1 : ℚ) < 10 by norm_num)).mp ?_
    rw [zpow_add₀ (by norm_num)]
    norm_num at hvalue_le ⊢
    linarith
  have hnarrow : (x.span.high - x.span.low : ℚ) * 2 ^ (x.exponent - 2) < 10 ^ min e first := by
    have hmin : (2 : ℚ) ^ x.exponent < 10 ^ min e first := by
      rcases min_choice e first with heq | heq <;> rw [heq] <;> assumption
    refine lt_of_le_of_lt ?_ hmin
    rw [sub_mul, hhigh]
    rcases hlow with hlow | ⟨-, hlow⟩ <;> rw [hlow] <;> linarith
  obtain ⟨point, hpoint⟩ := exists_finer significand (min_le_left e first)
  rw [hpoint] at hholds ⊢
  obtain ⟨d, hgrid⟩ := @onGrid?_of_holds unum uden x.span (min e first) huden point (by
    rw [hunit]
    exact hholds)
  obtain ⟨found, hgoal, -, hfound⟩ := @firstGrid_found unum uden x.span 17 first (min e first) d
    hgrid (min_le_right e first) (by omega)
  rw [hshortest, (Decimal.strip_spec 17 _).1]
  obtain ⟨hexponent, hholds', -⟩ := onGrid?_span hmantissa huden hunit hfound
  generalize firstGrid x.span unum uden 17 first = d' at hexponent hholds' ⊢
  unfold Decimal.value at hholds' ⊢
  rw [hexponent] at hholds' ⊢
  obtain ⟨point', hpoint'⟩ := exists_finer d'.significand hgoal
  rw [hpoint'] at hholds' ⊢
  rw [Span.Holds.unique hnarrow hholds' hholds]

/-- **A double is written with seventeen digits at most.** -/
theorem shortest_digits (hfinite : x.IsFinite) : x.shortest.significand ≤ 10 ^ 17 := by
  obtain ⟨num, den, first, hden, hunit, hbelow, habove, hshortest⟩ :=
    shortest_found hmantissa hfinite.lowest_le
  obtain ⟨hmid, hhigh, hlow⟩ := span_ends hmantissa
  rw [hunit, ← hmid] at hbelow habove
  have hlast := two_zpow_pos x.exponent
  have hfine : (10 : ℚ) ^ (first - 16) < (x.span.high - x.span.low) * (num / den) := by
    have htens : (10 : ℚ) ^ first = 10 ^ 16 * 10 ^ (first - 16) := by
      rw [← zpow_natCast, ← zpow_add₀ (by norm_num)]
      congr 1
      push_cast
      omega
    rw [htens] at hbelow
    rw [hunit, sub_mul, hhigh]
    rcases hlow with hlow | ⟨hpower, hlow⟩
    · have hsize : x.size < 2 ^ 53 * 2 ^ x.exponent :=
        mul_lt_mul_of_pos_right (by exact_mod_cast hfinite.mantissa_lt) hlast
      rw [hlow]
      norm_num at hbelow hsize
      linarith
    · have hsize : x.size = 2 ^ 52 * 2 ^ x.exponent := by
        unfold size
        rw [hpower]
        norm_num
      rw [hlow]
      norm_num at hbelow hsize
      linarith
  obtain ⟨d, hgrid⟩ := onGrid?_of_fine hden hfine
  obtain ⟨found, hle, -, hfound⟩ := @firstGrid_found _ _ _ 17 first _ _ hgrid (by omega) (by omega)
  obtain ⟨-, -, hbefore⟩ := onGrid?_span hmantissa hden hunit hfound
  rw [hshortest]
  refine (Decimal.strip_spec 17 _).2.1.trans ?_
  have hlt : (((firstGrid x.span num den 17 first).significand : ℚ) - 1) * 10 ^ found <
      10 ^ 17 * 10 ^ found := by
    refine (hbefore.trans_lt habove).trans_le ?_
    rw [← zpow_natCast, ← zpow_add₀ (by norm_num)]
    exact zpow_le_zpow_right₀ (by norm_num) (by push_cast; omega)
  have hdigits := lt_of_mul_lt_mul_right hlt (ten_zpow_pos found).le
  have hcast : ((firstGrid x.span num den 17 first).significand : ℚ) < (10 ^ 17 + 1 : Nat) := by
    push_cast
    linarith
  exact Nat.lt_succ_iff.mp (by exact_mod_cast hcast)

end

/-! ### Read and rounded once -/

variable {negative : Bool}

theorem negative_ofRatio? {num den : Nat} {x : Double} (h : ofRatio? negative num den = some x) :
    x.negative = negative := by
  unfold ofRatio? at h
  split at h
  · cases h
    rfl
  · simp only at h
    rcases ite_eq_iff.mp h with ⟨-, h⟩ | ⟨-, h⟩
    · cases h
    · obtain rfl := Option.some.inj h
      split <;> rfl

/-- A whole number of 53 bits and some zeros is not rounded. -/
theorem roundedSize_exact {bits : Nat} (hpositive : 0 < bits) (hbits : bits < 2 ^ 53) (zeros : Nat) :
    roundedSize (bits * 2 ^ zeros) 1 = bits * 2 ^ zeros := by
  have hnum : 0 < bits * 2 ^ zeros := Nat.mul_pos hpositive (Nat.pow_pos (by decide))
  have hfits := exponentFor_fits hnum Nat.one_pos
  unfold roundedSize
  simp only
  generalize exponentFor (bits * 2 ^ zeros) 1 = e at hfits ⊢
  have hle : e ≤ zeros := by
    rcases hfits.le with hlowest | hle
    · rw [hlowest]
      exact le_trans (by decide) (Int.natCast_nonneg zeros)
    · have hlt : (2 : ℚ) ^ (e + 52) < 2 ^ (zeros + 53 : Int) := by
        refine hle.trans_lt ?_
        rw [Nat.cast_one, div_one, add_comm (zeros : Int), zpow_add₀ (by norm_num)]
        push_cast
        refine mul_lt_mul_of_pos_right ?_ (by positivity)
        exact_mod_cast hbits
      have := (zpow_lt_zpow_iff_right₀ (by norm_num)).mp hlt
      omega
  have hunits : ((bits * 2 ^ zeros : Nat) : ℚ) / (1 : Nat) =
      (bits * 2 ^ (zeros - e).toNat : Nat) * 2 ^ e := by
    rw [Nat.cast_one, div_one, Nat.cast_mul, Nat.cast_mul, mul_assoc, Nat.cast_pow, Nat.cast_pow,
      ← zpow_natCast, ← zpow_natCast, Int.toNat_of_nonneg (by omega), Nat.cast_ofNat,
      ← zpow_add₀ (by norm_num), sub_add_cancel]
  have hround := Nat.le_antisymm (divideRound_units_le Nat.one_pos hunits.le)
    (le_divideRound_units Nat.one_pos hunits.ge)
  rw [hround, ← hunits]
  push_cast
  rw [div_one]

theorem ofRatio?_exact (negative : Bool) {bits zeros : Nat} (hpositive : 0 < bits)
    (hbits : bits < 2 ^ 53) (hzeros : zeros ≤ 900) :
    ∃ x, ofRatio? negative (bits * 2 ^ zeros) 1 = some x ∧ x.size = bits * 2 ^ zeros ∧
      x.negative = negative := by
  have hspec := ofRatio?_spec negative (bits * 2 ^ zeros) Nat.one_pos
  rw [roundedSize_exact hpositive hbits zeros, if_pos] at hspec
  · obtain ⟨x, hx, hsize, -⟩ := hspec
    exact ⟨x, hx, hsize, negative_ofRatio? hx⟩
  · calc (bits : ℚ) * 2 ^ zeros ≤ 2 ^ 53 * 2 ^ 900 := by
          gcongr
          · exact_mod_cast hbits.le
          · norm_num
      _ = 2 ^ (953 : Int) := by rw [← pow_add, zpow_ofNat]
      _ < 2 ^ (1024 : Int) := zpow_lt_zpow_right₀ (by norm_num) (by decide)

theorem power?_exact {n : Nat} (h : n ≤ 22) :
    ∃ y, power? n = some y ∧ y.size = 10 ^ n ∧ y.negative = false := by
  have hfive : 5 ^ n < 2 ^ 53 := (Nat.pow_le_pow_right (by decide) h).trans_lt (by decide)
  have hten : Nat.pow 10 n = 5 ^ n * 2 ^ n := by
    rw [← Nat.mul_pow]
    rfl
  obtain ⟨y, hy, hsize, hsign⟩ := ofRatio?_exact false (Nat.pow_pos (by decide)) hfive
    (show n ≤ 900 by omega)
  refine ⟨y, by unfold power?; rw [hten, hy], hsize.trans ?_, hsign⟩
  rw [Nat.cast_pow, ← mul_pow]
  norm_num

/-- **A decimal whose digits and power of ten are doubles is read with one rounding.** -/
theorem ofDecimal?_once {significand : Nat} {e : Int} (hpositive : 0 < significand)
    (hbits : significand < 2 ^ 53) (he : e.natAbs ≤ 22) :
    ∃ num den : Nat, 0 < den ∧ (num / den : ℚ) = significand * 10 ^ e ∧
      ofDecimal? negative significand e = ofRatio? negative num den := by
  obtain ⟨x, hx, hsize, hsign⟩ := ofRatio?_exact negative hpositive hbits (Nat.zero_le 900)
  rw [pow_zero, Nat.mul_one] at hx
  rw [pow_zero, mul_one] at hsize
  have hwhole : ofDecimal? negative significand e =
      if 0 ≤ e then x.shiftUp? e.toNat else x.shiftDown? (-e).toNat := by
    unfold ofDecimal?
    rw [hx, Option.bind_some]
  rw [hwhole]
  split
  · case _ hup =>
    obtain ⟨y, hy, hpower, hplus⟩ := @power?_exact e.toNat (by omega)
    obtain ⟨num, den, hden, hratio, heq⟩ := ofScaled?_eq (x.negative != y.negative)
      (x.mantissa * y.mantissa) Nat.one_pos (x.exponent + y.exponent)
    refine ⟨num, den, hden, hratio.trans ?_, ?_⟩
    · calc ((x.mantissa * y.mantissa : Nat) : ℚ) / (1 : Nat) * 2 ^ (x.exponent + y.exponent)
          = x.size * y.size := by
            unfold size
            rw [Nat.cast_mul, Nat.cast_one, div_one, zpow_add₀ (by norm_num), mul_mul_mul_comm]
        _ = significand * 10 ^ e := by
            rw [hsize, hpower, ← zpow_natCast, Int.toNat_of_nonneg hup]
    · unfold shiftUp? greatestPower
      rw [if_pos (by omega), hy, Option.bind_some]
      show ofScaled? (x.negative != y.negative) _ 1 _ = _
      rw [heq, hsign, hplus, Bool.bne_false]
  · case _ hdown =>
    obtain ⟨y, hy, hpower, hplus⟩ := @power?_exact (-e).toNat (by omega)
    obtain ⟨greatest, hgreatest, -⟩ := power?_large (le_refl greatestPower)
    have hdivisor : 0 < y.mantissa := by
      refine Nat.pos_of_ne_zero fun hzero => ?_
      have : (0 : ℚ) < y.size := hpower ▸ by positivity
      unfold size at this
      rw [hzero, Nat.cast_zero, zero_mul] at this
      exact lt_irrefl 0 this
    obtain ⟨num, den, hden, hratio, heq⟩ := ofScaled?_eq (x.negative != y.negative) x.mantissa
      hdivisor (x.exponent - y.exponent)
    refine ⟨num, den, hden, hratio.trans ?_, ?_⟩
    · calc (x.mantissa : ℚ) / y.mantissa * 2 ^ (x.exponent - y.exponent) = x.size / y.size := by
            unfold size
            rw [zpow_sub₀ (by norm_num), div_mul_div_comm]
        _ = significand * 10 ^ e := by
            rw [hsize, hpower, ← zpow_natCast, Int.toNat_of_nonneg (by omega), zpow_neg,
              div_inv_eq_mul]
    · have hnone : ((-e).toNat - 1) / greatestPower = 0 := by
        unfold greatestPower
        omega
      unfold shiftDown?
      simp only [hgreatest, hnone, shrink?, Option.bind_some, Nat.zero_mul, Nat.sub_zero, hy]
      show ofScaled? (x.negative != y.negative) _ _ _ = _
      rw [heq, hsign, hplus, Bool.bne_false]

/-- **A decimal of fifteen digits or fewer with a small power of ten is written as it was read.** -/
theorem shortest_ofDecimal? {significand : Nat} {e : Int} {x : Double} (hpositive : 0 < significand)
    (hfew : significand < 10 ^ 15) (he : e.natAbs ≤ 22)
    (h : ofDecimal? negative significand e = some x) :
    0 < x.mantissa ∧ x.negative = negative ∧ x.shortest.value = significand * 10 ^ e := by
  obtain ⟨num, den, hden, hvalue, heq⟩ := @ofDecimal?_once negative significand e hpositive
    (hfew.trans (by decide)) he
  have hfinite := isFinite_ofDecimal? (hfew.le.trans (by decide)) h
  rw [heq] at h
  have hratio : (10 : ℚ) ^ (-22 : Int) ≤ num / den := by
    rw [hvalue]
    calc (10 : ℚ) ^ (-22 : Int) ≤ 10 ^ e := zpow_le_zpow_right₀ (by norm_num) (by omega)
      _ ≤ significand * 10 ^ e :=
        le_mul_of_one_le_left (ten_zpow_pos e).le (by exact_mod_cast hpositive)
  have hnum : 0 < num := by
    refine Nat.pos_of_ne_zero fun hzero => ?_
    rw [hzero, Nat.cast_zero, zero_div] at hratio
    exact absurd hratio (not_le.mpr (ten_zpow_pos _))
  obtain ⟨hholds, hnormal⟩ := ofRatio?_holds hnum hden h
  have hbits : 2 ^ 52 ≤ x.mantissa := by
    -- the smallest doubles lie far below
    refine hnormal.resolve_left fun hlowest => ?_
    have hle := hratio.trans hholds.below.le
    have hhigh : (x.span.high : ℚ) ≤ (2 ^ 56 : Nat) := by
      have hmantissa := hfinite.mantissa_lt
      exact_mod_cast (show 4 * x.mantissa + 2 ≤ 2 ^ 56 by omega)
    have hsmall : (x.span.high : ℚ) * 2 ^ (x.exponent - 2) ≤ 2 ^ (-1000 : Int) := by
      rw [hlowest]
      calc (x.span.high : ℚ) * 2 ^ (lowest - 2) ≤ (2 ^ 56 : Nat) * 2 ^ (lowest - 2) :=
            mul_le_mul_of_nonneg_right hhigh (two_zpow_pos _).le
        _ = 2 ^ (lowest - 2 + (56 : Nat)) := two_pow_mul_zpow 56 _
        _ ≤ 2 ^ (-1000 : Int) := zpow_le_zpow_right₀ (by norm_num) (by decide)
    refine absurd (hle.trans hsmall) (not_le.mpr ?_)
    rw [zpow_neg, zpow_neg, zpow_ofNat, zpow_ofNat]
    exact inv_strictAnti₀ (by positivity) (by exact_mod_cast show 10 ^ 22 < 2 ^ 1000 by decide +kernel)
  have hmantissa : 0 < x.mantissa := Nat.lt_of_lt_of_le (by decide) hbits
  exact ⟨hmantissa, negative_ofRatio? h,
    shortest_of_few hmantissa hden hnum hfew hvalue hfinite.lowest_le hbits h⟩

/-- Zero is read as a zero, whatever the power of ten. -/
theorem ofDecimal?_zero {e : Int} {x : Double} (h : ofDecimal? negative 0 e = some x) :
    x.mantissa = 0 := by
  have hscaled : ∀ {sign : Bool} {den : Nat} {e : Int} {z : Double},
      ofScaled? sign 0 den e = some z → z.mantissa = 0 := by
    intro sign den e z hz
    unfold ofScaled? at hz
    rw [Nat.zero_mul] at hz
    split at hz <;>
    · cases hz
      rfl
  have hshrink : ∀ greatest count, shrink? greatest count (zero negative) = some (zero negative) := by
    intro greatest count
    cases count <;> rfl
  have hwhole : ofRatio? negative 0 1 = some (zero negative) := rfl
  unfold ofDecimal? at h
  rw [hwhole, Option.bind_some] at h
  split at h
  · unfold shiftUp? at h
    split at h
    · obtain ⟨y, -, hz⟩ := Option.bind_eq_some_iff.mp h
      unfold times? at hz
      have hnone : (zero negative).mantissa * y.mantissa = 0 := Nat.zero_mul _
      rw [hnone] at hz
      exact hscaled hz
    · cases h
      rfl
  · unfold shiftDown? at h
    obtain ⟨greatest, -, h⟩ := Option.bind_eq_some_iff.mp h
    rw [hshrink, Option.bind_some] at h
    obtain ⟨y, -, hz⟩ := Option.bind_eq_some_iff.mp h
    exact hscaled hz

end PipeGuard.Double
