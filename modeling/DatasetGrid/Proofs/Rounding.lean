import DatasetGrid.Number.Reading
import Mathlib.Algebra.Order.Field.Power
import Mathlib.Tactic.FieldSimp
import Mathlib.Tactic.Linarith
import Mathlib.Tactic.Positivity
import Mathlib.Tactic.Ring

/-! # Rounding to a binary format

A ratio rounds to infinity exactly from half a unit past the largest finite number on. Every finite
pattern stands for a number below that bound, by half a unit at least.
-/
namespace DatasetGrid.Number

section Nearest

variable {num den k : Nat}

theorem nearest_cases (num den : Nat) :
    (2 * (num % den) ≤ den ∧ nearest num den = num / den) ∨
      (den ≤ 2 * (num % den) ∧ nearest num den = num / den + 1) := by
  simp only [nearest]
  split
  · rename_i h
    exact .inl ⟨by omega, rfl⟩
  · rename_i h
    exact .inr ⟨by omega, rfl⟩

theorem le_nearest (hden : 0 < den) (h : k * den ≤ num) : k ≤ nearest num den := by
  have hbelow : k ≤ num / den := (Nat.le_div_iff_mul_le hden).mpr h
  rcases nearest_cases num den with ⟨-, heq⟩ | ⟨-, heq⟩ <;> omega

theorem nearest_le (hden : 0 < den) (h : num ≤ k * den) : nearest num den ≤ k := by
  have hsplit := Nat.div_add_mod num den
  rcases nearest_cases num den with ⟨-, heq⟩ | ⟨hhalf, heq⟩
  · rw [heq]
    exact Nat.div_le_of_le_mul (by rwa [Nat.mul_comm])
  · rw [heq, Nat.succ_le_iff, Nat.div_lt_iff_lt_mul hden]
    refine Nat.lt_of_le_of_ne h fun hexact => ?_
    rw [hexact, Nat.mul_mod_left] at hhalf
    omega

/-- Rounding moves a ratio by half a unit at most. -/
theorem two_mul_nearest_le (num den : Nat) : 2 * (nearest num den * den) ≤ 2 * num + den := by
  have hsplit := Nat.div_add_mod num den
  rw [Nat.mul_comm den] at hsplit
  rcases nearest_cases num den with ⟨-, heq⟩ | ⟨hhalf, heq⟩
  · rw [heq]
    omega
  · rw [heq, Nat.add_mul, Nat.one_mul]
    omega

/-- From half a unit below an even number on, a ratio rounds to that number or further. -/
theorem le_nearest_iff_of_even (hden : 0 < den) (hpos : 0 < k) (heven : k % 2 = 0) :
    k ≤ nearest num den ↔ 2 * (k * den) ≤ 2 * num + den := by
  constructor
  · intro h
    have hmul : k * den ≤ nearest num den * den := Nat.mul_le_mul_right den h
    have hle := two_mul_nearest_le num den
    omega
  · intro h
    by_contra hlt
    rw [Nat.not_le] at hlt
    have hsplit := Nat.div_add_mod num den
    rw [Nat.mul_comm den] at hsplit
    have hmod := Nat.mod_lt num hden
    have hbelow : num / den ≤ k - 1 := by
      rcases nearest_cases num den with ⟨-, heq⟩ | ⟨-, heq⟩ <;> omega
    have hmul : num / den * den ≤ (k - 1) * den := Nat.mul_le_mul_right den hbelow
    have hk : (k - 1) * den + den = k * den := by
      rw [← Nat.succ_mul]
      congr 1
      omega
    have hexact : num / den = k - 1 := by
      by_contra hne
      have hnext : num / den + 1 ≤ k - 1 := by omega
      have hmul' : (num / den + 1) * den ≤ (k - 1) * den := Nat.mul_le_mul_right den hnext
      rw [Nat.succ_mul] at hmul'
      omega
    -- The number below is odd, so that a tie goes up.
    have hup : nearest num den = num / den + 1 := by
      simp only [nearest]
      rw [if_neg]
      rintro (hless | ⟨-, hodd⟩)
      · rw [hexact] at hsplit
        omega
      · omega
    omega

end Nearest

section Scaling

variable {num den : Nat}

theorem zpow_eq_div (base : Nat) (power : Int) :
    (base : ℚ) ^ power =
      ((base ^ power.toNat : Nat) : ℚ) / ((base ^ (-power).toNat : Nat) : ℚ) := by
  rcases Int.le_total 0 power with h | h
  · obtain ⟨n, rfl⟩ := Int.eq_ofNat_of_zero_le h
    simp
  · obtain ⟨n, hn⟩ := Int.eq_ofNat_of_zero_le (Int.neg_nonneg_of_nonpos h)
    obtain rfl : power = -(n : Int) := by omega
    simp

theorem mul_zpow_eq_div (n base : Nat) (power : Int) :
    (n : ℚ) * (base : ℚ) ^ power =
      ((n * base ^ power.toNat : Nat) : ℚ) / ((base ^ (-power).toNat : Nat) : ℚ) := by
  rw [zpow_eq_div, Nat.cast_mul, mul_div_assoc]

theorem mul_two_zpow_eq_div (n : Nat) (power : Int) :
    (n : ℚ) * 2 ^ power = ((n * 2 ^ power.toNat : Nat) : ℚ) / (2 ^ (-power).toNat : Nat) :=
  mul_zpow_eq_div n 2 power

theorem scaled_div_eq {base : Nat} (hbase : 0 < base) (num den : Nat) (power : Int) :
    ((num * base ^ (-power).toNat : Nat) : ℚ) / ((den * base ^ power.toNat : Nat) : ℚ) =
      num / den / (base : ℚ) ^ power := by
  have hne : (base : ℚ) ≠ 0 := by exact_mod_cast hbase.ne'
  rw [zpow_eq_div]
  push_cast
  field_simp

theorem unscale_den_pos (num : Nat) {den : Nat} (hden : 0 < den) (power : Int) :
    0 < (unscale num den power).2 :=
  Nat.mul_pos hden (Nat.pow_pos (by decide))

theorem unscale_eq (num den : Nat) (power : Int) :
    ((unscale num den power).1 : ℚ) / (unscale num den power).2 = num / den / 2 ^ power :=
  scaled_div_eq two_pos num den power

theorem unscale10_eq (num den : Nat) (exponent : Int) :
    ((unscale10 num den exponent).1 : ℚ) / (unscale10 num den exponent).2 =
      num / den / 10 ^ exponent :=
  scaled_div_eq (by decide : 0 < 10) num den exponent

theorem unscale_le_iff (hden : 0 < den) (power : Int) :
    (unscale num den power).2 ≤ (unscale num den power).1 ↔ (2 : ℚ) ^ power ≤ num / den := by
  have hpos : (0 : ℚ) < (unscale num den power).2 := by
    exact_mod_cast unscale_den_pos num hden power
  have hpower : (0 : ℚ) < 2 ^ power := by positivity
  rw [← one_le_div hpower, ← unscale_eq, one_le_div hpos, Nat.cast_le]

/-- The floor of the logarithm lies between the powers of two around the ratio. -/
theorem floorLog2_spec (hnum : 0 < num) (hden : 0 < den) :
    (2 : ℚ) ^ floorLog2 num den ≤ num / den ∧ (num : ℚ) / den < 2 ^ (floorLog2 num den + 1) := by
  have hratio : (0 : ℚ) < den := by exact_mod_cast hden
  have hnumLow : (2 : ℚ) ^ num.log2 ≤ num := by exact_mod_cast Nat.log2_self_le (by omega)
  have hnumHigh : (num : ℚ) < 2 ^ (num.log2 + 1) := by exact_mod_cast Nat.lt_log2_self
  have hdenLow : (2 : ℚ) ^ den.log2 ≤ den := by exact_mod_cast Nat.log2_self_le (by omega)
  have hdenHigh : (den : ℚ) < 2 ^ (den.log2 + 1) := by exact_mod_cast Nat.lt_log2_self
  -- The logarithms of the two parts leave two candidates.
  have hlow : (2 : ℚ) ^ ((num.log2 : Int) - den.log2 - 1) ≤ num / den := by
    have hsplit : (2 : ℚ) ^ ((num.log2 : Int) - den.log2 - 1) =
        2 ^ num.log2 / 2 ^ (den.log2 + 1) := by
      rw [Int.sub_sub, zpow_sub₀ two_ne_zero]
      norm_cast
    rw [hsplit]
    gcongr
  have hhigh : (num : ℚ) / den < 2 ^ ((num.log2 : Int) - den.log2 + 1) := by
    have hsplit : (2 : ℚ) ^ ((num.log2 : Int) - den.log2 + 1) =
        2 ^ (num.log2 + 1) / 2 ^ den.log2 := by
      rw [sub_add_eq_add_sub, zpow_sub₀ two_ne_zero]
      norm_cast
    rw [hsplit]
    gcongr
  simp only [floorLog2]
  split
  · rename_i h
    exact ⟨(unscale_le_iff hden _).mp h, hhigh⟩
  · rename_i h
    rw [unscale_le_iff hden, not_le] at h
    rw [Int.sub_add_cancel]
    exact ⟨hlow, h⟩

end Scaling

namespace Layout

/-- The exponent of the first power of two past all finite numbers. -/
def emax (l : Layout) : Nat :=
  2 ^ (l.exponent - 1)

/-- The least number that rounds to infinity, half a unit past the largest finite one. -/
def overflowBound (l : Layout) : Nat :=
  2 ^ l.emax - 2 ^ (l.emax - l.fraction - 2)

/-- What the formats have in common: room for all fraction bits below the greatest powers, and
numbers of no more than 400 decimal digits. -/
structure Regular (l : Layout) : Prop where
  exponent : 2 ≤ l.exponent
  fraction : l.fraction + 3 ≤ l.emax
  emax : l.emax ≤ 1024

theorem regular_single : single.Regular := ⟨by decide, by decide, by decide⟩

theorem regular_double : double.Regular := ⟨by decide, by decide, by decide⟩

variable {l : Layout}

example : single.overflowBound = 2 ^ 128 - 2 ^ 103 := by decide +kernel

example : double.overflowBound = 2 ^ 1024 - 2 ^ 970 := by decide +kernel

theorem overflowBound_eq (hl : l.Regular) :
    (l.overflowBound : ℚ) = (2 ^ (l.fraction + 2) - 1) * 2 ^ ((l.emax : Int) - l.fraction - 2) := by
  obtain ⟨d, hd⟩ : ∃ d, l.emax = l.fraction + 2 + d := ⟨l.emax - (l.fraction + 2), by
    have hfraction := hl.fraction
    omega⟩
  have hrest : l.emax - l.fraction - 2 = d := by omega
  have hpower : (l.emax : Int) - l.fraction - 2 = d := by omega
  have hle : 2 ^ d ≤ 2 ^ l.emax := Nat.pow_le_pow_right (by decide) (by omega)
  rw [overflowBound, hrest, hpower, Nat.cast_sub hle, hd, zpow_natCast]
  push_cast
  ring

/-- The bound lies in the last power of two. -/
theorem le_overflowBound (hl : l.Regular) : (2 : ℚ) ^ ((l.emax : Int) - 1) ≤ l.overflowBound := by
  have hfraction := hl.fraction
  have hdouble : 2 ^ l.emax = 2 * 2 ^ (l.emax - 1) := by
    rw [← Nat.pow_succ']
    congr 1
    omega
  have hrest : 2 ^ (l.emax - l.fraction - 2) ≤ 2 ^ (l.emax - 1) :=
    Nat.pow_le_pow_right (by decide) (by omega)
  have hle : 2 ^ (l.emax - 1) ≤ l.overflowBound := by
    rw [overflowBound]
    omega
  obtain ⟨d, hd⟩ : ∃ d, l.emax = d + 1 := ⟨l.emax - 1, by omega⟩
  rw [hd, Nat.add_sub_cancel] at hle
  rw [hd, Nat.cast_add, Nat.cast_one, add_sub_cancel_right, zpow_natCast]
  exact_mod_cast hle

theorem overflowBound_le (l : Layout) : (l.overflowBound : ℚ) ≤ 2 ^ (l.emax : Int) := by
  have hle : l.overflowBound ≤ 2 ^ l.emax := Nat.sub_le _ _
  rw [zpow_natCast]
  exact_mod_cast hle

theorem two_pow_exponent (hl : l.Regular) : 2 ^ l.exponent = 2 * l.emax := by
  have hexponent := hl.exponent
  rw [emax, ← Nat.pow_succ']
  congr 1
  omega

theorem minPower_eq (l : Layout) : l.minPower = 2 - l.emax - l.fraction := by
  rw [minPower, emax]
  push_cast
  rfl

theorem infinity_eq (hl : l.Regular) : l.infinity = (2 * l.emax - 1) * 2 ^ l.fraction := by
  rw [infinity, two_pow_exponent hl]

/-- The power of two that the last fraction bit of a rounded ratio weighs. -/
def lastPower (l : Layout) (num den : Nat) : Int :=
  max (floorLog2 num den - l.fraction) l.minPower

def significand (l : Layout) (num den : Nat) : Nat :=
  nearest (unscale num den (l.lastPower num den)).1 (unscale num den (l.lastPower num den)).2

theorem ofRatio_eq_infinity_iff_le {num den : Nat} (hnum : 0 < num) :
    l.ofRatio num den = l.infinity ↔ l.infinity ≤
      (l.lastPower num den - l.minPower).toNat * 2 ^ l.fraction + l.significand num den := by
  have hofRatio : l.ofRatio num den =
      min ((l.lastPower num den - l.minPower).toNat * 2 ^ l.fraction + l.significand num den)
        l.infinity := by
    rw [ofRatio, if_neg (by omega)]
    rfl
  rw [hofRatio]
  omega

section Significand

variable {num den : Nat} (hnum : 0 < num) (hden : 0 < den)

include hden

theorem le_significand {k : Nat} (h : (k : ℚ) * 2 ^ l.lastPower num den ≤ num / den) :
    k ≤ l.significand num den := by
  have hpos := unscale_den_pos num hden (l.lastPower num den)
  have hpower : (0 : ℚ) < 2 ^ l.lastPower num den := by positivity
  refine le_nearest hpos ?_
  rw [← le_div_iff₀ hpower, ← unscale_eq, le_div_iff₀ (by exact_mod_cast hpos)] at h
  exact_mod_cast h

theorem significand_le {k : Nat} (h : (num : ℚ) / den ≤ k * 2 ^ l.lastPower num den) :
    l.significand num den ≤ k := by
  have hpos := unscale_den_pos num hden (l.lastPower num den)
  have hpower : (0 : ℚ) < 2 ^ l.lastPower num den := by positivity
  refine nearest_le hpos ?_
  rw [← div_le_iff₀ hpower, ← unscale_eq, div_le_iff₀ (by exact_mod_cast hpos)] at h
  exact_mod_cast h

theorem le_significand_iff_of_even {k : Nat} (hk : 0 < k) (heven : k % 2 = 0) :
    k ≤ l.significand num den ↔ (2 * k - 1 : ℚ) * 2 ^ l.lastPower num den ≤ 2 * (num / den) := by
  have hpos := unscale_den_pos num hden (l.lastPower num den)
  have hcast : (0 : ℚ) < (unscale num den (l.lastPower num den)).2 := by exact_mod_cast hpos
  have hpower : (0 : ℚ) < 2 ^ l.lastPower num den := by positivity
  rw [significand, le_nearest_iff_of_even hpos hk heven, ← le_div_iff₀ hpower, mul_div_assoc,
    ← unscale_eq, ← mul_div_assoc, le_div_iff₀ hcast]
  constructor
  · intro h
    have hscaled : (2 : ℚ) * (k * (unscale num den (l.lastPower num den)).2) ≤
        2 * (unscale num den (l.lastPower num den)).1 +
          (unscale num den (l.lastPower num den)).2 := by
      exact_mod_cast h
    linarith
  · intro h
    have hscaled : (2 : ℚ) * (k * (unscale num den (l.lastPower num den)).2) ≤
        2 * (unscale num den (l.lastPower num den)).1 +
          (unscale num den (l.lastPower num den)).2 := by
      linarith
    exact_mod_cast hscaled

end Significand

section Overflow

variable {num den : Nat} (hl : l.Regular) (hnum : 0 < num) (hden : 0 < den)

include hl hnum hden

theorem ofRatio_of_past (h : (l.emax : Int) ≤ floorLog2 num den) :
    l.ofRatio num den = l.infinity := by
  have hfraction := hl.fraction
  have hmin := l.minPower_eq
  have hlast : l.lastPower num den = floorLog2 num den - l.fraction := by
    rw [lastPower]
    omega
  have hsignificand : 2 ^ l.fraction ≤ l.significand num den := by
    refine le_significand hden ?_
    rw [hlast, Nat.cast_pow, Nat.cast_ofNat, ← zpow_natCast, ← zpow_add₀ two_ne_zero,
      add_sub_cancel]
    exact (floorLog2_spec hnum hden).1
  have hexponent : 2 * l.emax - 2 ≤ (l.lastPower num den - l.minPower).toNat := by omega
  rw [ofRatio_eq_infinity_iff_le hnum, infinity_eq hl]
  calc (2 * l.emax - 1) * 2 ^ l.fraction
      = (2 * l.emax - 2) * 2 ^ l.fraction + 2 ^ l.fraction := by
        rw [← Nat.succ_mul]
        congr 1
        omega
    _ ≤ _ := Nat.add_le_add (Nat.mul_le_mul_right _ hexponent) hsignificand

theorem ofRatio_eq_infinity_iff_of_last (h : floorLog2 num den = (l.emax : Int) - 1) :
    l.ofRatio num den = l.infinity ↔ (l.overflowBound : ℚ) ≤ num / den := by
  have hfraction := hl.fraction
  have hmin := l.minPower_eq
  have hlast : l.lastPower num den = (l.emax : Int) - l.fraction - 2 + 1 := by
    rw [lastPower]
    omega
  have hexponent : (l.lastPower num den - l.minPower).toNat = 2 * l.emax - 3 := by omega
  have hinfinity : l.infinity = (2 * l.emax - 3) * 2 ^ l.fraction + 2 ^ (l.fraction + 1) := by
    rw [infinity_eq hl, Nat.pow_succ', ← Nat.add_mul]
    congr 1
    omega
  have heven : 2 ^ (l.fraction + 1) % 2 = 0 := by
    rw [Nat.pow_succ', Nat.mul_mod_right]
  rw [ofRatio_eq_infinity_iff_le hnum, hexponent, hinfinity, Nat.add_le_add_iff_left,
    le_significand_iff_of_even hden (Nat.pow_pos (by decide)) heven, hlast, overflowBound_eq hl,
    zpow_add_one₀ two_ne_zero]
  have hdouble : (2 * ((2 ^ (l.fraction + 1) : Nat) : ℚ) - 1) *
      ((2 : ℚ) ^ ((l.emax : Int) - l.fraction - 2) * 2) =
        2 * ((2 ^ (l.fraction + 2) - 1) * (2 : ℚ) ^ ((l.emax : Int) - l.fraction - 2)) := by
    push_cast
    ring
  rw [hdouble]
  exact mul_le_mul_iff_right₀ two_pos

theorem ofRatio_ne_infinity_of_below (h : floorLog2 num den < (l.emax : Int) - 1) :
    l.ofRatio num den ≠ l.infinity := by
  have hfraction := hl.fraction
  have hmin := l.minPower_eq
  have hsignificand : l.significand num den ≤ 2 * 2 ^ l.fraction := by
    refine significand_le hden (le_trans (floorLog2_spec hnum hden).2.le ?_)
    rw [← Nat.pow_succ', Nat.cast_pow, Nat.cast_ofNat, ← zpow_natCast, ← zpow_add₀ two_ne_zero]
    refine zpow_le_zpow_right₀ one_le_two ?_
    rw [lastPower]
    push_cast
    omega
  have hexponent : (l.lastPower num den - l.minPower).toNat ≤ 2 * l.emax - 4 := by
    rw [lastPower]
    omega
  have hsum : (l.lastPower num den - l.minPower).toNat * 2 ^ l.fraction + l.significand num den ≤
      (2 * l.emax - 2) * 2 ^ l.fraction :=
    calc _ ≤ (2 * l.emax - 4) * 2 ^ l.fraction + 2 * 2 ^ l.fraction :=
          Nat.add_le_add (Nat.mul_le_mul_right _ hexponent) hsignificand
      _ = (2 * l.emax - 2) * 2 ^ l.fraction := by
          rw [← Nat.add_mul]
          congr 1
          omega
  rw [Ne, ofRatio_eq_infinity_iff_le hnum, infinity_eq hl, Nat.not_le]
  refine Nat.lt_of_le_of_lt hsum (Nat.mul_lt_mul_of_pos_right (by omega) (Nat.pow_pos (by decide)))

end Overflow

theorem infinity_pos (hl : l.Regular) : 0 < l.infinity := by
  have hfraction := hl.fraction
  rw [infinity_eq hl]
  exact Nat.mul_pos (by omega) (Nat.pow_pos (by decide))

theorem overflowBound_pos (hl : l.Regular) : (0 : ℚ) < l.overflowBound :=
  lt_of_lt_of_le (by positivity) (le_overflowBound hl)

/-- A ratio rounds to infinity from half a unit past the largest finite number on. -/
theorem ofRatio_eq_infinity_iff (hl : l.Regular) {num den : Nat} (hden : 0 < den) :
    l.ofRatio num den = l.infinity ↔ (l.overflowBound : ℚ) ≤ num / den := by
  rcases Nat.eq_zero_or_pos num with rfl | hnum
  · have hinfinity := infinity_pos hl
    have hbound := overflowBound_pos hl
    rw [ofRatio, if_pos rfl, Nat.cast_zero, zero_div]
    exact iff_of_false (by omega) (not_le.mpr hbound)
  · obtain ⟨hlow, hhigh⟩ := floorLog2_spec hnum hden
    -- Only in the last power of two does it depend on the significand.
    rcases Int.lt_trichotomy (floorLog2 num den) ((l.emax : Int) - 1) with hbelow | hlast | hpast
    · have hpower : (2 : ℚ) ^ (floorLog2 num den + 1) ≤ 2 ^ ((l.emax : Int) - 1) :=
        zpow_le_zpow_right₀ one_le_two (by omega)
      have hbound := le_overflowBound hl
      exact iff_of_false (ofRatio_ne_infinity_of_below hl hnum hden hbelow)
        (not_le.mpr (hhigh.trans_le (hpower.trans hbound)))
    · exact ofRatio_eq_infinity_iff_of_last hl hnum hden hlast
    · have hpower : (2 : ℚ) ^ (l.emax : Int) ≤ 2 ^ floorLog2 num den :=
        zpow_le_zpow_right₀ one_le_two (by omega)
      exact iff_of_true (ofRatio_of_past hl hnum hden (by omega))
        (l.overflowBound_le.trans (hpower.trans hlow))

theorem ofRatio_le_infinity (l : Layout) (num den : Nat) : l.ofRatio num den ≤ l.infinity := by
  rw [ofRatio]
  split
  · exact Nat.zero_le _
  · exact Nat.min_le_right _ _

section Decoding

variable {pattern : Nat}

/-- Only the pattern of infinity, with either sign, stands for it. -/
theorem isInfinite_decode (l : Layout) (negative : Bool) (h : pattern ≤ l.infinity) :
    (l.decode ((if negative then l.signBit else 0) + pattern)).isInfinite = true ↔
      pattern = l.infinity := by
  have hunit : 0 < 2 ^ l.fraction := Nat.pow_pos (by decide)
  have hfields : 0 < 2 ^ l.exponent := Nat.pow_pos (by decide)
  obtain ⟨sign, hsign⟩ : ∃ sign, (if negative then l.signBit else 0) =
      2 ^ l.fraction * (2 ^ l.exponent * sign) := by
    cases negative
    · exact ⟨0, rfl⟩
    · refine ⟨1, ?_⟩
      rw [if_pos rfl, signBit, Nat.pow_add, Nat.mul_one]
  have hfieldLe : pattern / 2 ^ l.fraction ≤ 2 ^ l.exponent - 1 :=
    Nat.div_le_of_le_mul (by rwa [infinity, Nat.mul_comm] at h)
  have hfield : (2 ^ l.fraction * (2 ^ l.exponent * sign) + pattern) / 2 ^ l.fraction %
      2 ^ l.exponent = pattern / 2 ^ l.fraction := by
    rw [Nat.mul_add_div hunit, Nat.mul_add_mod, Nat.mod_eq_of_lt (by omega)]
  have hrest : (2 ^ l.fraction * (2 ^ l.exponent * sign) + pattern) % 2 ^ l.fraction =
      pattern % 2 ^ l.fraction := by
    rw [Nat.mul_add_mod]
  have hsplit := Nat.div_add_mod' pattern (2 ^ l.fraction)
  rw [hsign]
  simp only [decode, hfield, hrest]
  by_cases htop : pattern / 2 ^ l.fraction = 2 ^ l.exponent - 1
  · rw [htop, ← infinity] at hsplit
    rw [if_pos htop, if_pos (by omega)]
    exact iff_of_true rfl (by omega)
  · have hne : pattern ≠ l.infinity := by
      rintro rfl
      exact htop (by rw [infinity, Nat.mul_div_cancel _ hunit])
    rw [if_neg htop]
    split <;> exact iff_of_false Bool.false_ne_true hne

/-- The significands and the powers of the finite numbers of a layout. -/
structure IsFinite (l : Layout) (significand : Nat) (power : Int) : Prop where
  significand : significand < 2 ^ (l.fraction + 1)
  minPower : l.minPower ≤ power
  power : power ≤ (l.emax : Int) - l.fraction - 1

theorem isFinite_of_decode (hl : l.Regular) {negative : Bool} {significand : Nat} {power : Int}
    (h : l.decode pattern = .finite negative significand power) :
    l.IsFinite significand power := by
  have hfraction := hl.fraction
  have hmin := l.minPower_eq
  have hfields := two_pow_exponent hl
  have hrest : pattern % 2 ^ l.fraction < 2 ^ l.fraction := Nat.mod_lt _ (Nat.pow_pos (by decide))
  have hfield : pattern / 2 ^ l.fraction % 2 ^ l.exponent < 2 ^ l.exponent :=
    Nat.mod_lt _ (Nat.pow_pos (by decide))
  have hdouble : 2 ^ (l.fraction + 1) = 2 * 2 ^ l.fraction := Nat.pow_succ'
  simp only [decode] at h
  split at h
  · split at h <;> cases h
  · rename_i htop
    split at h
    · cases h
      exact ⟨by omega, le_rfl, by omega⟩
    · cases h
      exact ⟨by omega, by omega, by omega⟩

/-- Finite numbers stay below the bound by half a unit of the largest ones. -/
theorem IsFinite.add_half_le (hl : l.Regular) {significand : Nat} {power : Int}
    (h : l.IsFinite significand power) :
    (significand : ℚ) * 2 ^ power + 2 ^ ((l.emax : Int) - l.fraction - 2) ≤ l.overflowBound := by
  have hsignificand : (significand : ℚ) ≤ 2 ^ (l.fraction + 1) - 1 := by
    have hle : (significand : ℚ) + 1 ≤ (2 ^ (l.fraction + 1) : Nat) := by
      exact_mod_cast h.significand
    push_cast at hle
    linarith
  have hpower : (2 : ℚ) ^ power ≤ 2 ^ ((l.emax : Int) - l.fraction - 1) :=
    zpow_le_zpow_right₀ one_le_two h.power
  have hlast : (2 : ℚ) ^ ((l.emax : Int) - l.fraction - 1) =
      2 ^ ((l.emax : Int) - l.fraction - 2) * 2 := by
    rw [← zpow_add_one₀ two_ne_zero]
    congr 1
    omega
  calc (significand : ℚ) * 2 ^ power + 2 ^ ((l.emax : Int) - l.fraction - 2)
      ≤ (2 ^ (l.fraction + 1) - 1) * 2 ^ ((l.emax : Int) - l.fraction - 1) +
          2 ^ ((l.emax : Int) - l.fraction - 2) := by
        gcongr
        exact le_trans (Nat.cast_nonneg _) hsignificand
    _ = l.overflowBound := by
        rw [overflowBound_eq hl, hlast]
        ring

end Decoding

end Layout

namespace Decimal

variable {l : Layout}

def value (d : Decimal) : ℚ :=
  d.digits * 10 ^ d.exponent

theorem value_eq_div (d : Decimal) :
    d.value =
      ((d.digits * 10 ^ d.exponent.toNat : Nat) : ℚ) / (10 ^ (-d.exponent).toNat : Nat) :=
  mul_zpow_eq_div d.digits 10 d.exponent

theorem natCast_le_value_iff (n : Nat) (d : Decimal) :
    (n : ℚ) ≤ d.value ↔ n * 10 ^ (-d.exponent).toNat ≤ d.digits * 10 ^ d.exponent.toNat := by
  have hpos : (0 : ℚ) < (10 ^ (-d.exponent).toNat : Nat) := by positivity
  rw [value_eq_div, le_div_iff₀ hpos]
  exact_mod_cast Iff.rfl

theorem lt_pow_digitCount (n : Nat) : n < 10 ^ digitCount n := by
  have hpos : 0 < digitCount n := List.length_pos_iff.mpr (Text.decimal_ne_nil n)
  exact (Nat.length_toDigits_le_iff (by decide) hpos).mp (Nat.le_refl _)

theorem pow_digitCount_le {n : Nat} (h : 0 < n) : 10 ^ (digitCount n - 1) ≤ n := by
  rcases Nat.eq_zero_or_pos (digitCount n - 1) with hone | hpos
  · rw [hone]
    exact h
  · rw [← Nat.not_lt, ← Nat.length_toDigits_le_iff (by decide) hpos]
    change ¬ digitCount n ≤ digitCount n - 1
    omega

theorem value_lt (d : Decimal) : d.value < 10 ^ (digitCount d.digits + d.exponent) := by
  have hdigits : (d.digits : ℚ) < (10 ^ digitCount d.digits : Nat) := by
    exact_mod_cast lt_pow_digitCount d.digits
  rw [value, zpow_add₀ (by norm_num), zpow_natCast]
  push_cast at hdigits
  gcongr

theorem le_value {d : Decimal} (h : 0 < d.digits) :
    10 ^ (digitCount d.digits + d.exponent - 1) ≤ d.value := by
  have hpos : 0 < digitCount d.digits := List.length_pos_iff.mpr (Text.decimal_ne_nil _)
  have hdigits : ((10 ^ (digitCount d.digits - 1) : Nat) : ℚ) ≤ d.digits := by
    exact_mod_cast pow_digitCount_le h
  have hsplit : (digitCount d.digits + d.exponent - 1 : Int) =
      ((digitCount d.digits - 1 : Nat) : Int) + d.exponent := by omega
  rw [hsplit, value, zpow_add₀ (by norm_num), zpow_natCast]
  push_cast at hdigits
  gcongr

theorem ofDecimal_le_infinity (l : Layout) (d : Decimal) : l.ofDecimal d ≤ l.infinity := by
  rw [Layout.ofDecimal]
  split
  · exact Nat.zero_le _
  split
  · exact Nat.le_refl _
  split
  · exact Nat.zero_le _
  · exact l.ofRatio_le_infinity _ _

/-- The shortcuts for very long and very short numbers do not show: a decimal rounds to infinity
as its ratio does. -/
theorem ofDecimal_eq_infinity_iff (hl : l.Regular) (d : Decimal) :
    l.ofDecimal d = l.infinity ↔ (l.overflowBound : ℚ) ≤ d.value := by
  have hinfinity := Layout.infinity_pos hl
  have hbound := Layout.overflowBound_pos hl
  have hten : (1 : ℚ) ≤ 10 := by norm_num
  have hlimit : (2 : ℚ) ^ (1024 : Int) ≤ 10 ^ (400 : Int) := by
    have heighth : (2 : ℚ) ^ 128 ≤ 10 ^ 50 := by norm_num
    have hpowers := pow_le_pow_left₀ (by positivity) heighth 8
    rw [← pow_mul, ← pow_mul] at hpowers
    exact hpowers
  rw [Layout.ofDecimal]
  split
  · rename_i hzero
    rw [value, hzero, Nat.cast_zero, zero_mul]
    exact iff_of_false (by omega) (not_le.mpr hbound)
  rename_i hdigits
  split
  · rename_i hlong
    refine iff_of_true rfl ?_
    calc (l.overflowBound : ℚ) ≤ 2 ^ (l.emax : Int) := l.overflowBound_le
      _ ≤ 2 ^ (1024 : Int) := by
        have hemax := hl.emax
        exact zpow_le_zpow_right₀ one_le_two (by omega)
      _ ≤ 10 ^ (400 : Int) := hlimit
      _ ≤ 10 ^ (digitCount d.digits + d.exponent - 1) := zpow_le_zpow_right₀ hten (by omega)
      _ ≤ d.value := le_value (by omega)
  split
  · rename_i hshort
    refine iff_of_false (by omega) (not_le.mpr ?_)
    calc d.value < 10 ^ (digitCount d.digits + d.exponent) := value_lt d
      _ ≤ 10 ^ (0 : Int) := zpow_le_zpow_right₀ hten (by omega)
      _ = 1 := zpow_zero _
      _ ≤ l.overflowBound := by exact_mod_cast hbound
  · rw [value_eq_div]
    exact Layout.ofRatio_eq_infinity_iff hl (Nat.pow_pos (by decide))

end Decimal

theorem isInfinite_round_decimal {l : Layout} (hl : l.Regular) (negative : Bool) (d : Decimal) :
    ((Numeral.decimal negative d).round l).isInfinite = true ↔
      (l.overflowBound : ℚ) ≤ d.value := by
  rw [Numeral.round, l.isInfinite_decode negative (Decimal.ofDecimal_le_infinity l d),
    Decimal.ofDecimal_eq_infinity_iff hl]

end DatasetGrid.Number
