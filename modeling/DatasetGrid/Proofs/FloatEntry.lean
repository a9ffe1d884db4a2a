import DatasetGrid.Editor.Edit
import DatasetGrid.Editor.Render
import DatasetGrid.Proofs.FloatNumerals
import Mathlib.Tactic.NormNum

/-! # Entering the text of a floating-point cell

What plain and fixed notation show never rounds past the largest finite number. Scientific notation
may: its decimal then lies half a unit past that number or further, and is refused.
-/
namespace DatasetGrid

open Number

namespace Number

/-- The decimal that scientific notation shows: one digit in front of the point and `precision`
behind it, rounded. -/
def scientificDecimal (num den precision : Nat) : Decimal :=
  let exponent := magnitude num den - 1 - precision
  let ratio := unscale10 num den exponent
  ⟨nearest ratio.1 ratio.2, exponent⟩

/-- A number that scientific notation with so many digits rounds past the range of the layout. -/
def Layout.Overshoots (l : Layout) (precision : Nat) : Datum → Prop
  | .finite _ significand power =>
    (l.overflowBound : ℚ) ≤
      (scientificDecimal (significand * 2 ^ power.toNat) (2 ^ (-power).toNat) precision).value
  | _ => False

theorem value_pointed (digits places : Nat) :
    (Decimal.mk digits (-places)).value = digits / 10 ^ places := by
  rw [Decimal.value, zpow_neg, zpow_natCast, ← div_eq_mul_inv]

theorem spells_text (d : Decimal) : ∃ e, Spells d.text e ∧ e.value = d.value := by
  refine ⟨_, .pointed _ _, ?_⟩
  rw [value_pointed, Decimal.value_eq_div]
  push_cast
  rfl

theorem nearest_zero (den : Nat) : nearest 0 den = 0 := by
  rcases nearest_cases 0 den with ⟨-, heq⟩ | ⟨hhalf, -⟩
  · rw [heq, Nat.zero_div]
  · obtain rfl : den = 0 := by
      rw [Nat.zero_mod] at hhalf
      omega
    rfl

/-- Where the digits round up to a power of ten, the text shows the same number one power higher. -/
theorem spells_scientificText (num den precision : Nat) :
    ∃ d, Spells (scientificText num den precision) d ∧
      d.value = (scientificDecimal num den precision).value := by
  by_cases hzero : num = 0
  · refine ⟨⟨0, 0 - precision⟩, ?_, ?_⟩
    · rw [scientificText, if_pos hzero]
      exact .scaled 0 precision 0
    · simp [scientificDecimal, Decimal.value, unscale10, hzero, nearest_zero]
  have htext : scientificText num den precision =
      if (scientificDecimal num den precision).digits = 10 ^ (precision + 1) then
        withPoint (Text.decimal (10 ^ precision)) precision ++
          'e' :: Text.signedDecimal (magnitude num den - 1 + 1)
      else withPoint (Text.decimal (scientificDecimal num den precision).digits) precision ++
        'e' :: Text.signedDecimal (magnitude num den - 1) := if_neg hzero
  have hexponent : (scientificDecimal num den precision).exponent =
      magnitude num den - 1 - precision := rfl
  rw [htext]
  split
  · rename_i hdigits
    refine ⟨_, .scaled _ _ _, ?_⟩
    rw [Decimal.value, Decimal.value, hdigits, hexponent, pow_succ, Nat.cast_mul, mul_assoc,
      add_sub_right_comm, zpow_add_one₀ (by norm_num), mul_comm (10 ^ _ : ℚ) 10]
    rfl
  · exact ⟨_, .scaled _ _ _, rfl⟩

theorem nearest_le_add_half (num : Nat) {den : Nat} (hden : 0 < den) :
    (nearest num den : ℚ) ≤ num / den + 1 / 2 := by
  have hpos : (0 : ℚ) < den := by exact_mod_cast hden
  have hle : (2 : ℚ) * (nearest num den * den) ≤ 2 * num + den := by
    exact_mod_cast two_mul_nearest_le num den
  rw [div_add_div _ _ hpos.ne' two_ne_zero, le_div_iff₀ (by positivity)]
  linarith

namespace Interval

variable {i : Interval} {exponent : Int} {digits : Nat}

/-- Whether a point of the grid is a point of the interval. -/
def reaches (i : Interval) (exponent : Int) (digits : Nat) : Bool :=
  let unit := 2 ^ i.power.toNat * 10 ^ (-exponent).toNat
  let step := 10 ^ exponent.toNat * 2 ^ (-i.power).toNat
  if i.closed then i.low * unit ≤ digits * step && digits * step ≤ i.high * unit
  else i.low * unit < digits * step && digits * step < i.high * unit

theorem reaches_of_onGrid? (h : i.onGrid? exponent = some digits) :
    i.reaches exponent digits = true := by
  obtain ⟨below, nearAbove, hgrid⟩ : ∃ below nearAbove, i.onGrid? exponent =
      if i.reaches exponent below && !(i.reaches exponent (below + 1) && nearAbove) then some below
      else if i.reaches exponent (below + 1) then some (below + 1) else none := ⟨_, _, rfl⟩
  rw [hgrid] at h
  split at h
  · rename_i hbelow
    cases h
    exact (Bool.and_eq_true_iff.mp hbelow).1
  · split at h
    · rename_i habove
      cases h
      exact habove
    · cases h

/-- A point of the grid lies up to the upper bound of the interval, below it in an open one. -/
theorem le_high_of_onGrid? (h : i.onGrid? exponent = some digits) :
    (Decimal.mk digits exponent).value ≤ i.high * 2 ^ i.power ∧
      (i.closed = false → (Decimal.mk digits exponent).value < i.high * 2 ^ i.power) := by
  let unit := 2 ^ i.power.toNat * 10 ^ (-exponent).toNat
  let step := 10 ^ exponent.toNat * 2 ^ (-i.power).toNat
  have hholds : digits * step ≤ i.high * unit ∧
      (i.closed = false → digits * step < i.high * unit) := by
    have hreaches := reaches_of_onGrid? h
    rw [reaches] at hreaches
    split at hreaches
    · rename_i hclosed
      have hle := of_decide_eq_true (Bool.and_eq_true_iff.mp hreaches).2
      exact ⟨hle, fun hopen => by rw [hclosed] at hopen; cases hopen⟩
    · have hlt := of_decide_eq_true (Bool.and_eq_true_iff.mp hreaches).2
      exact ⟨hlt.le, fun _ => hlt⟩
  have hspan := mul_two_zpow_eq_div i.high i.power
  have hpoint := Decimal.value_eq_div ⟨digits, exponent⟩
  have hdenPower : (0 : ℚ) < (2 ^ (-i.power).toNat : Nat) := by positivity
  have hdenExponent : (0 : ℚ) < (10 ^ (-exponent).toNat : Nat) := by positivity
  have hleft : digits * 10 ^ exponent.toNat * 2 ^ (-i.power).toNat = digits * step := by
    rw [Nat.mul_assoc]
  have hright : i.high * 2 ^ i.power.toNat * 10 ^ (-exponent).toNat = i.high * unit := by
    rw [Nat.mul_assoc]
  rw [hspan, hpoint, div_le_div_iff₀ hdenExponent hdenPower, div_lt_div_iff₀ hdenExponent hdenPower]
  simp only [← Nat.cast_mul, Nat.cast_le, Nat.cast_lt, hleft, hright]
  exact hholds

/-- The shortest decimal is zero without a hit on any grid, and is worth the hit otherwise. -/
theorem shortest_cases (i : Interval) :
    i.shortest.value = 0 ∨
      ∃ digits exponent, i.onGrid? exponent = some digits ∧
        i.shortest.value = (Decimal.mk digits exponent).value := by
  unfold shortest
  simp only
  split
  · rename_i exponent hhit
    obtain ⟨n, -, hgrid⟩ := List.exists_of_findSome?_eq_some hhit
    obtain ⟨digits, hdigits, heq⟩ := Option.map_eq_some_iff.mp hgrid
    cases heq
    refine .inr ⟨10, _, hdigits, ?_⟩
    rw [Decimal.value, Decimal.value, zpow_add_one₀ (by norm_num)]
    push_cast
    ring
  · rename_i d hne hhit
    obtain ⟨n, -, hgrid⟩ := List.exists_of_findSome?_eq_some hhit
    obtain ⟨digits, hdigits, heq⟩ := Option.map_eq_some_iff.mp hgrid
    exact .inr ⟨digits, _, hdigits, by rw [← heq]⟩
  · exact .inl (by rw [Decimal.value, Nat.cast_zero, zero_mul])

end Interval

section Bounds

variable {l : Layout} {significand : Nat} {power : Int}

theorem shortest_lt (hl : l.Regular) (h : l.IsFinite significand power) :
    (l.interval significand power).shortest.value < l.overflowBound := by
  have hhigh : ((l.interval significand power).high : ℚ) *
      2 ^ (l.interval significand power).power = significand * 2 ^ power + 2 ^ (power - 1) := by
    have hhalf : (2 : ℚ) ^ power = 2 ^ (power - 1) * 2 := by
      rw [← zpow_add_one₀ two_ne_zero, sub_add_cancel]
    have hquarter : (2 : ℚ) ^ (power - 1) = 2 ^ (power - 2) * 2 := by
      rw [← zpow_add_one₀ two_ne_zero]
      congr 1
      omega
    simp only [Layout.interval]
    rw [hhalf, hquarter]
    push_cast
    ring
  rcases (l.interval significand power).shortest_cases with
    hnone | ⟨digits, exponent, hgrid, hvalue⟩
  · rw [hnone]
    exact Layout.overflowBound_pos hl
  obtain ⟨hle, hlt⟩ := Interval.le_high_of_onGrid? hgrid
  rw [hhigh] at hle hlt
  rw [hvalue]
  by_cases heven : significand % 2 = 0
  · -- The number above an even one is in range as well.
    have hnext : l.IsFinite (significand + 1) power := by
      refine ⟨?_, h.minPower, h.power⟩
      have hlimit := h.significand
      rw [pow_succ] at hlimit ⊢
      omega
    have hbound := hnext.add_half_le hl
    have hunit : (2 : ℚ) ^ (power - 1) < 2 ^ power := zpow_lt_zpow_right₀ one_lt_two (by omega)
    have hgap : (0 : ℚ) < 2 ^ ((l.emax : Int) - l.fraction - 2) := by positivity
    push_cast at hbound
    linarith
  · have hopen : (l.interval significand power).closed = false := decide_eq_false heven
    have hbound := h.add_half_le hl
    have hunit : (2 : ℚ) ^ (power - 1) ≤ 2 ^ ((l.emax : Int) - l.fraction - 2) := by
      have hpower := h.power
      exact zpow_le_zpow_right₀ one_le_two (by omega)
    have hbelow := hlt hopen
    linarith

theorem fixed_lt (hl : l.Regular) (h : l.IsFinite significand power) (decimals : Nat) :
    (Decimal.mk (nearest (significand * 2 ^ power.toNat * 10 ^ decimals) (2 ^ (-power).toNat))
      (-decimals)).value < l.overflowBound := by
  have hfraction := hl.fraction
  have hhalf : (2 : ℚ) ^ (1 : Int) ≤ 2 ^ ((l.emax : Int) - l.fraction - 2) :=
    zpow_le_zpow_right₀ one_le_two (by omega)
  have hpower : (1 : ℚ) ≤ 10 ^ decimals := one_le_pow₀ (by norm_num)
  have hbound := h.add_half_le hl
  have hden : 0 < 2 ^ (-power).toNat := Nat.pow_pos (by decide)
  have hnearest := nearest_le_add_half (significand * 2 ^ power.toNat * 10 ^ decimals) hden
  rw [Nat.cast_mul, mul_div_right_comm, ← mul_two_zpow_eq_div] at hnearest
  rw [zpow_one] at hhalf
  rw [value_pointed, div_lt_iff₀ (by positivity)]
  calc _ ≤ (significand : ℚ) * 2 ^ power * (10 ^ decimals : Nat) + 1 / 2 := hnearest
    _ < (significand * 2 ^ power + 2) * 10 ^ decimals := by
      push_cast
      linarith
    _ ≤ l.overflowBound * 10 ^ decimals := by
      gcongr
      linarith

end Bounds

/-- The text of a finite number spells a decimal, which only scientific notation may round past
the range. -/
theorem spells_magnitudeText {l : Layout} {significand : Nat} {power : Int} (hl : l.Regular)
    (h : l.IsFinite significand power) (f : NumberFormat) :
    ∃ d, Spells (f.magnitudeText l significand power) d ∧
      ((l.overflowBound : ℚ) ≤ d.value ↔
        ∃ precision, f = .scientific precision ∧
          l.Overshoots precision (.finite false significand power)) := by
  cases f with
  | plain =>
    obtain ⟨d, hspells, hvalue⟩ : ∃ d,
        Spells (NumberFormat.plain.magnitudeText l significand power) d ∧
          d.value < l.overflowBound := by
      simp only [NumberFormat.magnitudeText]
      split
      · refine ⟨_, .pointed 0 0, ?_⟩
        rw [value_pointed, Nat.cast_zero, zero_div]
        exact Layout.overflowBound_pos hl
      · obtain ⟨d, hspells, hvalue⟩ := spells_text (l.interval significand power).shortest
        exact ⟨d, hspells, hvalue ▸ shortest_lt hl h⟩
    refine ⟨d, hspells, iff_of_false (not_le.mpr hvalue) ?_⟩
    rintro ⟨_, ⟨⟩, _⟩
  | fixed decimals =>
    refine ⟨_, .pointed _ decimals, iff_of_false (not_le.mpr (fixed_lt hl h decimals)) ?_⟩
    rintro ⟨_, ⟨⟩, _⟩
  | scientific precision =>
    obtain ⟨d, hspells, hvalue⟩ := spells_scientificText (significand * 2 ^ power.toNat)
      (2 ^ (-power).toNat) precision
    refine ⟨d, hspells, ?_⟩
    rw [hvalue]
    refine ⟨fun hle => ⟨precision, rfl, hle⟩, ?_⟩
    rintro ⟨_, ⟨⟩, hle⟩
    exact hle

section Precise

variable {l : Layout} {num den : Nat}

theorem magnitude_le {digits : Nat} (hdigits : 0 < digits) (hden : 0 < den)
    (h : (num : ℚ) / den < 10 ^ digits) : magnitude num den ≤ digits := by
  have hlt : num < 10 ^ digits * den := by
    rw [div_lt_iff₀ (by exact_mod_cast hden)] at h
    exact_mod_cast h
  have hwhole : digitCount (num / den) ≤ digits := by
    rw [digitCount, Text.decimal, Nat.length_toDigits_le_iff (by decide) hdigits,
      Nat.div_lt_iff_lt_mul hden]
    exact hlt
  have hcount : 0 < digitCount (den / num) := List.length_pos_iff.mpr (Text.decimal_ne_nil _)
  rw [magnitude]
  split
  · omega
  · simp only
    split <;> omega

/-- The decimal shown passes the number by half a unit of its last digit at most. -/
theorem value_scientificDecimal_le (num : Nat) {den : Nat} (hden : 0 < den) (precision : Nat) :
    (scientificDecimal num den precision).value ≤
      num / den + 10 ^ (magnitude num den - 1 - precision) / 2 := by
  have hscaled : 0 < (unscale10 num den (magnitude num den - 1 - precision)).2 :=
    Nat.mul_pos hden (Nat.pow_pos (by decide))
  have hnearest :=
    nearest_le_add_half (unscale10 num den (magnitude num den - 1 - precision)).1 hscaled
  rw [unscale10_eq] at hnearest
  calc (scientificDecimal num den precision).value
      ≤ (num / den / 10 ^ (magnitude num den - 1 - precision) + 1 / 2) *
          10 ^ (magnitude num den - 1 - precision) :=
        mul_le_mul_of_nonneg_right hnearest (by positivity)
    _ = _ := by
      field_simp

/-- With so many digits that a unit of the last one stays below a unit of the largest numbers,
scientific notation keeps within the range. -/
theorem not_overshoots_of_precise (hl : l.Regular) {digits least precision : Nat}
    (hdigits : 0 < digits) (hrange : 2 ^ l.emax ≤ 10 ^ digits)
    (hleast : 10 ^ (digits - 1 - least) < 2 ^ (l.emax - l.fraction - 1)) (h : least ≤ precision)
    (pattern : Nat) :
    ¬ l.Overshoots precision (l.decode pattern) := by
  cases hdatum : l.decode pattern with
  | nan => exact id
  | infinite negative => exact id
  | finite negative significand power =>
    have hden : 0 < 2 ^ (-power).toNat := Nat.pow_pos (by decide)
    have hbound := (Layout.isFinite_of_decode hl hdatum).add_half_le hl
    have hhalf : (0 : ℚ) < 2 ^ ((l.emax : Int) - l.fraction - 2) := by positivity
    rw [mul_two_zpow_eq_div] at hbound
    have hmagnitude : magnitude (significand * 2 ^ power.toNat) (2 ^ (-power).toNat) ≤ digits := by
      have htop : ((2 ^ l.emax : Nat) : ℚ) ≤ (10 ^ digits : Nat) := Nat.cast_le.mpr hrange
      have hemax := l.overflowBound_le
      rw [zpow_natCast] at hemax
      push_cast at htop
      exact magnitude_le hdigits hden (by linarith)
    have hunit : (10 : ℚ) ^ (magnitude (significand * 2 ^ power.toNat) (2 ^ (-power).toNat) - 1 -
        precision) < 2 ^ ((l.emax : Int) - l.fraction - 2) * 2 :=
      calc _ ≤ (10 : ℚ) ^ ((digits - 1 - least : Nat) : Int) :=
            zpow_le_zpow_right₀ (by norm_num) (by omega)
        _ = (10 ^ (digits - 1 - least) : Nat) := by
            rw [zpow_natCast, Nat.cast_pow, Nat.cast_ofNat]
        _ < (2 ^ (l.emax - l.fraction - 1) : Nat) := Nat.cast_lt.mpr hleast
        _ = (2 : ℚ) ^ ((l.emax - l.fraction - 1 : Nat) : Int) := by
            rw [zpow_natCast, Nat.cast_pow, Nat.cast_ofNat]
        _ = 2 ^ ((l.emax : Int) - l.fraction - 2) * 2 := by
            have hfraction := hl.fraction
            rw [← zpow_add_one₀ two_ne_zero]
            congr 1
            omega
    have hshown := value_scientificDecimal_le (significand * 2 ^ power.toNat) hden precision
    rw [Layout.Overshoots, not_le]
    linarith

theorem not_overshoots_single {precision : Nat} (h : 7 ≤ precision) (pattern : Nat) :
    ¬ Layout.single.Overshoots precision (Layout.single.decode pattern) :=
  not_overshoots_of_precise Layout.regular_single (by decide : 0 < 39) (by decide) (by decide) h
    pattern

theorem not_overshoots_double {precision : Nat} (h : 16 ≤ precision) (pattern : Nat) :
    ¬ Layout.double.Overshoots precision (Layout.double.decode pattern) :=
  not_overshoots_of_precise Layout.regular_double (by decide : 0 < 309) (by decide +kernel)
    (by decide +kernel) h pattern

end Precise

end Number

/-- The number that a member shows of a stored one: four bytes show single precision. -/
def shownDatum (size : Nat) (x : Binary64) : Datum :=
  if size = 4 then x.toSingle.datum else x.datum

section Shown

variable {size : Nat} {layout : Layout} (hlayout : floatLayout? size = some layout) (x : Binary64)

include hlayout

theorem shownDatum_spec :
    (∃ pattern, shownDatum size x = layout.decode pattern) ∧
      ∀ f : NumberFormat, f.isPrintable = true →
        floatText f size (.real x) = .ofList (f.text layout (shownDatum size x)) := by
  unfold floatLayout? at hlayout
  split at hlayout
  · cases hlayout
    exact ⟨⟨_, rfl⟩, fun f hf => if_pos hf⟩
  · cases hlayout
    exact ⟨⟨_, rfl⟩, fun f hf => if_pos hf⟩
  · cases hlayout

theorem parseFloat_name {name : List Char}
    (hname : name ∈ ["NaN".toList, "inf".toList, "-inf".toList]) :
    ∃ y, parseFloat (.ofList name) size = .ok y := by
  have hread : ∃ numeral, Numeral.read? (Text.trim name) = some numeral ∧
      ¬ ((numeral.round layout).isInfinite ∧ !spellsInfinity (Text.trim name)) := by
    simp only [List.mem_cons, List.not_mem_nil, or_false] at hname
    rcases hname with rfl | rfl | rfl
    · exact ⟨.nan, by decide +kernel, fun h => Bool.false_ne_true h.1⟩
    · exact ⟨.infinite false, by decide +kernel, fun h => absurd h.2 (by decide +kernel)⟩
    · exact ⟨.infinite true, by decide +kernel, fun h => absurd h.2 (by decide +kernel)⟩
  obtain ⟨numeral, hnumeral, hfinite⟩ := hread
  refine ⟨.ofDatum (numeral.round layout), ?_⟩
  simp only [parseFloat, hlayout, String.toList_ofList, hnumeral]
  exact if_neg hfinite

theorem parseFloat_floatText {f : NumberFormat} (hf : f.isPrintable = true) :
    (¬ (∃ precision, f = .scientific precision ∧
        layout.Overshoots precision (shownDatum size x)) →
      ∃ y, parseFloat (floatText f size (.real x)) size = .ok y) ∧
    ∀ precision, f = .scientific precision → layout.Overshoots precision (shownDatum size x) →
      parseFloat (floatText f size (.real x)) size =
        .error (.floatOverflow (floatText f size (.real x)) (size * 8)) := by
  obtain ⟨⟨pattern, hpattern⟩, htext⟩ := shownDatum_spec hlayout x
  rw [htext f hf]
  cases hdatum : shownDatum size x with
  | nan =>
    have hname : "NaN".toList ∈ ["NaN".toList, "inf".toList, "-inf".toList] := by decide
    exact ⟨fun _ => parseFloat_name hlayout hname, fun _ _ => False.elim⟩
  | infinite negative =>
    have hname : (if negative then ['-'] else []) ++ "inf".toList ∈
        ["NaN".toList, "inf".toList, "-inf".toList] := by
      cases negative <;> decide
    exact ⟨fun _ => parseFloat_name hlayout hname, fun _ _ => False.elim⟩
  | finite negative significand power =>
    have hl := regular_of_floatLayout? hlayout
    have hfinite := Layout.isFinite_of_decode hl (hpattern.symm.trans hdatum)
    obtain ⟨d, hspells, hpast⟩ := spells_magnitudeText hl hfinite f
    have hparse := parseFloat_of_spells hlayout negative hspells rfl
    refine ⟨fun h => ⟨_, hparse.trans (if_neg fun hle => h (hpast.mp hle))⟩, ?_⟩
    exact fun precision hf h => hparse.trans (if_pos (hpast.mpr ⟨precision, hf, h⟩))

/-- Seven digits behind the point keep single precision in range, sixteen double precision. -/
theorem not_overshoots_shownDatum {precision : Nat} (h : (if size = 4 then 7 else 16) ≤ precision) :
    ¬ layout.Overshoots precision (shownDatum size x) := by
  obtain ⟨⟨pattern, hpattern⟩, -⟩ := shownDatum_spec hlayout x
  rw [hpattern]
  unfold floatLayout? at hlayout
  split at hlayout
  · cases hlayout
    exact not_overshoots_single h pattern
  · cases hlayout
    exact not_overshoots_double h pattern
  · cases hlayout

end Shown

/-- A floating-point cell takes its own text in every format that can be printed, unless scientific
notation rounds its number past the range of the member; with enough digits it never does. -/
theorem float_accepts_shown {size : Nat} {layout : Layout}
    (hlayout : floatLayout? size = some layout) (x : Binary64) {σ : Type} (d : Display σ)
    (hformat : d.format.isPrintable = true) (state : σ) :
    let editor := Editor.scalar (.float size)
    let text := ((editor.render d 0 (.real x)).run state).1
    ((∀ precision, d.format ≠ .scientific precision) → editor.check 0 text = .ok ()) ∧
    ∀ precision, d.format = .scientific precision →
      (¬ layout.Overshoots precision (shownDatum size x) → editor.check 0 text = .ok ()) ∧
      (layout.Overshoots precision (shownDatum size x) →
        editor.check 0 text = .error (.floatOverflow text (size * 8))) ∧
      ((if size = 4 then 7 else 16) ≤ precision →
        ¬ layout.Overshoots precision (shownDatum size x)) := by
  intro editor text
  have hcheck : editor.check 0 text = ((parseFloat text size).map Cell.real).map fun _ => () := rfl
  have htext : text = floatText d.format size (.real x) := rfl
  obtain ⟨haccepts, hrefuses⟩ := parseFloat_floatText hlayout x hformat
  rw [← htext] at haccepts hrefuses
  have hok (h : ¬ ∃ precision, d.format = .scientific precision ∧
      layout.Overshoots precision (shownDatum size x)) : editor.check 0 text = .ok () := by
    obtain ⟨y, hparse⟩ := haccepts h
    rw [hcheck, hparse]
    rfl
  refine ⟨fun hkind => hok ?_, fun precision hkind => ⟨fun h => hok ?_, fun h => ?_, ?_⟩⟩
  · rintro ⟨precision, hscientific, -⟩
    exact hkind precision hscientific
  · rintro ⟨other, hother, hpast⟩
    obtain rfl : precision = other := by
      rw [hkind] at hother
      cases hother
      rfl
    exact h hpast
  · rw [hcheck, hrefuses precision hkind h]
    rfl
  · exact not_overshoots_shownDatum hlayout x

/-- The largest double keeps within the range with sixteen digits behind the point, and leaves it
with fifteen. With the most decimals that can be printed it is taken, too. -/
theorem float_accepts_shown_largest :
    let editor := Editor.scalar (.float 8)
    let display (format : NumberFormat) : Display Unit := ⟨format, none⟩
    let text (format : NumberFormat) :=
      ((editor.render (display format) 0 (.real ⟨0x7FEFFFFFFFFFFFFF⟩)).run ()).1
    floatLayout? 8 = some .double ∧
    (display (.fixed 65535)).format.isPrintable = true ∧
    editor.check 0 (text (.fixed 65535)) = .ok () ∧
    editor.check 0 (text (.scientific 16)) = .ok () ∧
    editor.check 0 (text (.scientific 15)) =
      .error (.floatOverflow "1.797693134862316e308" 64) := by
  intro editor display text
  have hlayout : floatLayout? 8 = some .double := rfl
  have hshown (format : NumberFormat) (hformat : format.isPrintable = true) :=
    float_accepts_shown hlayout ⟨0x7FEFFFFFFFFFFFFF⟩ (display format) hformat ()
  have hdatum : shownDatum 8 ⟨0x7FEFFFFFFFFFFFFF⟩ = .finite false (2 ^ 53 - 1) 971 := by
    decide +kernel
  refine ⟨hlayout, rfl, (hshown (.fixed 65535) rfl).1 (fun _ h => by cases h), ?_, ?_⟩
  · obtain ⟨haccepts, -, hprecise⟩ := (hshown (.scientific 16) rfl).2 16 rfl
    exact haccepts (hprecise (by decide))
  · obtain ⟨-, hrefuses, -⟩ := (hshown (.scientific 15) rfl).2 15 rfl
    have htext : text (.scientific 15) = "1.797693134862316e308" := by decide +kernel
    rw [hdatum, Layout.Overshoots, Decimal.natCast_le_value_iff] at hrefuses
    rw [← htext]
    exact hrefuses (by decide +kernel)

/-- The largest double shown with one digit is twice a power of ten, which no double reaches. -/
theorem float_refuses_shown :
    let editor := Editor.scalar (.float 8)
    ((editor.render ⟨.scientific 0, (none : Option (Converter Unit))⟩ 0
      (.real ⟨0x7FEFFFFFFFFFFFFF⟩)).run ()).1 = "2e308" ∧
    editor.check 0 "2e308" = .error (.floatOverflow "2e308" 64) :=
  ⟨by decide +kernel, by decide +kernel⟩

end DatasetGrid
