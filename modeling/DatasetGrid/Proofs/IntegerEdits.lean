import DatasetGrid.Proofs.NumberCells

/-! # Edits of integers

A numeral is an optional sign and decimal digits, of any length. Whatever integer it denotes, an
edit takes it exactly when it lies in the range of the type, and says otherwise whether a sign or
the range is broken. The 128 bits within which a numeral is read do not show in the answer.
-/
namespace DatasetGrid

namespace Text

def IsDecimal (ds : List Char) : Prop :=
  ds ≠ [] ∧ ∀ c ∈ ds, c.isDigit = true

/-- The text is an integer numeral, and denotes this integer. -/
inductive Denotes : List Char → Int → Prop
  | bare (ds : List Char) : IsDecimal ds → Denotes ds (Nat.ofDigitChars 10 ds 0)
  | plus (ds : List Char) : IsDecimal ds → Denotes ('+' :: ds) (Nat.ofDigitChars 10 ds 0)
  | minus (ds : List Char) : IsDecimal ds → Denotes ('-' :: ds) (-Nat.ofDigitChars 10 ds 0)

theorem isDigit_of_digitOf_ten {c : Char} (h : (digitOf 10 c).isSome = true) :
    c.isDigit = true := by
  rw [Char.isDigit_iff_toNat]
  simp only [digitOf, Char.le_def, UInt32.le_iff_toNat_le] at h
  split at h
  · rename_i hdigit
    exact hdigit
  · -- Letters count from ten on, so that none of them is below the radix.
    split at h
    · rw [if_neg (by omega)] at h
      cases h
    · split at h
      · rw [if_neg (by omega)] at h
        cases h
      · rw [if_neg (by omega)] at h
        cases h

theorem areDigits_ten_iff {ds : List Char} : areDigits 10 ds = true ↔ IsDecimal ds := by
  simp only [areDigits, IsDecimal, Bool.and_eq_true, Bool.not_eq_true', List.isEmpty_eq_false_iff,
    List.all_eq_true]
  refine and_congr_right fun _ => forall₂_congr fun c _ => ⟨isDigit_of_digitOf_ten, fun h => ?_⟩
  rw [digitOf_ten h]
  rfl

theorem readDigits_decimalDigits {ds : List Char} (h : IsDecimal ds) (limit : Nat) :
    readDigits 10 limit ds =
      if Nat.ofDigitChars 10 ds 0 ≤ limit then .value (Nat.ofDigitChars 10 ds 0)
      else .overflow := by
  rw [readDigits_eq (by decide) (areDigits_ten_iff.mpr h), digitsValue_ten h.2]

theorem digits_of_readOnto {radix limit acc n : Nat} {cs : List Char}
    (h : readOnto radix limit acc cs = .value n) :
    (cs.all fun c => (digitOf radix c).isSome) = true := by
  induction cs generalizing acc with
  | nil => rfl
  | cons c rest ih =>
    rw [readOnto] at h
    split at h
    · cases h
    · rename_i d hd
      split at h
      · rw [List.all_cons, hd, ih h]
        rfl
      · cases h

theorem areDigits_of_readDigits {radix limit n : Nat} {cs : List Char}
    (h : readDigits radix limit cs = .value n) : areDigits radix cs = true := by
  cases cs with
  | nil => cases h
  | cons c rest => exact digits_of_readOnto h

theorem isDecimal_of_readDigits {limit n : Nat} {ds : List Char}
    (h : readDigits 10 limit ds = .value n) :
    IsDecimal ds ∧ n = Nat.ofDigitChars 10 ds 0 := by
  have hdigits := areDigits_ten_iff.mp (areDigits_of_readDigits h)
  rw [readDigits_decimalDigits hdigits] at h
  split at h
  · cases h
    exact ⟨hdigits, rfl⟩
  · cases h

theorem IsDecimal.head?_ne {ds : List Char} (h : IsDecimal ds) {c : Char}
    (hc : c.isDigit = false) : ds.head? ≠ some c := by
  intro hhead
  rw [h.2 c (List.mem_of_mem_head? hhead)] at hc
  cases hc

/-- Digits without a minus sign, up to the greatest integer of 128 bits. -/
def readPositive (ds : List Char) : IntegerReading :=
  match readDigits 10 (2 ^ 127 - 1) ds with
  | .value n => .value n
  | .overflow => .tooLarge
  | .malformed => .malformed

theorem readInteger_of_head?_ne {cs : List Char} (h : cs.head? ≠ some '-') :
    readInteger cs = readPositive (if cs.head? = some '+' then cs.tail else cs) := by
  cases cs with
  | nil => rfl
  | cons c rest =>
    rw [readInteger]
    · rfl
    · rintro digits ⟨⟩
      exact h rfl

theorem readPositive_decimalDigits {ds : List Char} (h : IsDecimal ds) :
    readPositive ds =
      if Nat.ofDigitChars 10 ds 0 ≤ 2 ^ 127 - 1 then .value (Nat.ofDigitChars 10 ds 0)
      else .tooLarge := by
  rw [readPositive, readDigits_decimalDigits h]
  by_cases hfits : Nat.ofDigitChars 10 ds 0 ≤ 2 ^ 127 - 1
  · rw [if_pos hfits, if_pos hfits]
  · rw [if_neg hfits, if_neg hfits]

/-- A numeral past 128 bits counts by its sign alone. -/
theorem readInteger_of_denotes {cs : List Char} {n : Int} (h : Denotes cs n) :
    readInteger cs =
      if n < -2 ^ 127 then .tooSmall else if 2 ^ 127 - 1 < n then .tooLarge else .value n := by
  have hpositive (ds : List Char) (hds : IsDecimal ds) :
      readPositive ds =
        if (Nat.ofDigitChars 10 ds 0 : Int) < -2 ^ 127 then .tooSmall
        else if 2 ^ 127 - 1 < (Nat.ofDigitChars 10 ds 0 : Int) then .tooLarge
        else .value (Nat.ofDigitChars 10 ds 0) := by
    rw [readPositive_decimalDigits hds]
    by_cases hfits : Nat.ofDigitChars 10 ds 0 ≤ 2 ^ 127 - 1
    · rw [if_pos hfits, if_neg (by omega), if_neg (by omega)]
    · rw [if_neg hfits, if_neg (by omega), if_pos (by omega)]
  cases h with
  | bare ds hds =>
    rw [readInteger_of_head?_ne (hds.head?_ne (by decide)), if_neg (hds.head?_ne (by decide))]
    exact hpositive cs hds
  | plus ds hds =>
    rw [readInteger_of_head?_ne (by simp)]
    exact hpositive ds hds
  | minus ds hds =>
    rw [readInteger, readDigits_decimalDigits hds]
    by_cases hfits : Nat.ofDigitChars 10 ds 0 ≤ 2 ^ 127
    · rw [if_pos hfits, if_neg (by omega), if_neg (by omega)]
    · rw [if_neg hfits, if_pos (by omega)]

theorem denotes_of_readInteger {cs : List Char} {n : Int} (h : readInteger cs = .value n) :
    Denotes cs n := by
  by_cases hminus : cs.head? = some '-'
  · obtain ⟨ds, rfl⟩ := List.head?_eq_some_iff.mp hminus
    rw [readInteger] at h
    split at h
    · rename_i m hread
      cases h
      obtain ⟨hds, rfl⟩ := isDecimal_of_readDigits hread
      exact .minus ds hds
    · cases h
    · cases h
  · rw [readInteger_of_head?_ne hminus, readPositive] at h
    split at h
    · rename_i m hread
      cases h
      obtain ⟨hds, rfl⟩ := isDecimal_of_readDigits hread
      by_cases hplus : cs.head? = some '+'
      · obtain ⟨ds, rfl⟩ := List.head?_eq_some_iff.mp hplus
        exact .plus ds hds
      · rw [if_neg hplus] at hds ⊢
        exact .bare cs hds
    · cases h
    · cases h

end Text

open Text

theorem parseInteger_of_denotes {text : String} {type : IntegerType} {n min max : Int}
    (expected : String) (hrange : type.range? = some (min, max))
    (h : Denotes (trim text.toList) n) :
    parseInteger text type expected =
      if min ≤ n ∧ n ≤ max then .ok n
      else if type.signed = false ∧ n < 0 then .error (.negativeUnsigned text)
      else .error (.outOfRange text min max) := by
  rcases IntegerType.range?_bounds hrange with ⟨hleast, hgreatest, hunsigned⟩
  have hread := readInteger_of_denotes h
  -- Past 128 bits the numeral is past the range as well, and on the same side.
  by_cases hsmall : n < -2 ^ 127
  · have hout : ¬ (min ≤ n ∧ n ≤ max) := by omega
    have hneg : n < 0 := by omega
    rw [if_pos hsmall] at hread
    simp only [parseInteger, hrange, hread, if_neg hout]
    cases type.signed <;> simp [hneg]
  · rw [if_neg hsmall] at hread
    by_cases hlarge : 2 ^ 127 - 1 < n
    · have hout : ¬ (min ≤ n ∧ n ≤ max) := by omega
      have hneg : ¬ n < 0 := by omega
      rw [if_pos hlarge] at hread
      simp only [parseInteger, hrange, hread, if_neg hout, hneg, and_false, if_false]
    · rw [if_neg hlarge] at hread
      simp only [parseInteger, hrange, hread, Bool.not_eq_true']
      by_cases hnegative : type.signed = false ∧ n < 0
      · have hzero := hunsigned hnegative.1
        have hout : ¬ (min ≤ n ∧ n ≤ max) := by omega
        rw [if_pos hnegative, if_neg hout, if_pos hnegative]
      · rw [if_neg hnegative, if_neg hnegative]
        by_cases hin : min ≤ n ∧ n ≤ max
        · rw [if_pos hin, if_neg (by omega)]
        · rw [if_neg hin, if_pos (by omega)]

theorem denotes_of_parseInteger {text expected : String} {type : IntegerType} {n : Int}
    (h : parseInteger text type expected = .ok n) : Denotes (trim text.toList) n := by
  rw [parseInteger] at h
  split at h
  · cases h
  · split at h
    · cases h
    · cases h
    · cases h
    · rename_i hread
      split at h
      · cases h
      · split at h
        · cases h
        · cases h
          exact denotes_of_readInteger hread

/-- An integer of a size that is edited takes the numerals in its range and nothing else. Every
other numeral is refused for its sign, where the type has none, or for the range, however far it
lies outside. -/
theorem parseInteger_classifies (text : String) (type : IntegerType) (expected : String) :
    (type.size ∉ [1, 2, 4, 8] →
      parseInteger text type expected = .error (.unsupportedSize type.size)) ∧
    (type.size ∈ [1, 2, 4, 8] → ∃ min max, type.range? = some (min, max) ∧
      (∀ n, Denotes (trim text.toList) n →
        parseInteger text type expected =
          if min ≤ n ∧ n ≤ max then .ok n
          else if type.signed = false ∧ n < 0 then .error (.negativeUnsigned text)
          else .error (.outOfRange text min max)) ∧
      ∀ n, parseInteger text type expected = .ok n → Denotes (trim text.toList) n) := by
  constructor
  · intro hsize
    have hrange : type.range? = none := by
      rw [IntegerType.range?, if_neg (by simpa using hsize)]
    simp only [parseInteger, hrange]
  · intro hsize
    obtain ⟨min, max, hrange⟩ : ∃ min max, type.range? = some (min, max) := by
      rw [IntegerType.range?, if_pos (by simpa using hsize)]
      split <;> exact ⟨_, _, rfl⟩
    refine ⟨min, max, hrange, fun n hn => ?_, fun n hread => ?_⟩
    · exact parseInteger_of_denotes expected hrange hn
    · exact denotes_of_parseInteger hread

/-- One below the least integer of 128 bits, with zeros in front. -/
def farText : String := " -00170141183460469231731687303715884105729\n"

/-- Minus zero is no negative number. -/
theorem parseInteger_classifies_far :
    Denotes (trim farText.toList) (-170141183460469231731687303715884105729) ∧
    parseInteger farText ⟨8, true⟩ "integer" = .error (.outOfRange farText (-2 ^ 63) (2 ^ 63 - 1)) ∧
    parseInteger farText ⟨2, false⟩ "integer" = .error (.negativeUnsigned farText) ∧
    parseInteger farText ⟨3, true⟩ "integer" = .error (.unsupportedSize 3) ∧
    parseInteger "-0" ⟨1, false⟩ "integer" = .ok 0 ∧ Denotes (trim "-0".toList) 0 := by
  have htrim : trim farText.toList = '-' :: "00170141183460469231731687303715884105729".toList := by
    decide +kernel
  have hdenotes : Denotes (trim farText.toList) (-170141183460469231731687303715884105729) := by
    have hdigits : "00170141183460469231731687303715884105729".toList.all Char.isDigit = true := by
      decide +kernel
    rw [htrim]
    exact .minus _ ⟨by decide +kernel, List.all_eq_true.mp hdigits⟩
  obtain ⟨_, _, hlong, hclassifies, -⟩ :=
    (parseInteger_classifies farText ⟨8, true⟩ "integer").2 (by decide)
  cases hlong
  obtain ⟨_, _, hshort, hnegative, -⟩ :=
    (parseInteger_classifies farText ⟨2, false⟩ "integer").2 (by decide)
  cases hshort
  have hsize := (parseInteger_classifies farText ⟨3, true⟩ "integer").1 (by decide)
  have hzero : parseInteger "-0" ⟨1, false⟩ "integer" = .ok 0 := by rfl
  obtain ⟨_, _, -, -, honly⟩ := (parseInteger_classifies "-0" ⟨1, false⟩ "integer").2 (by decide)
  exact ⟨hdenotes, hclassifies _ hdenotes, hnegative _ hdenotes, hsize, hzero, honly 0 hzero⟩

end DatasetGrid
