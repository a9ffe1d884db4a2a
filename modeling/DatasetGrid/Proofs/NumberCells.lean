import DatasetGrid.Proofs.WellTyped
import DatasetGrid.Scalar.Address
import DatasetGrid.Scalar.Character

/-! # Cells of integers, characters and references

Each shows by a text that reads as the value it shows.
-/
namespace DatasetGrid

open Text

theorem isBlank_of_isDigit {c : Char} (h : c.isDigit = true) : isBlank c = false := by
  have hrange := Char.isDigit_iff_toNat.mp h
  simp only [Char.reduceToNat] at hrange
  simp only [isBlank, blankRanges, List.any_cons, List.any_nil, Bool.or_false,
    Bool.or_eq_false_iff, Bool.and_eq_false_iff, decide_eq_false_iff_not]
  omega

/-- Only capitals have another small form. -/
theorem toLower_of_not_capital {c : Char} (h : c.toNat < 65 ∨ 90 < c.toNat) : c.toLower = c := by
  delta Char.toLower
  rw [dif_neg]
  rintro ⟨hlow, hhigh⟩
  rw [ge_iff_le, UInt32.le_iff_toNat_le] at hlow
  rw [UInt32.le_iff_toNat_le] at hhigh
  have hlow' : 65 ≤ c.toNat := hlow
  have hhigh' : c.toNat ≤ 90 := hhigh
  omega

theorem isDelimiter_of_isDigit {c : Char} (h : c.isDigit = true) :
    Token.isDelimiter c = false ∧ c ≠ '(' := by
  have hne (d : Char) (hd : d.isDigit = false) : c ≠ d := by
    rintro rfl
    rw [h] at hd
    cases hd
  refine ⟨?_, hne '(' (by decide)⟩
  rw [Token.isDelimiter, isBlank_of_isDigit h, Bool.false_or]
  simp only [List.contains_eq_mem, List.mem_cons, List.not_mem_nil, or_false,
    decide_eq_false_iff_not, not_or]
  exact ⟨hne _ (by decide), hne _ (by decide), hne _ (by decide), hne _ (by decide)⟩

theorem isWord_decimal (n : Nat) : Token.isWord (decimal n) = true := by
  simp only [Token.isWord, Bool.and_eq_true, Bool.not_eq_true', List.isEmpty_eq_false_iff,
    List.all_eq_true, bne_iff_ne]
  exact ⟨decimal_ne_nil n, fun c hc => isDelimiter_of_isDigit (isDigit_of_mem_decimal hc)⟩

theorem isWord_signedDecimal (n : Int) : Token.isWord (signedDecimal n) = true := by
  have hword := isWord_decimal n.natAbs
  rw [signedDecimal]
  split
  · simp only [Token.isWord, Bool.and_eq_true, List.all_cons] at hword ⊢
    exact ⟨rfl, by decide, hword.2⟩
  · exact hword

theorem trim_of_isWord {cs : List Char} (h : Token.isWord cs = true) : trim cs = cs := by
  apply trim_of_forall
  intro c hc
  simp only [Token.isWord, Bool.and_eq_true, List.all_eq_true, Bool.not_eq_true',
    Token.isDelimiter, Bool.or_eq_false_iff] at h
  exact (h.2 c hc).1.1

theorem signedDecimal_natCast (n : Nat) : signedDecimal n = decimal n := by
  rw [signedDecimal, if_neg (by omega), Int.natAbs_natCast]

theorem ofInt_toNat (n : UInt64) : UInt64.ofInt n.toNat = n := by
  have hlt := n.toNat_lt
  have hmod : ((n.toNat : Int) % 2 ^ 64).toNat = n.toNat := by omega
  rw [UInt64.ofInt, hmod, UInt64.ofNat_toNat]

theorem toInt_toInt64 {n : UInt64} (h : n.toNat < 2 ^ 63) : n.toInt64.toInt = n.toNat := by
  have hbits : n.toInt64.toInt = n.toBitVec.toInt := rfl
  have hnat : n.toBitVec.toNat = n.toNat := rfl
  rw [hbits, BitVec.toInt_eq_toNat_of_lt (by omega), hnat]

namespace IntegerType

variable {type : IntegerType} {min max : Int}

/-- A range lies within the words that store its integers. -/
theorem range?_words (h : type.range? = some (min, max)) :
    if type.signed then -2 ^ 63 ≤ min ∧ max ≤ 2 ^ 63 - 1 else min = 0 ∧ max ≤ 2 ^ 64 - 1 := by
  rw [range?] at h
  split at h
  · rename_i hsize
    split at h
    · rename_i hsigned
      cases h
      rcases hsize with hsize | hsize | hsize | hsize <;> simp [hsize, hsigned]
    · rename_i hunsigned
      cases h
      rcases hsize with hsize | hsize | hsize | hsize <;> simp [hsize, hunsigned]
  · cases h

theorem range?_bounds (h : type.range? = some (min, max)) :
    -2 ^ 127 ≤ min ∧ max ≤ 2 ^ 127 - 1 ∧ (type.signed = false → min = 0) := by
  have hwords := range?_words h
  split at hwords
  · rename_i hsigned
    exact ⟨by omega, by omega, fun hunsigned => by rw [hunsigned] at hsigned; cases hsigned⟩
  · exact ⟨by omega, by omega, fun _ => hwords.1⟩

theorem signed_of_holds_int {n : Int64} (h : type.holds (.int n) = true) : type.signed = true := by
  rcases hrange : type.range? with _ | ⟨min, max⟩
  · simp [holds, hrange] at h
  · simp only [holds, hrange, Bool.and_eq_true] at h
    exact h.1.1

theorem unsigned_of_holds_uint {n : UInt64} (h : type.holds (.uint n) = true) :
    type.signed = false := by
  rcases hrange : type.range? with _ | ⟨min, max⟩
  · simp [holds, hrange] at h
  · simp only [holds, hrange, Bool.and_eq_true, Bool.not_eq_true'] at h
    exact h.1

/-- A value in an integer type is the stored form of the integer that its text spells. -/
theorem exists_of_holds {value : Cell} (h : type.holds value = true) :
    ∃ n min max, type.range? = some (min, max) ∧ min ≤ n ∧ n ≤ max ∧
      value = integerCell type.signed n ∧
      integerText type value = .ofList (signedDecimal n) := by
  rcases hrange : type.range? with _ | ⟨min, max⟩
  · simp [holds, hrange] at h
  cases value with
  | int n =>
    simp only [holds, hrange, Bool.and_eq_true, decide_eq_true_eq] at h
    rcases h with ⟨⟨hsigned, hmin⟩, hmax⟩
    refine ⟨n.toInt, min, max, rfl, hmin, hmax, ?_, ?_⟩
    · rw [integerCell, if_pos hsigned, Int64.ofInt_toInt]
    · simp [integerText, integerText?, hsigned]
  | uint n =>
    simp only [holds, hrange, Bool.and_eq_true, Bool.not_eq_true', decide_eq_true_eq] at h
    rcases h with ⟨hunsigned, hmax⟩
    refine ⟨n.toNat, min, max, rfl, ?_, hmax, ?_, ?_⟩
    · rw [(range?_bounds hrange).2.2 hunsigned]
      exact Int.natCast_nonneg _
    · rw [integerCell, hunsigned, ofInt_toNat]
      rfl
    · rw [signedDecimal_natCast]
      rfl
  | _ => simp [holds, hrange] at h

end IntegerType

theorem parseInteger_signedDecimal {type : IntegerType} {n min max : Int} (expected : String)
    (hrange : type.range? = some (min, max)) (hmin : min ≤ n) (hmax : n ≤ max) :
    parseInteger (.ofList (signedDecimal n)) type expected = .ok n := by
  rcases IntegerType.range?_bounds hrange with ⟨hleast, hgreatest, hunsigned⟩
  have hread : readInteger (signedDecimal n) = .value n :=
    readInteger_signedDecimal (by omega) (by omega)
  have hsign : ¬ (!type.signed ∧ n < 0) := by
    rintro ⟨hsign, hneg⟩
    have hzero := hunsigned (by simpa using hsign)
    omega
  simp only [parseInteger, hrange, String.toList_ofList, trim_of_isWord (isWord_signedDecimal n),
    hread]
  rw [if_neg hsign, if_neg (by omega)]

theorem parseInteger_integerText {type : IntegerType} {value : Cell} (expected : String)
    (h : type.holds value = true) :
    (parseInteger (integerText type value) type expected).map (integerCell type.signed) =
      .ok value := by
  rcases IntegerType.exists_of_holds h with ⟨n, min, max, hrange, hmin, hmax, hvalue, htext⟩
  rw [htext, parseInteger_signedDecimal expected hrange hmin hmax, hvalue]
  rfl

section IntegerText

variable {type : IntegerType} {value : Cell}

theorem isNumeral_integerText (h : type.holds value = true) :
    isNumeral (integerText type value).toList = true := by
  rcases IntegerType.exists_of_holds h with ⟨n, -, -, -, -, -, -, htext⟩
  rw [htext, String.toList_ofList, isNumeral_signedDecimal]

theorem isWord_integerText (h : type.holds value = true) :
    Token.isWord (integerText type value).toList = true := by
  rcases IntegerType.exists_of_holds h with ⟨n, -, -, -, -, -, -, htext⟩
  rw [htext, String.toList_ofList]
  exact isWord_signedDecimal n

theorem trim_integerText (h : type.holds value = true) :
    trim (integerText type value).toList = (integerText type value).toList :=
  trim_of_isWord (isWord_integerText h)

end IntegerText

/-- Numerals of characters are codes: a single digit among them is not itself. -/
theorem parseCharacter_signedDecimal {signed : Bool} (n : Int) :
    parseCharacter signed (.ofList (signedDecimal n)) =
      parseCharacterCode signed (.ofList (signedDecimal n)) := by
  rw [parseCharacter, String.toList_ofList]
  split
  · rename_i c hchars
    rw [if_pos]
    rw [signedDecimal] at hchars
    split at hchars
    · simp [decimal_ne_nil] at hchars
    · exact isDigit_of_mem_decimal (hchars ▸ List.mem_cons_self)
  · rfl

theorem parseCharacterCode_signedDecimal {signed : Bool} {n min max : Int}
    (hrange : IntegerType.range? ⟨1, signed⟩ = some (min, max)) (hmin : min ≤ n) (hmax : n ≤ max) :
    parseCharacterCode signed (.ofList (signedDecimal n)) = .ok n := by
  rw [parseCharacterCode, parseInteger_signedDecimal _ hrange hmin hmax]
  rfl

/-- The codes that show as themselves, tried one by one. -/
theorem showsAsItself_spec : ∀ code < 0x7F, showsAsItself code = true →
    (Char.ofNat code).isDigit = false ∧ (Char.ofNat code).toNat = code ∧
      Token.isWord [Char.ofNat code] = true := by
  decide

theorem showsAsItself_lt {code : Nat} (h : showsAsItself code = true) : code < 0x7F := by
  simp only [showsAsItself, Bool.and_eq_true, decide_eq_true_eq] at h
  omega

theorem characterCode?_integerCell {signed : Bool} {n min max : Int}
    (hrange : IntegerType.range? ⟨1, signed⟩ = some (min, max)) (hmin : min ≤ n) (hmax : n ≤ max) :
    characterCode? signed (integerCell signed n) = if n < 0 then none else some n.toNat := by
  cases signed with
  | true =>
    have hbyte : IntegerType.range? ⟨1, true⟩ = some (-128, 127) := rfl
    rw [hbyte] at hrange
    cases hrange
    have hn : (Int64.ofInt n).toInt = n := Int64.toInt_ofInt_of_le (by omega) (by omega)
    simp only [integerCell, if_true, characterCode?, Bool.not_true, Bool.false_eq_true, if_false,
      hn]
    by_cases hneg : n < 0
    · rw [if_pos hneg, if_neg (by omega)]
    · rw [if_neg hneg, if_pos (by omega)]
  | false =>
    have hbyte : IntegerType.range? ⟨1, false⟩ = some (0, 255) := rfl
    rw [hbyte] at hrange
    cases hrange
    have hn : (UInt64.ofInt n).toNat = n.toNat := by
      rw [UInt64.ofInt, UInt64.toNat_ofNat']
      omega
    simp only [integerCell, Bool.false_eq_true, if_false, characterCode?, hn]
    rw [if_neg (by omega)]

/-- The text of a character is the numeral of its code or the character itself. -/
theorem characterText_integerCell {signed : Bool} {n min max : Int}
    (hrange : IntegerType.range? ⟨1, signed⟩ = some (min, max)) (hmin : min ≤ n) (hmax : n ≤ max)
    (hnumeral : integerText ⟨1, signed⟩ (integerCell signed n) = .ofList (signedDecimal n)) :
    characterText signed (integerCell signed n) = .ofList (signedDecimal n) ∨
      ∃ code : Nat, n = code ∧ showsAsItself code = true ∧
        characterText signed (integerCell signed n) = .ofList [Char.ofNat code] := by
  rw [characterText, characterCode?_integerCell hrange hmin hmax]
  by_cases hneg : n < 0
  · rw [if_pos hneg]
    exact .inl hnumeral
  · have hn : n = n.toNat := by omega
    rw [if_neg hneg]
    dsimp only
    by_cases hitself : showsAsItself n.toNat = true
    · rw [if_pos hitself]
      exact .inr ⟨n.toNat, hn, hitself, rfl⟩
    · rw [if_neg hitself, hn, signedDecimal_natCast, Int.toNat_natCast, ← hn]
      split
      · exact .inl rfl
      · rw [hnumeral, hn, signedDecimal_natCast]
        exact .inl rfl

theorem parseCharacter_characterText {signed : Bool} {value : Cell}
    (h : IntegerType.holds ⟨1, signed⟩ value = true) :
    Token.isWord (characterText signed value).toList = true ∧
      (parseCharacter signed (characterText signed value)).map (integerCell signed) =
        .ok value := by
  rcases IntegerType.exists_of_holds h with ⟨n, min, max, hrange, hmin, hmax, rfl, htext⟩
  rcases characterText_integerCell hrange hmin hmax htext with hshown | ⟨code, hn, hitself, hshown⟩
  · rw [hshown, parseCharacter_signedDecimal, parseCharacterCode_signedDecimal hrange hmin hmax,
      String.toList_ofList]
    exact ⟨isWord_signedDecimal n, rfl⟩
  · rcases showsAsItself_spec code (showsAsItself_lt hitself) hitself with ⟨hdigit, hcode, hword⟩
    rw [hshown, String.toList_ofList]
    refine ⟨hword, ?_⟩
    have hlimit : code ≤ if signed = true then 0x7F else 0xFF := by
      have hlt := showsAsItself_lt hitself
      split <;> omega
    rw [parseCharacter, String.toList_ofList]
    simp only [hdigit, Bool.false_eq_true, if_false, hcode, if_pos hlimit]
    rw [hn]
    rfl

theorem readAddress?_decimal (n : Nat) :
    readAddress? (decimal n) = readNatural? 10 (decimal n) := by
  rw [readAddress?]
  all_goals
    intro digits hdigits
    have hx := isDigit_of_mem_decimal (n := n) (hdigits ▸ List.mem_cons_of_mem _ List.mem_cons_self)
    revert hx
    decide

theorem addressLimit_eq {size : Nat} (h : size ∈ [1, 2, 4] ∨ 8 ≤ size) :
    addressLimit size = 256 ^ min size 8 - 1 := by
  simp only [List.mem_cons, List.not_mem_nil, or_false] at h
  rcases h with (rfl | rfl | rfl) | h
  · rfl
  · rfl
  · rfl
  · rw [addressLimit, Nat.min_eq_right h]
    rfl

theorem parseAddress_addressText {size : Nat} {n : UInt64} (h : n.toNat ≤ addressLimit size) :
    parseAddress size (addressText (.uint n)) = .ok n.toNat := by
  rw [addressText, parseAddress, String.toList_ofList, trim_of_isWord (isWord_decimal _),
    readAddress?_decimal, readNatural?_decimal n.toNat_lt]
  exact if_pos h

end DatasetGrid
