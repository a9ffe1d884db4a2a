import DatasetGrid.Text.Blank
import DatasetGrid.Text.Numeral
import Mathlib.Algebra.Group.Int.Defs
import Mathlib.Algebra.Group.Nat.Defs

/-! # The numbers that numerals denote

Digits denote a number whatever their count. Reading them gives that number, or overflows once it
is past the bound; the decimal of a number reads as the number itself.
-/
namespace DatasetGrid.Text

theorem takeWhile_run {p : Char → Bool} {cs rest : List Char} (h : ∀ c ∈ cs, p c = true)
    (hrest : ∀ c ∈ rest.head?, p c = false) : (cs ++ rest).takeWhile p = cs := by
  rw [List.takeWhile_append_of_pos h]
  cases rest with
  | nil => simp
  | cons c rest => simp [hrest c rfl]

theorem dropWhile_run {p : Char → Bool} {cs rest : List Char} (h : ∀ c ∈ cs, p c = true)
    (hrest : ∀ c ∈ rest.head?, p c = false) : (cs ++ rest).dropWhile p = rest := by
  rw [List.dropWhile_append_of_pos h]
  cases rest with
  | nil => rfl
  | cons c rest => simp [hrest c rfl]

/-- The number that digits denote after `acc`. -/
def digitsValue (radix : Nat) : Nat → List Char → Nat
  | acc, [] => acc
  | acc, c :: rest => digitsValue radix (acc * radix + (digitOf radix c).getD 0) rest

def areDigits (radix : Nat) (cs : List Char) : Bool :=
  !cs.isEmpty && cs.all fun c => (digitOf radix c).isSome

/-- An optional sign and decimal digits, of any length. -/
def isNumeral (cs : List Char) : Bool :=
  areDigits 10 (if cs.head? = some '-' ∨ cs.head? = some '+' then cs.tail else cs)

theorem le_digitsValue {radix : Nat} (hradix : 0 < radix) (acc : Nat) (cs : List Char) :
    acc ≤ digitsValue radix acc cs := by
  induction cs generalizing acc with
  | nil => exact Nat.le_refl _
  | cons c rest ih =>
    have hnext : acc ≤ acc * radix + (digitOf radix c).getD 0 :=
      Nat.le_trans (Nat.le_mul_of_pos_right acc hradix) (Nat.le_add_right _ _)
    exact Nat.le_trans hnext (ih _)

/-- The bound only grows tighter along the digits, so it decides by the whole number. -/
theorem readOnto_eq {radix limit acc : Nat} {cs : List Char} (hradix : 0 < radix)
    (hdigits : cs.all fun c => (digitOf radix c).isSome) (hacc : acc ≤ limit) :
    readOnto radix limit acc cs =
      if digitsValue radix acc cs ≤ limit then .value (digitsValue radix acc cs)
      else .overflow := by
  induction cs generalizing acc with
  | nil => exact (if_pos hacc).symm
  | cons c rest ih =>
    simp only [List.all_cons, Bool.and_eq_true] at hdigits
    rcases Option.isSome_iff_exists.mp hdigits.1 with ⟨d, hd⟩
    rw [readOnto, digitsValue]
    simp only [hd, Option.getD_some]
    by_cases hnext : acc * radix + d ≤ limit
    · rw [if_pos hnext, ih hdigits.2 hnext]
    · have hgrows := le_digitsValue hradix (acc * radix + d) rest
      rw [if_neg hnext, if_neg (by omega)]

theorem readDigits_eq {radix limit : Nat} {cs : List Char} (hradix : 0 < radix)
    (hdigits : areDigits radix cs = true) :
    readDigits radix limit cs =
      if digitsValue radix 0 cs ≤ limit then .value (digitsValue radix 0 cs) else .overflow := by
  simp only [areDigits, Bool.and_eq_true] at hdigits
  cases cs with
  | nil => simp at hdigits
  | cons c rest => exact readOnto_eq hradix hdigits.2 (Nat.zero_le _)

theorem digitOf_ten {c : Char} (h : c.isDigit = true) :
    digitOf 10 c = some (c.toNat - '0'.toNat) := by
  have hrange := Char.isDigit_iff_toNat.mp h
  have hle : '0' ≤ c ∧ c ≤ '9' := by
    simp only [Char.le_def, UInt32.le_iff_toNat_le]
    exact hrange
  simp only [digitOf, if_pos hle]
  rw [if_pos]
  simp only [Char.reduceToNat] at hrange ⊢
  omega

theorem digitsValue_ten {cs : List Char} (h : ∀ c ∈ cs, c.isDigit = true) (acc : Nat) :
    digitsValue 10 acc cs = Nat.ofDigitChars 10 cs acc := by
  induction cs generalizing acc with
  | nil => exact Nat.ofDigitChars_nil.symm
  | cons c rest ih =>
    rw [digitsValue, digitOf_ten (h c List.mem_cons_self), Nat.ofDigitChars_cons, Nat.mul_comm]
    exact ih (fun c hc => h c (List.mem_cons_of_mem _ hc)) _

theorem isDigit_of_mem_decimal {n : Nat} {c : Char} (h : c ∈ decimal n) : c.isDigit = true :=
  Nat.isDigit_of_mem_toDigits (by decide) (by decide) h

theorem digitsValue_decimal (n : Nat) : digitsValue 10 0 (decimal n) = n := by
  rw [digitsValue_ten fun c hc => isDigit_of_mem_decimal hc]
  exact Nat.ofDigitChars_ten_toDigits

theorem areDigits_decimal (n : Nat) : areDigits 10 (decimal n) = true := by
  have hdigits : ∀ c ∈ decimal n, (digitOf 10 c).isSome = true := by
    intro c hc
    rw [digitOf_ten (isDigit_of_mem_decimal hc)]
    rfl
  simpa [areDigits, decimal_ne_nil] using hdigits

theorem readDigits_decimal (limit n : Nat) :
    readDigits 10 limit (decimal n) = if n ≤ limit then .value n else .overflow := by
  rw [readDigits_eq (by decide) (areDigits_decimal n), digitsValue_decimal]

theorem decimal_head?_ne {n : Nat} {c : Char} (h : c.isDigit = false) :
    (decimal n).head? ≠ some c := by
  intro hhead
  rw [isDigit_of_mem_decimal (List.mem_of_mem_head? hhead)] at h
  cases h

/-- No zero stands in front of the digits of a number. -/
theorem eq_zero_of_decimal_head? {n : Nat} (h : (decimal n).head? = some '0') : n = 0 := by
  induction n using Nat.strongRecOn with
  | ind n ih =>
    by_cases hn : n < 10
    · have hdigit : ∀ d < 10, Nat.digitChar d = '0' → d = 0 := by decide
      rw [decimal, Nat.toDigits_of_lt_base hn, List.head?_cons, Option.some_inj] at h
      exact hdigit n hn h
    · have hsplit : decimal n = decimal (n / 10) ++ [Nat.digitChar (n % 10)] :=
        Nat.toDigits_of_base_le (by decide) (by omega)
      obtain ⟨c, rest, hlead⟩ := List.exists_cons_of_ne_nil (decimal_ne_nil (n / 10))
      rw [hsplit, hlead, List.cons_append, List.head?_cons] at h
      have hzero : n / 10 = 0 := ih (n / 10) (by omega) (by rw [hlead, List.head?_cons, h])
      omega

theorem isNumeral_signedDecimal (n : Int) : isNumeral (signedDecimal n) = true := by
  rw [isNumeral, signedDecimal]
  by_cases hneg : n < 0
  · simpa [if_pos hneg] using areDigits_decimal n.natAbs
  · rw [if_neg hneg, if_neg]
    · exact areDigits_decimal n.natAbs
    · simp only [not_or]
      exact ⟨decimal_head?_ne (by decide), decimal_head?_ne (by decide)⟩

theorem readInteger_signedDecimal {n : Int} (hmin : -2 ^ 127 ≤ n) (hmax : n ≤ 2 ^ 127 - 1) :
    readInteger (signedDecimal n) = .value n := by
  rw [signedDecimal]
  by_cases hneg : n < 0
  · rw [if_pos hneg, readInteger, readDigits_decimal, if_pos (by omega)]
    simp only [IntegerReading.value.injEq]
    omega
  · rw [if_neg hneg, readInteger]
    · rw [if_neg (decimal_head?_ne (by decide)), readDigits_decimal, if_pos (by omega)]
      simp only [IntegerReading.value.injEq]
      omega
    · intro digits hdigits
      apply decimal_head?_ne (n := n.natAbs) (c := '-') (by decide)
      rw [hdigits]
      rfl

theorem readNatural?_decimal {n : Nat} (h : n < 2 ^ 64) : readNatural? 10 (decimal n) = some n := by
  rw [readNatural?, if_neg (decimal_head?_ne (by decide)), readDigits_decimal, if_pos (by omega)]

theorem trim_of_forall {cs : List Char} (h : ∀ c ∈ cs, isBlank c = false) : trim cs = cs := by
  have hleft : cs.dropWhile isBlank = cs := by
    cases cs with
    | nil => rfl
    | cons c rest => rw [List.dropWhile_cons, h c List.mem_cons_self]; rfl
  have hright : cs.reverse.dropWhile isBlank = cs.reverse := by
    cases hrev : cs.reverse with
    | nil => rfl
    | cons c rest =>
      have hc : c ∈ cs := List.mem_reverse.mp (hrev ▸ List.mem_cons_self)
      rw [List.dropWhile_cons, h c hc]
      rfl
  rw [trim, trimLeft, hleft, trimRight, hright, List.reverse_reverse]

end DatasetGrid.Text
