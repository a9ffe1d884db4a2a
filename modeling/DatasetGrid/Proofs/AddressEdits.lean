import DatasetGrid.Editor.Edit
import DatasetGrid.Editor.Render
import DatasetGrid.Proofs.IntegerEdits

/-! # Edits of references

An address is written in decimal, or in hexadecimal behind `0x`, with any count of digits. Whatever
number it denotes, a reference takes it exactly when the number fits the bytes of the reference.
Digits past the bound are out of range, also where they no longer fit the word they are read into.
-/
namespace DatasetGrid

namespace Text

def hexDigits : List Char := "0123456789abcdef".toList

def IsHexadecimal (ds : List Char) : Prop :=
  ds ≠ [] ∧ ∀ c ∈ ds, c.toLower ∈ hexDigits

/-- The number that hexadecimal digits denote after `acc`. -/
def hexValue (acc : Nat) (ds : List Char) : Nat :=
  ds.foldl (fun n c => 16 * n + hexDigits.idxOf c.toLower) acc

/-- The text is the numeral of an address, and denotes this address. -/
inductive DenotesAddress : List Char → Nat → Prop
  | decimal (plus ds : List Char) : plus = [] ∨ plus = ['+'] → IsDecimal ds →
      DenotesAddress (plus ++ ds) (Nat.ofDigitChars 10 ds 0)
  | hexadecimal (mark : Char) (plus ds : List Char) : mark = 'x' ∨ mark = 'X' →
      plus = [] ∨ plus = ['+'] → IsHexadecimal ds →
      DenotesAddress ('0' :: mark :: (plus ++ ds)) (hexValue 0 ds)

/-- Tried one by one for the first characters; the others are far from any digit. -/
theorem digitOf_sixteen (c : Char) :
    digitOf 16 c =
      if c.toLower ∈ hexDigits then some (hexDigits.idxOf c.toLower) else none := by
  by_cases hc : c.toNat < 128
  · have hall : ∀ code < 128, digitOf 16 (Char.ofNat code) =
        if (Char.ofNat code).toLower ∈ hexDigits
        then some (hexDigits.idxOf (Char.ofNat code).toLower) else none := by
      decide +kernel
    have hfirst := hall c.toNat hc
    rwa [Char.ofNat_toNat] at hfirst
  · have hsmall (d : Char) (hd : d ∈ hexDigits) : d.toNat < 128 :=
      of_decide_eq_true (List.all_eq_true.mp (by decide : hexDigits.all (·.toNat < 128)) d hd)
    have hlower : c.toLower = c := toLower_of_not_capital (.inr (by omega))
    rw [hlower, if_neg fun hmem => hc (hsmall c hmem)]
    have hout (low high : Char) (hhigh : high.toNat < 128) : ¬ (low ≤ c ∧ c ≤ high) := by
      simp only [Char.le_def, UInt32.le_iff_toNat_le, not_and, Nat.not_le]
      intro _
      exact Nat.lt_of_lt_of_le hhigh (Nat.le_of_not_lt hc)
    simp only [digitOf, if_neg (hout '0' '9' (by decide)),
      if_neg (hout 'a' 'f' (by decide)),
      if_neg (hout 'A' 'F' (by decide))]
    rfl

theorem areDigits_sixteen_iff {ds : List Char} : areDigits 16 ds = true ↔ IsHexadecimal ds := by
  simp only [areDigits, IsHexadecimal, Bool.and_eq_true, Bool.not_eq_true',
    List.isEmpty_eq_false_iff, List.all_eq_true]
  refine and_congr_right fun _ => forall₂_congr fun c _ => ?_
  rw [digitOf_sixteen]
  split <;> simp [*]

theorem digitsValue_sixteen {ds : List Char} (h : ∀ c ∈ ds, c.toLower ∈ hexDigits) (acc : Nat) :
    digitsValue 16 acc ds = hexValue acc ds := by
  induction ds generalizing acc with
  | nil => rfl
  | cons c rest ih =>
    rw [digitsValue, digitOf_sixteen, if_pos (h c List.mem_cons_self),
      ih fun c hc => h c (List.mem_cons_of_mem _ hc), Option.getD_some, Nat.mul_comm acc]
    rfl

section Natural

variable {radix n : Nat} {cs ds : List Char}

theorem areDigits_head?_ne {c : Char} (hc : digitOf radix c = none)
    (h : areDigits radix ds = true) :
    ds.head? ≠ some c := by
  intro hhead
  simp only [areDigits, Bool.and_eq_true, List.all_eq_true] at h
  have hdigit := h.2 c (List.mem_of_mem_head? hhead)
  rw [hc] at hdigit
  cases hdigit

theorem digitOf_plus (radix : Nat) : digitOf radix '+' = none := by
  simp [digitOf]

theorem readNatural?_eq_some (hradix : 0 < radix) (h : readNatural? radix cs = some n) :
    ∃ plus ds, (plus = [] ∨ plus = ['+']) ∧ cs = plus ++ ds ∧ areDigits radix ds = true ∧
      digitsValue radix 0 ds = n ∧ n < 2 ^ 64 := by
  have hread {ds : List Char} (h : readDigits radix (2 ^ 64 - 1) ds = .value n) :
      areDigits radix ds = true ∧ digitsValue radix 0 ds = n ∧ n < 2 ^ 64 := by
    have hdigits := areDigits_of_readDigits h
    rw [readDigits_eq hradix hdigits] at h
    split at h
    · cases h
      exact ⟨hdigits, rfl, by omega⟩
    · cases h
  rw [readNatural?] at h
  split at h
  · rename_i m hvalue
    cases h
    by_cases hplus : cs.head? = some '+'
    · obtain ⟨ds, rfl⟩ := List.head?_eq_some_iff.mp hplus
      exact ⟨['+'], ds, .inr rfl, rfl, hread hvalue⟩
    · rw [if_neg hplus] at hvalue
      exact ⟨[], cs, .inl rfl, rfl, hread hvalue⟩
  · cases h

theorem readNatural?_digits (hradix : 0 < radix) {plus : List Char}
    (hplus : plus = [] ∨ plus = ['+']) (h : areDigits radix ds = true) :
    readNatural? radix (plus ++ ds) =
      if digitsValue radix 0 ds < 2 ^ 64 then some (digitsValue radix 0 ds) else none := by
  have hstrip : (if (plus ++ ds).head? = some '+' then (plus ++ ds).tail else plus ++ ds) = ds := by
    rcases hplus with rfl | rfl
    · exact if_neg (areDigits_head?_ne (digitOf_plus radix) h)
    · rfl
  rw [readNatural?, hstrip, readDigits_eq hradix h]
  by_cases hfits : digitsValue radix 0 ds ≤ 2 ^ 64 - 1
  · rw [if_pos hfits, if_pos (by omega)]
  · rw [if_neg hfits, if_neg (by omega)]

end Natural

end Text

open Text

/-- Without `0x` in front a text is read in decimal. -/
theorem readAddress?_plain {cs : List Char} (h : cs.tail.head? ≠ some 'x')
    (hupper : cs.tail.head? ≠ some 'X') : readAddress? cs = readNatural? 10 cs := by
  rw [readAddress?]
  · rintro digits rfl
    exact h rfl
  · rintro digits rfl
    exact hupper rfl

theorem readAddress?_isDecimal {plus ds : List Char} (hplus : plus = [] ∨ plus = ['+'])
    (h : IsDecimal ds) :
    readAddress? (plus ++ ds) =
      if Nat.ofDigitChars 10 ds 0 < 2 ^ 64 then some (Nat.ofDigitChars 10 ds 0) else none := by
  have hsecond {c : Char} (hc : c.isDigit = false) : (plus ++ ds).tail.head? ≠ some c := by
    rcases hplus with rfl | rfl
    · intro hhead
      have hmem : c ∈ ds := List.mem_of_mem_tail (List.mem_of_mem_head? hhead)
      rw [h.2 c hmem] at hc
      cases hc
    · exact h.head?_ne hc
  rw [readAddress?_plain (hsecond (by decide)) (hsecond (by decide)),
    readNatural?_digits (by decide) hplus (areDigits_ten_iff.mpr h), digitsValue_ten h.2]

theorem readAddress?_isHexadecimal {mark : Char} {plus ds : List Char}
    (hmark : mark = 'x' ∨ mark = 'X') (hplus : plus = [] ∨ plus = ['+']) (h : IsHexadecimal ds) :
    readAddress? ('0' :: mark :: (plus ++ ds)) =
      if hexValue 0 ds < 2 ^ 64 then some (hexValue 0 ds) else none := by
  have hdigits : readAddress? ('0' :: mark :: (plus ++ ds)) = readNatural? 16 (plus ++ ds) := by
    rcases hmark with rfl | rfl <;> rfl
  rw [hdigits, readNatural?_digits (by decide) hplus (areDigits_sixteen_iff.mpr h),
    digitsValue_sixteen h.2]

/-- Numerals of addresses are read, each as the address it denotes, up to 64 bits. -/
theorem readAddress?_eq_some_iff {cs : List Char} {n : Nat} :
    readAddress? cs = some n ↔ DenotesAddress cs n ∧ n < 2 ^ 64 := by
  constructor
  · have hhex {mark : Char} {digits : List Char} (hmark : mark = 'x' ∨ mark = 'X')
        (h : readNatural? 16 digits = some n) :
        DenotesAddress ('0' :: mark :: digits) n ∧ n < 2 ^ 64 := by
      obtain ⟨plus, ds, hplus, rfl, hdigits, rfl, hlt⟩ := readNatural?_eq_some (by decide) h
      have hds := areDigits_sixteen_iff.mp hdigits
      refine ⟨?_, hlt⟩
      rw [digitsValue_sixteen hds.2]
      exact .hexadecimal mark plus ds hmark hplus hds
    intro h
    unfold readAddress? at h
    split at h
    · exact hhex (.inl rfl) h
    · exact hhex (.inr rfl) h
    · obtain ⟨plus, ds, hplus, rfl, hdigits, rfl, hlt⟩ := readNatural?_eq_some (by decide) h
      have hds := areDigits_ten_iff.mp hdigits
      refine ⟨?_, hlt⟩
      rw [digitsValue_ten hds.2]
      exact .decimal plus ds hplus hds
  · rintro ⟨hdenotes, hlt⟩
    cases hdenotes with
    | decimal plus ds hplus hds => rw [readAddress?_isDecimal hplus hds, if_pos hlt]
    | hexadecimal mark plus ds hmark hplus hds =>
      rw [readAddress?_isHexadecimal hmark hplus hds, if_pos hlt]

theorem readAddress?_minus (rest : List Char) : readAddress? ('-' :: rest) = none := by
  have hplain : readAddress? ('-' :: rest) = readNatural? 10 ('-' :: rest) := by
    unfold readAddress?
    rfl
  rw [hplain]
  rfl

section Reference

variable {size : Nat} {text : String}

theorem lt_of_le_addressLimit {n : Nat} (h : n ≤ 256 ^ min size 8 - 1) : n < 2 ^ 64 := by
  have hpower : 256 ^ min size 8 ≤ 256 ^ 8 :=
    Nat.pow_le_pow_right (by decide) (Nat.min_le_right _ _)
  omega

theorem parseAddress_eq_ok_iff (hsize : size ∈ [1, 2, 4] ∨ 8 ≤ size) {n : Nat} :
    parseAddress size text = .ok n ↔
      DenotesAddress (trim text.toList) n ∧ n ≤ 256 ^ min size 8 - 1 := by
  rw [← addressLimit_eq hsize]
  constructor
  · intro h
    simp only [parseAddress] at h
    split at h
    · rename_i address hread
      split at h
      · cases h
        exact ⟨(readAddress?_eq_some_iff.mp hread).1, ‹_›⟩
      · cases h
    · split at h
      · cases h
      · split at h <;> cases h
  · rintro ⟨hdenotes, hle⟩
    have hword := lt_of_le_addressLimit (addressLimit_eq hsize ▸ hle)
    have hread := readAddress?_eq_some_iff.mpr ⟨hdenotes, hword⟩
    simp only [parseAddress, hread]
    exact if_pos hle

theorem parseAddress_isDecimal (size : Nat) (h : IsDecimal (trim text.toList)) :
    parseAddress size text = .ok (Nat.ofDigitChars 10 (trim text.toList) 0) ∨
      parseAddress size text = .error (.outOfRange text 0 (addressLimit size)) := by
  have hread := readAddress?_isDecimal (.inl rfl) h
  rw [List.nil_append] at hread
  simp only [parseAddress, hread]
  by_cases hword : Nat.ofDigitChars 10 (trim text.toList) 0 < 2 ^ 64
  · simp only [if_pos hword]
    by_cases hle : Nat.ofDigitChars 10 (trim text.toList) 0 ≤ addressLimit size
    · exact .inl (if_pos hle)
    · exact .inr (if_neg hle)
  · simp only [if_neg hword]
    right
    rw [if_neg (h.head?_ne (by decide)), if_pos ⟨h.1, List.all_eq_true.mpr h.2⟩]

theorem parseAddress_minus (h : (trim text.toList).head? = some '-') :
    parseAddress size text = .error (.negativeUnsigned text) := by
  obtain ⟨rest, htrim⟩ := List.head?_eq_some_iff.mp h
  simp only [parseAddress, htrim, readAddress?_minus]
  rfl

end Reference

/-- A reference takes the numerals of the addresses that fit its bytes and nothing else. Decimal
digits that are not taken are out of range, what starts with a minus sign is negative, and each
address is read from the text that shows it. -/
theorem reference_reads {size : Nat} (hsize : size ∈ [1, 2, 4] ∨ 8 ≤ size) (kind : ReferenceKind)
    (column : Nat) :
    let editor := Editor.scalar (.reference size kind)
    let limit := 256 ^ min size 8 - 1
    (∀ (text : String) (value : Cell), editor.parse column text = .ok value ↔
      ∃ address : UInt64, DenotesAddress (trim text.toList) address.toNat ∧
        address.toNat ≤ limit ∧ value = .uint address) ∧
    (∀ text : String, IsDecimal (trim text.toList) →
      (∀ value, editor.parse column text ≠ .ok value) →
        editor.parse column text = .error (.outOfRange text 0 limit)) ∧
    (∀ text : String, (trim text.toList).head? = some '-' →
      editor.parse column text = .error (.negativeUnsigned text)) ∧
    ∀ address : UInt64, address.toNat ≤ limit → ∀ (σ : Type) (d : Display σ) (state : σ),
      editor.parse column ((editor.render d column (.uint address)).run state).1 =
        .ok (.uint address) := by
  intro editor limit
  have hparse (text : String) : editor.parse column text =
      (parseAddress size text).map fun address => .uint (UInt64.ofNat address) := rfl
  have hlimit : addressLimit size = limit := addressLimit_eq hsize
  refine ⟨fun text value => ?_, fun text hdigits hrejected => ?_, fun text hminus => ?_, ?_⟩
  · rw [hparse]
    constructor
    · intro h
      cases hread : parseAddress size text with
      | error fault =>
        rw [hread] at h
        cases h
      | ok n =>
        rw [hread] at h
        cases h
        obtain ⟨hdenotes, hle⟩ := (parseAddress_eq_ok_iff hsize).mp hread
        have hword : (UInt64.ofNat n).toNat = n :=
          UInt64.toNat_ofNat_of_lt' (lt_of_le_addressLimit hle)
        exact ⟨.ofNat n, hword.symm ▸ hdenotes, hword.symm ▸ hle, rfl⟩
    · rintro ⟨address, hdenotes, hle, rfl⟩
      rw [(parseAddress_eq_ok_iff hsize).mpr ⟨hdenotes, hle⟩, Except.map, UInt64.ofNat_toNat]
  · rw [hparse] at hrejected ⊢
    rcases parseAddress_isDecimal size hdigits with hread | hread
    · rw [hread] at hrejected
      exact absurd rfl (hrejected _)
    · rw [hread, hlimit]
      rfl
  · rw [hparse, parseAddress_minus hminus]
    rfl
  · intro address hle σ d state
    have hshown : ((editor.render d column (.uint address)).run state).1 =
        addressText (.uint address) := rfl
    rw [hparse, hshown, parseAddress_addressText (hlimit.symm ▸ hle), Except.map,
      UInt64.ofNat_toNat]

/-- Two bytes hold addresses up to 65535, and a longer numeral is refused with that bound even past
64 bits. -/
theorem reference_reads_short :
    2 ∈ [1, 2, 4] ∧
    (Editor.scalar (.reference 2 .object)).parse 0 " 0X+fF\n" = .ok (.uint 255) ∧
    (Editor.scalar (.reference 2 .object)).parse 0 "18446744073709551616" =
      .error (.outOfRange "18446744073709551616" 0 65535) ∧
    (Editor.scalar (.reference 2 .object)).parse 0 " -x" = .error (.negativeUnsigned " -x") ∧
    (Editor.scalar (.reference 2 .object)).parse 0
      (((Editor.scalar (.reference 2 .object)).render Display.plain 0 (.uint 65535)).run ()).1 =
        .ok (.uint 65535) := by
  obtain ⟨hreads, hdigits, hminus, hshown⟩ :=
    reference_reads (show 2 ∈ [1, 2, 4] ∨ 8 ≤ 2 from .inl (by decide)) .object 0
  have hhex : DenotesAddress (trim " 0X+fF\n".toList) 255 := by
    have htrim : trim " 0X+fF\n".toList = '0' :: 'X' :: (['+'] ++ ['f', 'F']) := by decide +kernel
    rw [htrim]
    exact .hexadecimal 'X' ['+'] ['f', 'F'] (.inr rfl) (.inr rfl)
      ⟨by decide, List.forall_mem_cons.mpr ⟨by decide, List.forall_mem_singleton.mpr (by decide)⟩⟩
  have hlong : IsDecimal (trim "18446744073709551616".toList) :=
    ⟨by decide +kernel, List.all_eq_true.mp (by decide +kernel)⟩
  refine ⟨by decide, (hreads _ _).mpr ⟨255, hhex, by decide, rfl⟩, hdigits _ hlong ?_,
    hminus _ (by decide +kernel), hshown 65535 (by decide) Unit Display.plain ()⟩
  intro value hvalue
  obtain ⟨fault, hfault⟩ : ∃ fault,
      (Editor.scalar (.reference 2 .object)).parse 0 "18446744073709551616" = .error fault :=
    ⟨_, rfl⟩
  rw [hfault] at hvalue
  cases hvalue

end DatasetGrid
