import DatasetGrid.Proofs.NumberCells
import DatasetGrid.Proofs.Rounding
import DatasetGrid.Scalar.Float

/-! # Written forms as numerals

Digits with a point, and an exponent or none, read as the decimal they spell. A member refuses such
a numeral exactly when it rounds to infinity.
-/
namespace DatasetGrid.Number

/-- The text spells the decimal by its digits, a point before the last `places` of them, and an
exponent or none. -/
inductive Spells : List Char → Decimal → Prop
  | pointed (digits places : Nat) :
      Spells (withPoint (Text.decimal digits) places) ⟨digits, -places⟩
  | scaled (digits places : Nat) (exponent : Int) :
      Spells (withPoint (Text.decimal digits) places ++ 'e' :: Text.signedDecimal exponent)
        ⟨digits, exponent - places⟩

/-- The two parts around the point, whose digits are the given ones behind zeros. -/
theorem exists_withPoint {digits : List Char} (places : Nat) (h : digits ≠ []) :
    ∃ whole decimals zeros, whole ≠ [] ∧ decimals.length = places ∧
      whole ++ decimals = List.replicate zeros '0' ++ digits ∧
      withPoint digits places = whole ++ if places = 0 then [] else '.' :: decimals := by
  rcases Nat.eq_zero_or_pos places with rfl | hpos
  · exact ⟨digits, [], 0, h, rfl, List.append_nil _, (List.append_nil _).symm⟩
  · let filled := List.replicate (places + 1 - digits.length) '0' ++ digits
    have hlength : places + 1 ≤ filled.length := by
      rw [List.length_append, List.length_replicate]
      omega
    refine ⟨filled.take (filled.length - places), filled.drop (filled.length - places),
      places + 1 - digits.length, ?_, ?_, List.take_append_drop _ _, ?_⟩
    · rw [← List.length_pos_iff, List.length_take]
      omega
    · rw [List.length_drop]
      omega
    · rw [withPoint, if_neg (by omega), if_neg (by omega)]

theorem splitDigits_append {digits rest : List Char} (hdigits : ∀ c ∈ digits, c.isDigit = true)
    (hrest : ∀ c ∈ rest.head?, c.isDigit = false) :
    splitDigits (digits ++ rest) = (digits, rest) := by
  rw [splitDigits, Text.takeWhile_run hdigits hrest, Text.dropWhile_run hdigits hrest]

theorem digitsValue_zeros_append (zeros digits : Nat) :
    digitsValue (List.replicate zeros '0' ++ Text.decimal digits) = digits := by
  induction zeros with
  | zero => exact Nat.ofDigitChars_ten_toDigits
  | succ zeros ih =>
    rw [digitsValue, List.replicate_succ, List.cons_append, Nat.ofDigitChars_cons]
    exact ih

theorem readExponent?_signedDecimal (exponent : Int) :
    readExponent? ('e' :: Text.signedDecimal exponent) = some exponent := by
  have hdigits : Text.decimal exponent.natAbs ≠ [] ∧
      (Text.decimal exponent.natAbs).all Char.isDigit = true :=
    ⟨Text.decimal_ne_nil _, List.all_eq_true.mpr fun c hc => Text.isDigit_of_mem_decimal hc⟩
  have hvalue : digitsValue (Text.decimal exponent.natAbs) = exponent.natAbs :=
    digitsValue_zeros_append 0 _
  rw [readExponent?, if_pos (Or.inl rfl), Text.signedDecimal]
  split
  · simp only [List.head?_cons, List.tail_cons, true_or, if_true, if_pos hdigits, hvalue]
    congr 1
    omega
  · have hminus : (Text.decimal exponent.natAbs).head? ≠ some '-' :=
      Text.decimal_head?_ne (by decide)
    have hplus : (Text.decimal exponent.natAbs).head? ≠ some '+' :=
      Text.decimal_head?_ne (by decide)
    simp only [hminus, hplus, or_false, if_false, if_pos hdigits, hvalue]
    congr 1
    omega

theorem exists_parts (digits places : Nat) :
    ∃ whole decimals, whole ≠ [] ∧ decimals.length = places ∧
      (∀ c ∈ whole ++ decimals, c.isDigit = true) ∧ digitsValue (whole ++ decimals) = digits ∧
      withPoint (Text.decimal digits) places =
        whole ++ if places = 0 then [] else '.' :: decimals := by
  obtain ⟨whole, decimals, zeros, hwhole, hplaces, hsplit, htext⟩ :=
    exists_withPoint places (Text.decimal_ne_nil digits)
  refine ⟨whole, decimals, hwhole, hplaces, ?_, ?_, htext⟩
  · intro c hc
    rw [hsplit, List.mem_append] at hc
    rcases hc with hzero | hdigit
    · rw [List.eq_of_mem_replicate hzero]
      rfl
    · exact Text.isDigit_of_mem_decimal hdigit
  · rw [hsplit, digitsValue_zeros_append]

/-- Up to the point the digits are read one part at a time; together they are the digits written. -/
theorem readDecimal?_withPoint (digits places : Nat) (rest : List Char)
    (hrest : ∀ c ∈ rest.head?, c.isDigit = false ∧ c ≠ '.') :
    readDecimal? (withPoint (Text.decimal digits) places ++ rest) =
      (readExponent? rest).map fun exponent => ⟨digits, exponent - places⟩ := by
  obtain ⟨whole, decimals, hwhole, hplaces, hdigits, hvalue, htext⟩ := exists_parts digits places
  rw [List.forall_mem_append] at hdigits
  have hne : whole ++ decimals ≠ [] := by
    simp [hwhole]
  rw [htext]
  rcases Nat.eq_zero_or_pos places with rfl | hpos
  · obtain rfl := List.length_eq_zero_iff.mp hplaces
    have hpoint : rest.head? ≠ some '.' := fun h => (hrest '.' h).2 rfl
    rw [if_pos rfl, List.append_nil, readDecimal?,
      splitDigits_append hdigits.1 fun c hc => (hrest c hc).1]
    simp only [if_neg hpoint, if_neg hne, hvalue, List.length_nil]
  · rw [if_neg (by omega), List.append_assoc, readDecimal?,
      splitDigits_append hdigits.1 fun c hc => by cases hc; rfl]
    simp only [List.cons_append, List.head?_cons, List.tail_cons, if_true,
      splitDigits_append hdigits.2 fun c hc => (hrest c hc).1, if_neg hne, hvalue, hplaces]

theorem toLower_of_isDigit {c : Char} (h : c.isDigit = true) : c.toLower = c :=
  toLower_of_not_capital (.inl (Nat.lt_of_le_of_lt (Char.isDigit_iff_toNat.mp h).2 (by decide)))

def isNumeric (c : Char) : Bool :=
  c.isDigit || ['-', '.', 'e'].contains c

theorem isNumeric_spec {c : Char} (h : isNumeric c = true) :
    Text.isBlank c = false ∧ c.toLower ≠ 'i' := by
  simp only [isNumeric, Bool.or_eq_true, List.contains_iff_mem] at h
  rcases h with hdigit | hmark
  · refine ⟨isBlank_of_isDigit hdigit, ?_⟩
    rw [toLower_of_isDigit hdigit]
    rintro rfl
    cases hdigit
  · simp only [List.mem_cons, List.not_mem_nil, or_false] at hmark
    rcases hmark with rfl | rfl | rfl <;> exact ⟨by decide, by decide⟩

theorem spellsInfinity_of_forall {cs : List Char} (h : ∀ c ∈ cs, c.toLower ≠ 'i') :
    spellsInfinity cs = false := by
  induction cs with
  | nil => rfl
  | cons c rest ih =>
    have hfirst : ¬ 'i' = c.toLower := fun heq => h c List.mem_cons_self heq.symm
    rw [spellsInfinity, ih fun d hd => h d (List.mem_cons_of_mem _ hd)]
    simp [List.isPrefixOf, hfirst]

namespace Spells

variable {cs : List Char} {d : Decimal}

theorem readDecimal? (h : Spells cs d) : readDecimal? cs = some d := by
  cases h with
  | pointed digits places =>
    have hread := readDecimal?_withPoint digits places [] (fun c hc => by cases hc)
    rw [List.append_nil] at hread
    rw [hread]
    simp [readExponent?]
  | scaled digits places exponent =>
    rw [readDecimal?_withPoint digits places _ fun c hc => by cases hc; decide,
      readExponent?_signedDecimal]
    rfl

theorem exists_cons (h : Spells cs d) : ∃ c rest, cs = c :: rest ∧ c.isDigit = true := by
  have hpointed (digits places : Nat) :
      ∃ c rest, withPoint (Text.decimal digits) places = c :: rest ∧ c.isDigit = true := by
    obtain ⟨whole, decimals, hwhole, -, hdigits, -, htext⟩ := exists_parts digits places
    obtain ⟨c, rest, rfl⟩ := List.exists_cons_of_ne_nil hwhole
    exact ⟨c, _, htext, hdigits c List.mem_cons_self⟩
  cases h with
  | pointed digits places => exact hpointed digits places
  | scaled digits places exponent =>
    obtain ⟨c, rest, htext, hdigit⟩ := hpointed digits places
    rw [htext]
    exact ⟨c, _, rfl, hdigit⟩

theorem isNumeric_of_mem (h : Spells cs d) {c : Char} (hc : c ∈ cs) : isNumeric c = true := by
  have hpointed (digits places : Nat) (hc : c ∈ withPoint (Text.decimal digits) places) :
      isNumeric c = true := by
    obtain ⟨whole, decimals, -, -, hdigits, -, htext⟩ := exists_parts digits places
    rw [List.forall_mem_append] at hdigits
    rw [htext, List.mem_append] at hc
    rcases hc with hc | hc
    · rw [isNumeric, hdigits.1 c hc, Bool.true_or]
    · split at hc
      · cases hc
      · rcases List.mem_cons.mp hc with rfl | hc
        · rfl
        · rw [isNumeric, hdigits.2 c hc, Bool.true_or]
  cases h with
  | pointed digits places => exact hpointed digits places hc
  | scaled digits places exponent =>
    rcases List.mem_append.mp hc with hc | hc
    · exact hpointed digits places hc
    · rcases List.mem_cons.mp hc with rfl | hc
      · rfl
      · rw [Text.signedDecimal] at hc
        split at hc
        · rcases List.mem_cons.mp hc with rfl | hc
          · rfl
          · rw [isNumeric, Text.isDigit_of_mem_decimal hc, Bool.true_or]
        · rw [isNumeric, Text.isDigit_of_mem_decimal hc, Bool.true_or]

theorem readUnsigned? (h : Spells cs d) (negative : Bool) :
    readUnsigned? negative cs = some (.decimal negative d) := by
  obtain ⟨c, rest, hcs, hdigit⟩ := h.exists_cons
  have hword {word : List Char} {w : Char} (hhead : word.head? = some w) (hw : w.isDigit = false) :
      cs.map Char.toLower ≠ word := by
    rintro rfl
    rw [hcs, List.map_cons, toLower_of_isDigit hdigit, List.head?_cons] at hhead
    cases hhead
    rw [hdigit] at hw
    cases hw
  have hinf : cs.map Char.toLower ≠ "inf".toList := hword rfl (by decide)
  have hinfinity : cs.map Char.toLower ≠ "infinity".toList := hword rfl (by decide)
  have hnan : cs.map Char.toLower ≠ "nan".toList := hword rfl (by decide)
  simp only [Number.readUnsigned?, hinf, hinfinity, hnan, or_self, if_false, h.readDecimal?,
    Option.map_some]

/-- A minus sign in front only sets the sign of what is read. -/
theorem read? (h : Spells cs d) (negative : Bool) :
    Numeral.read? ((if negative then ['-'] else []) ++ cs) = some (.decimal negative d) := by
  cases negative with
  | true => exact h.readUnsigned? true
  | false =>
    obtain ⟨c, rest, hcs, hdigit⟩ := h.exists_cons
    have hne {sign : Char} (hsign : sign.isDigit = false) : c ≠ sign := by
      rintro rfl
      rw [hdigit] at hsign
      cases hsign
    change Numeral.read? cs = _
    rw [← h.readUnsigned? false, hcs, Numeral.read?]
    · rintro tail ⟨⟩
      exact hne (by decide) rfl
    · rintro tail ⟨⟩
      exact hne (by decide) rfl

theorem isNumeric_of_mem_signed (h : Spells cs d) (negative : Bool) :
    ∀ c ∈ (if negative then ['-'] else []) ++ cs, isNumeric c = true := by
  intro c hc
  rcases List.mem_append.mp hc with hsign | hc
  · cases negative with
    | true =>
      rw [List.mem_singleton.mp hsign]
      rfl
    | false => cases hsign
  · exact h.isNumeric_of_mem hc

end Spells

theorem regular_of_floatLayout? {size : Nat} {layout : Layout}
    (h : floatLayout? size = some layout) : layout.Regular := by
  unfold floatLayout? at h
  split at h
  · cases h
    exact Layout.regular_single
  · cases h
    exact Layout.regular_double
  · cases h

/-- A member takes a numeral that spells a decimal unless it rounds to infinity. -/
theorem parseFloat_of_spells {size : Nat} {layout : Layout}
    (hlayout : floatLayout? size = some layout) (negative : Bool) {cs : List Char} {d : Decimal}
    (h : Spells cs d) {text : String}
    (htext : text = .ofList ((if negative then ['-'] else []) ++ cs)) :
    parseFloat text size =
      if (layout.overflowBound : ℚ) ≤ d.value then .error (.floatOverflow text (size * 8))
      else .ok (.ofDatum ((Numeral.decimal negative d).round layout)) := by
  have hchars := h.isNumeric_of_mem_signed negative
  have htrim : Text.trim text.toList = (if negative then ['-'] else []) ++ cs := by
    rw [htext, String.toList_ofList,
      Text.trim_of_forall fun c hc => (isNumeric_spec (hchars c hc)).1]
  have hword := spellsInfinity_of_forall fun c hc => (isNumeric_spec (hchars c hc)).2
  have hround := isInfinite_round_decimal (regular_of_floatLayout? hlayout) negative d
  simp only [parseFloat, hlayout, htrim, h.read?, hword, Bool.not_false, and_true, hround]

end DatasetGrid.Number
