import DatasetGrid.Proofs.ByteText
import DatasetGrid.Proofs.EnumNames

/-! # Scalar cells read back from their texts

Every exact scalar reads its own text as the value shown. In a list the text keeps to the tokens
that one value takes, and these give the text back when blanks are set between them.
-/
namespace DatasetGrid

open Token

theorem isDelimiter_digitChar : ∀ d < 16, isDelimiter (Nat.digitChar d) = false ∧
    Nat.digitChar d ≠ '(' := by
  decide

theorem isWord_hexText (b : UInt8) : isWord (hexText b) = true := by
  simp only [isWord, Bool.and_eq_true, Bool.not_eq_true', List.all_eq_true, bne_iff_ne]
  refine ⟨rfl, fun c hc => ?_⟩
  rcases exists_digitChar_of_mem_hexText hc with ⟨d, hd, rfl⟩
  exact isDelimiter_digitChar d hd

theorem isWord_colons {bs : List UInt8} (h : bs ≠ []) :
    isWord ([':'].intercalate (bs.map hexText)) = true := by
  induction bs with
  | nil => exact absurd rfl h
  | cons b rest ih =>
    have hfirst := isWord_hexText b
    cases rest with
    | nil => simpa using hfirst
    | cons next rest =>
      have hrest := ih (List.cons_ne_nil next rest)
      have hcolon : isDelimiter ':' = false := by decide
      rw [List.map_cons, List.map_cons, List.intercalate_cons_cons, ← List.map_cons]
      simp only [isWord, Bool.and_eq_true, List.all_append, List.all_cons, List.all_nil] at *
      exact ⟨rfl, ⟨hfirst.2, by simp [hcolon]⟩, hrest.2⟩

/-- Blanks part the bytes of opaque data into one token each. -/
theorem lists_blanks (bs : List UInt8) :
    Lists ([' '].intercalate (bs.map hexText)) (bs.map hexText) := by
  have htokens : List.Forall₂ Lists (bs.map hexText) ((bs.map hexText).map fun w => [w]) := by
    induction bs with
    | nil => exact .nil
    | cons b rest ih => exact .cons (.word (isWord_hexText b)) ih
  have hlists := Lists.intercalate Separates.blank htokens
  rwa [← List.flatMap_def, List.flatMap_singleton'] at hlists

namespace Scalar

variable {σ : Type} {d : Display σ} {type : Scalar} {value : Cell}

/-- What a scalar's text is to a list: its tokens, joined again by blanks. -/
def Spreads (type : Scalar) (text : String) : Prop :=
  ∃ ts, Lists text.toList ts ∧ ts.length = type.tokens ∧
    " ".intercalate (ts.map String.ofList) = text

theorem tokens_pos (type : Scalar) : 0 < type.tokens := by
  cases type with
  | blob size tag => exact Nat.lt_of_lt_of_le Nat.one_pos (Nat.le_max_right _ _)
  | _ => exact Nat.one_pos

/-- A value has a part for each of its tokens. -/
theorem tokens_le_extent (h : type.holds value = true) : type.tokens ≤ value.extent := by
  cases type with
  | blob size tag =>
    cases value with
    | bytes bs =>
      obtain rfl : bs.length = size := of_decide_eq_true h
      exact Nat.le_of_eq (Nat.max_comm _ _)
    | _ => cases h
  | _ => exact value.extent_pos

theorem spreads_of_isWord {text : String} (h : isWord text.toList = true)
    (htokens : type.tokens = 1) : type.Spreads text := by
  refine ⟨[text.toList], .word h, htokens.symm, ?_⟩
  rw [List.map_singleton, String.intercalate_singleton, String.ofList_toList]

theorem checkString_of_holds {length : StringLength} {s : String} (h : length.holds s = true) :
    checkString length s = .ok () := by
  rcases length with limit | _
  · have hle : s.utf8ByteSize ≤ limit := of_decide_eq_true h
    rw [checkString, if_neg (by omega)]
  · rfl

theorem le_addressLimit {size : Nat} {n : UInt64} (hsize : size ∈ [1, 2, 4] ∨ 8 ≤ size)
    (h : ¬ size ∈ [1, 2, 4] ∨ n.toNat < 256 ^ size) : n.toNat ≤ addressLimit size := by
  have hlt := n.toNat_lt
  rw [addressLimit_eq hsize]
  rcases hsize with hsmall | hlarge
  · have hmin : min size 8 = size := by
      simp only [List.mem_cons, List.not_mem_nil, or_false] at hsmall
      omega
    rcases h with hodd | h
    · exact absurd hsmall hodd
    · rw [hmin]
      omega
  · rw [Nat.min_eq_right hlarge]
    omega

theorem parse_render (hd : d.Faithful) (htype : type.isExact = true)
    (h : type.holds value = true) (state : σ) :
    type.parse ((type.render d value).run state).1 = .ok value := by
  cases type with
  | integer type => exact parseInteger_integerText _ h
  | float size => cases htype
  | char signed => exact (parseCharacter_characterText h).2
  | string length =>
    cases value with
    | text s => exact congrArg (Except.map fun _ => Cell.text s) (checkString_of_holds h)
    | _ => cases h
  | enumeration base members => exact (parseEnumeration_enumerationText hd htype h state).2
  | bitfield size =>
    cases value with
    | bytes bs =>
      obtain rfl : bs.length = size := of_decide_eq_true h
      exact congrArg (Except.map Cell.bytes) (parseBytes_bytesText ':' rfl bs)
    | _ => cases h
  | blob size tag =>
    cases value with
    | bytes bs =>
      obtain rfl : bs.length = size := of_decide_eq_true h
      exact congrArg (Except.map Cell.bytes) (parseBytes_bytesText ' ' rfl bs)
    | _ => cases h
  | reference size kind =>
    cases value with
    | uint n =>
      have hread := parseAddress_addressText
        (le_addressLimit (of_decide_eq_true htype) (of_decide_eq_true h))
      have hcell := congrArg (Except.map fun address => Cell.uint (UInt64.ofNat address)) hread
      rw [Except.map, UInt64.ofNat_toNat] at hcell
      exact hcell
    | _ => cases h

/-- In a list the text keeps to the tokens of one value. -/
theorem spreads_render (hd : d.Faithful) (htype : type.isExact = true)
    (h : type.holds value = true) (hwords : value.hasWords = true) (state : σ) :
    type.Spreads ((type.render d value).run state).1 := by
  cases type with
  | integer type => exact spreads_of_isWord (isWord_integerText h) rfl
  | float size => cases htype
  | char signed => exact spreads_of_isWord (parseCharacter_characterText h).1 rfl
  | string length =>
    cases value with
    | text s => exact spreads_of_isWord hwords rfl
    | _ => cases h
  | enumeration base members =>
    exact spreads_of_isWord (parseEnumeration_enumerationText hd htype h state).1 rfl
  | bitfield size =>
    cases value with
    | bytes bs =>
      obtain rfl : bs.length = size := of_decide_eq_true h
      have hne : bs ≠ [] := List.ne_nil_of_length_pos (of_decide_eq_true htype)
      have htext := toList_bytesText ':' bs
      exact spreads_of_isWord (htext ▸ isWord_colons hne) rfl
    | _ => cases h
  | blob size tag =>
    cases value with
    | bytes bs =>
      obtain rfl : bs.length = size := of_decide_eq_true h
      have hpos : 0 < bs.length := of_decide_eq_true htype
      have htext := toList_bytesText ' ' bs
      -- Opaque data alone take more than one token.
      refine ⟨bs.map hexText, htext ▸ lists_blanks bs, ?_, ?_⟩
      · rw [List.length_map, tokens]
        omega
      · rw [List.map_map]
        rfl
    | _ => cases h
  | reference size kind =>
    cases value with
    | uint n => exact spreads_of_isWord (String.toList_ofList ▸ isWord_decimal n.toNat) rfl
    | _ => cases h

end Scalar

end DatasetGrid
