import DatasetGrid.Scalar.Bytes

/-! # Bytes and their hexadecimal text

Words come back from a text that sets separators between them, and bytes from their words.
-/
namespace DatasetGrid

namespace Text

variable {separates : Char → Bool}

theorem wordsFrom_word {cs : List Char} (h : ∀ c ∈ cs, separates c = false)
    (current rest : List Char) :
    wordsFrom separates current (cs ++ rest) = wordsFrom separates (current ++ cs) rest := by
  induction cs generalizing current with
  | nil => rw [List.append_nil, List.nil_append]
  | cons c tail ih =>
    rw [List.cons_append, wordsFrom, h c List.mem_cons_self]
    simp only [Bool.false_eq_true, if_false]
    rw [ih fun c hc => h c (List.mem_cons_of_mem _ hc), List.append_assoc, List.singleton_append]

theorem words_intercalate {separator : Char} (hseparator : separates separator = true)
    {ws : List (List Char)} (h : ∀ w ∈ ws, w ≠ [] ∧ ∀ c ∈ w, separates c = false) :
    words separates ([separator].intercalate ws) = ws := by
  induction ws with
  | nil => rfl
  | cons w rest ih =>
    rcases h w List.mem_cons_self with ⟨hne, hchars⟩
    have hothers := ih fun w hw => h w (List.mem_cons_of_mem _ hw)
    cases rest with
    | nil =>
      have hword := wordsFrom_word hchars [] []
      rw [List.append_nil, List.nil_append] at hword
      rw [List.intercalate_singleton, words, hword, wordsFrom, pendingWord, if_neg hne]
    | cons next rest =>
      rw [List.intercalate_cons_cons, words, List.append_assoc, wordsFrom_word hchars,
        List.nil_append, List.singleton_append, wordsFrom, if_pos hseparator, pendingWord,
        if_neg hne]
      exact congrArg (w :: ·) hothers

end Text

open Text

theorem digitOf_digitChar : ∀ d < 16, digitOf 16 (Nat.digitChar d) = some d := by
  decide

theorem separatesBytes_digitChar : ∀ d < 16, separatesBytes (Nat.digitChar d) = false := by
  decide

theorem exists_digitChar_of_mem_hexText {b : UInt8} {c : Char} (h : c ∈ hexText b) :
    ∃ d < 16, c = Nat.digitChar d := by
  have hlt : b.toNat < 256 := b.toNat_lt
  simp only [hexText, List.mem_cons, List.not_mem_nil, or_false] at h
  rcases h with rfl | rfl
  · exact ⟨b.toNat / 16, by omega, rfl⟩
  · exact ⟨b.toNat % 16, by omega, rfl⟩

theorem readByte?_hexText (b : UInt8) : readByte? (hexText b) = some b := by
  have hlt : b.toNat < 256 := b.toNat_lt
  have hvalue : b.toNat / 16 * 16 + b.toNat % 16 = b.toNat := by omega
  simp only [hexText, readByte?, digitOf_digitChar _ (show b.toNat / 16 < 16 by omega),
    digitOf_digitChar _ (show b.toNat % 16 < 16 by omega), bind, Option.bind, pure, hvalue]
  rw [UInt8.ofNat_toNat]

theorem mapM_readByte? (bs : List UInt8) : (bs.map hexText).mapM readByte? = some bs := by
  induction bs with
  | nil => rfl
  | cons b rest ih =>
    rw [List.map_cons, List.mapM_cons, readByte?_hexText, ih]
    rfl

theorem toList_bytesText (separator : Char) (bs : List UInt8) :
    (bytesText (.singleton separator) (.bytes bs)).toList =
      [separator].intercalate (bs.map hexText) := by
  simp [bytesText, String.toList_intercalate, Function.comp_def]

theorem words_bytesText (separator : Char) (hseparator : separatesBytes separator = true)
    (bs : List UInt8) :
    words separatesBytes (bytesText (.singleton separator) (.bytes bs)).toList =
      bs.map hexText := by
  rw [toList_bytesText]
  apply words_intercalate hseparator
  intro w hw
  rcases List.mem_map.mp hw with ⟨b, -, rfl⟩
  refine ⟨by simp [hexText], fun c hc => ?_⟩
  rcases exists_digitChar_of_mem_hexText hc with ⟨d, hd, rfl⟩
  exact separatesBytes_digitChar d hd

theorem parseBytes_bytesText_eq (separator : Char) (hseparator : separatesBytes separator = true)
    (size : Nat) (bs : List UInt8) :
    let text := bytesText (.singleton separator) (.bytes bs)
    parseBytes size text =
      if bs.length = size then .ok bs else .error (.malformedBytes text size) := by
  intro text
  simp only [parseBytes, text, words_bytesText separator hseparator, List.length_map,
    mapM_readByte?]

theorem parseBytes_bytesText (separator : Char) (hseparator : separatesBytes separator = true)
    (bs : List UInt8) :
    parseBytes bs.length (bytesText (.singleton separator) (.bytes bs)) = .ok bs :=
  (parseBytes_bytesText_eq separator hseparator bs.length bs).trans (if_pos rfl)

end DatasetGrid
