import DatasetGrid.Editor.Edit
import DatasetGrid.Editor.Render

/-! # The length of stored texts

Stored bytes decode to characters of as many bytes, and to a mark of three bytes for each ill-formed
stretch of one to three. So the text of a fixed-length cell outgrows the cell by what the marks add,
as far as blanks dropped at the end and bytes left over do not make up for it.
-/
namespace DatasetGrid

namespace Text

def byteLength : List Char → Nat
  | [] => 0
  | c :: cs => c.utf8Size + byteLength cs

theorem byteLength_append (cs ds : List Char) :
    byteLength (cs ++ ds) = byteLength cs + byteLength ds := by
  induction cs with
  | nil => exact (Nat.zero_add _).symm
  | cons c cs ih => rw [List.cons_append, byteLength, byteLength, ih, Nat.add_assoc]

theorem byteLength_reverse (cs : List Char) : byteLength cs.reverse = byteLength cs := by
  induction cs with
  | nil => rfl
  | cons c cs ih =>
    rw [List.reverse_cons, byteLength_append, ih, byteLength, byteLength, byteLength]
    omega

theorem utf8ByteSize_ofList (cs : List Char) : (String.ofList cs).utf8ByteSize = byteLength cs := by
  induction cs with
  | nil => rfl
  | cons c cs ih =>
    have hsplit : String.ofList (c :: cs) = String.singleton c ++ String.ofList cs := by
      rw [String.singleton_eq_ofList, ← String.ofList_append]
      rfl
    rw [hsplit, String.utf8ByteSize_append, String.utf8ByteSize_singleton, ih, byteLength]

theorem byteLength_trimRight (cs : List Char) :
    byteLength (trimRight cs) + byteLength (cs.reverse.takeWhile isBlank) = byteLength cs := by
  rw [trimRight, byteLength_reverse, Nat.add_comm, ← byteLength_append,
    List.takeWhile_append_dropWhile, byteLength_reverse]

namespace Utf8

def marks (bytes : List UInt8) : Nat :=
  (decodeFrom none bytes).count none

/-- The bytes outside well-formed characters. -/
def stray (bytes : List UInt8) : Nat :=
  bytes.length - byteLength ((decodeFrom none bytes).filterMap id)

/-- What the marks add to the bytes that they stand for. -/
def growth (bytes : List UInt8) : Nat :=
  3 * marks bytes - stray bytes

def padding (bytes : List UInt8) : Nat :=
  byteLength ((decode bytes).reverse.takeWhile isBlank)

/-- A character under way after so many bytes: the range of the next byte keeps the code to the
codes of that many bytes, surrogates left out. -/
inductive Underway : Pending → Nat → Prop
  | ofTwo (code : Nat) : 2 ≤ code → code < 0x20 → Underway ⟨1, code, 0x80, 0xBF⟩ 1
  | ofThree (code : Nat) : code < 0x10 →
      Underway ⟨2, code, if code = 0 then 0xA0 else 0x80, if code = 0xD then 0x9F else 0xBF⟩ 1
  | ofThreeLast (code : Nat) : 0x20 ≤ code → code < 0x400 → ¬ (0x360 ≤ code ∧ code < 0x380) →
      Underway ⟨1, code, 0x80, 0xBF⟩ 2
  | ofFour (code : Nat) : code ≤ 4 →
      Underway ⟨3, code, if code = 0 then 0x90 else 0x80, if code = 4 then 0x8F else 0xBF⟩ 1
  | ofFourThird (code : Nat) : 0x10 ≤ code → code < 0x110 → Underway ⟨2, code, 0x80, 0xBF⟩ 2
  | ofFourLast (code : Nat) : 0x400 ≤ code → code < 0x4400 → Underway ⟨1, code, 0x80, 0xBF⟩ 3

theorem toNat_ofNat {n : Nat} (h : n < 0xD800 ∨ 0xDFFF < n ∧ n < 0x110000) :
    (Char.ofNat n).val.toNat = n := by
  have hvalid : n.isValidChar := h
  rw [Char.ofNat, dif_pos hvalid]
  rfl

theorem utf8Size_ofNat {n : Nat} (h : n < 0xD800 ∨ 0xDFFF < n ∧ n < 0x110000) :
    (Char.ofNat n).utf8Size =
      if n < 0x80 then 1 else if n < 0x800 then 2 else if n < 0x10000 then 3 else 4 := by
  have hn := toNat_ofNat h
  have hone : (Char.ofNat n).val ≤ 0x7F ↔ n ≤ 0x7F := by rw [UInt32.le_iff_toNat_le, hn]; rfl
  have htwo : (Char.ofNat n).val ≤ 0x7FF ↔ n ≤ 0x7FF := by rw [UInt32.le_iff_toNat_le, hn]; rfl
  have hthree : (Char.ofNat n).val ≤ 0xFFFF ↔ n ≤ 0xFFFF := by
    rw [UInt32.le_iff_toNat_le, hn]
    rfl
  have hsize : (Char.ofNat n).utf8Size = if (Char.ofNat n).val ≤ 0x7F then 1
      else if (Char.ofNat n).val ≤ 0x7FF then 2
      else if (Char.ofNat n).val ≤ 0xFFFF then 3 else 4 := rfl
  simp only [hsize, hone, htwo, hthree, ← Nat.lt_succ_iff]

section Start

variable {b : Nat}

theorem start_one (h : b < 0x80) : start b = ([some (.ofNat b)], none) := by
  rw [start, Pending.first, if_pos h]
  rfl

theorem start_two (hleast : 0xC2 ≤ b) (hmost : b < 0xE0) :
    start b = ([], some ⟨1, b - 0xC0, 0x80, 0xBF⟩) := by
  rw [start, Pending.first, if_neg (by omega), if_neg (by omega), if_pos hmost]
  rfl

theorem start_three (hleast : 0xE0 ≤ b) (hmost : b < 0xF0) :
    start b = ([], some ⟨2, b - 0xE0, if b - 0xE0 = 0 then 0xA0 else 0x80,
      if b - 0xE0 = 0xD then 0x9F else 0xBF⟩) := by
  have hfirst : b = 0xE0 ↔ b - 0xE0 = 0 := by omega
  have hsurrogate : b = 0xED ↔ b - 0xE0 = 0xD := by omega
  rw [start, Pending.first, if_neg (by omega), if_neg (by omega), if_neg (by omega), if_pos hmost]
  simp only [hfirst, hsurrogate]
  rfl

theorem start_four (hleast : 0xF0 ≤ b) (hmost : b < 0xF5) :
    start b = ([], some ⟨3, b - 0xF0, if b - 0xF0 = 0 then 0x90 else 0x80,
      if b - 0xF0 = 4 then 0x8F else 0xBF⟩) := by
  have hfirst : b = 0xF0 ↔ b - 0xF0 = 0 := by omega
  have hlast : b = 0xF4 ↔ b - 0xF0 = 4 := by omega
  rw [start, Pending.first, if_neg (by omega), if_neg (by omega), if_neg (by omega),
    if_neg (by omega), if_pos hmost]
  simp only [hfirst, hlast]
  rfl

/-- A first byte is ill-formed, a character by itself, or the start of one. -/
theorem start_cases (b : Nat) :
    start b = ([none], none) ∨ (∃ c : Char, start b = ([some c], none) ∧ c.utf8Size = 1) ∨
      ∃ p, start b = ([], some p) ∧ Underway p 1 := by
  by_cases hone : b < 0x80
  · refine .inr (.inl ⟨_, start_one hone, ?_⟩)
    rw [utf8Size_ofNat (by omega), if_pos hone]
  by_cases hlow : b < 0xC2
  · exact .inl (by rw [start, Pending.first, if_neg hone, if_pos hlow])
  by_cases htwo : b < 0xE0
  · exact .inr (.inr ⟨_, start_two (by omega) htwo, .ofTwo _ (by omega) (by omega)⟩)
  by_cases hthree : b < 0xF0
  · exact .inr (.inr ⟨_, start_three (by omega) hthree, .ofThree _ (by omega)⟩)
  by_cases hfour : b < 0xF5
  · exact .inr (.inr ⟨_, start_four (by omega) hfour, .ofFour _ (by omega)⟩)
  · exact .inl (by rw [start, Pending.first, if_neg hone, if_neg hlow, if_neg htwo,
      if_neg hthree, if_neg hfour])

end Start

/-- A byte in the range ends the character, which has as many bytes, or leads on. -/
theorem settle_cases {p : Pending} {held b : Nat} (h : Underway p held) (hlow : p.low ≤ b)
    (hhigh : b ≤ p.high) :
    let next : Pending := { owed := p.owed - 1, code := p.code * 64 + b % 64 }
    (∃ c : Char, next.settle = ([some c], none) ∧ c.utf8Size = held + 1) ∨
      ∃ q, next.settle = ([], some q) ∧ Underway q (held + 1) := by
  cases h with
  | ofTwo code hleast hgreatest =>
    refine .inl ⟨.ofNat (code * 64 + b % 64), rfl, ?_⟩
    rw [utf8Size_ofNat (by omega), if_neg (by omega), if_pos (by omega)]
  | ofThree code hgreatest =>
    -- The shorter forms and the surrogates are out of the range of the second byte.
    have hrange : 0x20 ≤ code * 64 + b % 64 ∧ code * 64 + b % 64 < 0x400 ∧
        ¬ (0x360 ≤ code * 64 + b % 64 ∧ code * 64 + b % 64 < 0x380) := by
      dsimp only at hlow hhigh
      split at hlow <;> split at hhigh <;> omega
    exact .inr ⟨_, rfl, .ofThreeLast _ hrange.1 hrange.2.1 hrange.2.2⟩
  | ofThreeLast code hleast hgreatest hsurrogate =>
    refine .inl ⟨.ofNat (code * 64 + b % 64), rfl, ?_⟩
    rw [utf8Size_ofNat (by omega), if_neg (by omega), if_neg (by omega), if_pos (by omega)]
  | ofFour code hgreatest =>
    have hrange : 0x10 ≤ code * 64 + b % 64 ∧ code * 64 + b % 64 < 0x110 := by
      dsimp only at hlow hhigh
      split at hlow <;> split at hhigh <;> omega
    exact .inr ⟨_, rfl, .ofFourThird _ hrange.1 hrange.2⟩
  | ofFourThird code hleast hgreatest =>
    have hrange : 0x400 ≤ code * 64 + b % 64 ∧ code * 64 + b % 64 < 0x4400 := by omega
    exact .inr ⟨_, rfl, .ofFourLast _ hrange.1 hrange.2⟩
  | ofFourLast code hleast hgreatest =>
    refine .inl ⟨.ofNat (code * 64 + b % 64), rfl, ?_⟩
    rw [utf8Size_ofNat (by omega), if_neg (by omega), if_neg (by omega), if_neg (by omega)]

/-- The items account for so many bytes: each character for its own, each mark for one to three. -/
def Accounts (items : List (Option Char)) (bytes : Nat) : Prop :=
  ∃ stray, byteLength (items.filterMap id) + stray = bytes ∧ items.count none ≤ stray ∧
    stray ≤ 3 * items.count none

theorem Accounts.char {items : List (Option Char)} {c : Char} {bytes : Nat}
    (h : Accounts items bytes) : Accounts (some c :: items) (c.utf8Size + bytes) := by
  obtain ⟨stray, hbytes, hleast, hmost⟩ := h
  refine ⟨stray, ?_, by simpa using hleast, by simpa using hmost⟩
  have hitems : (some c :: items).filterMap id = c :: items.filterMap id := rfl
  rw [hitems, byteLength, Nat.add_assoc, hbytes]

theorem Accounts.mark {items : List (Option Char)} {bytes held : Nat} (h : Accounts items bytes)
    (hpos : 1 ≤ held) (hmost : held ≤ 3) : Accounts (none :: items) (held + bytes) := by
  obtain ⟨stray, hbytes, hleast, hstray⟩ := h
  refine ⟨held + stray, ?_, ?_, ?_⟩
  · rw [List.filterMap_cons_none rfl]
    omega
  · rw [List.count_cons_self]
    omega
  · rw [List.count_cons_self]
    omega

theorem Underway.held {p : Pending} {held : Nat} (h : Underway p held) : 1 ≤ held ∧ held ≤ 3 := by
  cases h <;> decide

inductive HoldsBack : Option Pending → Nat → Prop
  | none : HoldsBack none 0
  | some (p : Pending) (held : Nat) : Underway p held → HoldsBack (some p) held

theorem decodeFrom_accounts {state : Option Pending} {held : Nat} (h : HoldsBack state held)
    (bytes : List UInt8) : Accounts (decodeFrom state bytes) (held + bytes.length) := by
  -- What a state holds back counts as read, so the count stays general.
  induction bytes generalizing state held with
  | nil =>
    cases h with
    | none => exact ⟨0, rfl, Nat.le_refl _, Nat.le_refl _⟩
    | some p held hp =>
      have hempty : Accounts [] 0 := ⟨0, rfl, Nat.le_refl _, Nat.le_refl _⟩
      exact hempty.mark hp.held.1 hp.held.2
  | cons b rest ih =>
    have hstart : Accounts ((start b.toNat).1 ++ decodeFrom (start b.toNat).2 rest)
        (1 + rest.length) := by
      rcases start_cases b.toNat with hill | ⟨c, hchar, hsize⟩ | ⟨p, hopen, hp⟩
      · have hrest := ih .none
        rw [Nat.zero_add] at hrest
        rw [hill]
        exact hrest.mark (Nat.le_refl 1) (by decide)
      · have hrest := ih .none
        rw [Nat.zero_add] at hrest
        rw [hchar, ← hsize]
        exact hrest.char
      · rw [hopen]
        exact ih (.some p 1 hp)
    rw [List.length_cons, Nat.add_comm rest.length]
    cases h with
    | none =>
      rw [Nat.zero_add]
      exact hstart
    | some p held hp =>
      rw [decodeFrom, step]
      by_cases hrange : p.low ≤ b.toNat ∧ b.toNat ≤ p.high
      · rw [if_pos hrange, ← Nat.add_assoc]
        rcases settle_cases hp hrange.1 hrange.2 with ⟨c, hchar, hsize⟩ | ⟨q, hopen, hq⟩
        · have hrest := ih .none
          rw [Nat.zero_add] at hrest
          rw [hchar, ← hsize]
          exact hrest.char
        · rw [hopen]
          exact ih (.some q (held + 1) hq)
      · rw [if_neg hrange]
        exact hstart.mark hp.held.1 hp.held.2

theorem stray_spec (bytes : List UInt8) :
    byteLength ((decodeFrom none bytes).filterMap id) + stray bytes = bytes.length ∧
      marks bytes ≤ stray bytes ∧ stray bytes ≤ 3 * marks bytes := by
  obtain ⟨left, hbytes, hleast, hmost⟩ := decodeFrom_accounts .none bytes
  rw [Nat.zero_add] at hbytes
  have hstray : stray bytes = left := by
    rw [stray]
    omega
  rw [hstray]
  exact ⟨hbytes, hleast, hmost⟩

theorem byteLength_getD_mark (items : List (Option Char)) :
    byteLength (items.map (·.getD '\uFFFD')) =
      byteLength (items.filterMap id) + 3 * items.count none := by
  induction items with
  | nil => rfl
  | cons item items ih =>
    cases item with
    | none =>
      have hmark : ('\uFFFD' : Char).utf8Size = 3 := rfl
      rw [List.map_cons, byteLength, ih, List.filterMap_cons_none rfl, List.count_cons_self,
        Option.getD_none, hmark]
      omega
    | some c =>
      have hitems : (some c :: items).filterMap id = c :: items.filterMap id := rfl
      rw [List.map_cons, byteLength, ih, hitems, byteLength,
        List.count_cons_of_ne (Option.some_ne_none c), Option.getD_some, Nat.add_assoc]

/-- The characters take as many bytes as they are read from, and what the marks add. -/
theorem byteLength_decode (bytes : List UInt8) :
    byteLength (decode bytes) = bytes.length + growth bytes := by
  have hmarked := byteLength_getD_mark (decodeFrom none bytes)
  obtain ⟨hbytes, -, hmost⟩ := stray_spec bytes
  rw [marks] at hmost
  rw [decode, hmarked, growth, marks]
  omega

/-- A mark stands for one byte at least. -/
theorem growth_le (bytes : List UInt8) : growth bytes ≤ 2 * marks bytes := by
  have hleast := (stray_spec bytes).2.1
  rw [growth]
  omega

theorem decodeFrom_first {b : Nat} (hb : b < 256) (rest : List UInt8) :
    decodeFrom none (.ofNat b :: rest) = (start b).1 ++ decodeFrom (start b).2 rest := by
  rw [decodeFrom, step, UInt8.toNat_ofNat_of_lt' hb]

section Next

variable {code low high b : Nat} (hlow : low ≤ b) (hhigh : b ≤ high) (hb : b < 256)
  (rest : List UInt8)

include hlow hhigh hb

theorem decodeFrom_last : decodeFrom (some ⟨1, code, low, high⟩) (.ofNat b :: rest) =
    some (.ofNat (code * 64 + b % 64)) :: decodeFrom none rest := by
  rw [decodeFrom, step, UInt8.toNat_ofNat_of_lt' hb, if_pos ⟨hlow, hhigh⟩]
  rfl

theorem decodeFrom_more (owed : Nat) :
    decodeFrom (some ⟨owed + 2, code, low, high⟩) (.ofNat b :: rest) =
      decodeFrom (some ⟨owed + 1, code * 64 + b % 64, 0x80, 0xBF⟩) rest := by
  rw [decodeFrom, step, UInt8.toNat_ofNat_of_lt' hb, if_pos ⟨hlow, hhigh⟩]
  rfl

end Next

theorem decodeFrom_encode (c : Char) (rest : List UInt8) :
    decodeFrom none (String.utf8EncodeChar c ++ rest) = some c :: decodeFrom none rest := by
  obtain ⟨v, hv⟩ : ∃ v, c.val.toNat = v := ⟨_, rfl⟩
  have hvalid : v < 0xD800 ∨ 0xDFFF < v ∧ v < 0x110000 := hv ▸ c.valid
  have hchar {code : Nat} (hcode : code = v) : Char.ofNat code = c := by
    rw [hcode, ← hv]
    exact Char.ofNat_toNat c
  simp only [String.utf8EncodeChar, hv]
  by_cases hone : v ≤ 0x7F
  · rw [if_pos hone, List.cons_append, decodeFrom_first (by omega), start_one (by omega),
      hchar rfl]
    rfl
  by_cases htwo : v ≤ 0x7FF
  · rw [if_neg hone, if_pos htwo, List.cons_append, decodeFrom_first (by omega),
      start_two (by omega) (by omega), List.nil_append, List.cons_append,
      decodeFrom_last (by omega) (by omega) (by omega), hchar (by omega)]
    rfl
  by_cases hthree : v ≤ 0xFFFF
  · -- The second byte keeps to the range that the first one leaves.
    have hlow : (if v / 4096 % 0x10 + 0xE0 - 0xE0 = 0 then 0xA0 else 0x80) ≤
        v / 64 % 0x40 + 0x80 := by split <;> omega
    have hhigh : v / 64 % 0x40 + 0x80 ≤
        if v / 4096 % 0x10 + 0xE0 - 0xE0 = 0xD then 0x9F else 0xBF := by split <;> omega
    rw [if_neg hone, if_neg htwo, if_pos hthree, List.cons_append, decodeFrom_first (by omega),
      start_three (by omega) (by omega), List.nil_append, List.cons_append,
      decodeFrom_more hlow hhigh (by omega), List.cons_append,
      decodeFrom_last (by omega) (by omega) (by omega), hchar (by omega)]
    rfl
  · have hlow : (if v / 262144 % 0x08 + 0xF0 - 0xF0 = 0 then 0x90 else 0x80) ≤
        v / 4096 % 0x40 + 0x80 := by split <;> omega
    have hhigh : v / 4096 % 0x40 + 0x80 ≤
        if v / 262144 % 0x08 + 0xF0 - 0xF0 = 4 then 0x8F else 0xBF := by split <;> omega
    rw [if_neg hone, if_neg htwo, if_neg hthree, List.cons_append, decodeFrom_first (by omega),
      start_four (by omega) (by omega), List.nil_append, List.cons_append,
      decodeFrom_more hlow hhigh (by omega), List.cons_append,
      decodeFrom_more (by omega) (by omega) (by omega), List.cons_append,
      decodeFrom_last (by omega) (by omega) (by omega), hchar (by omega)]
    rfl

theorem decodeFrom_encodeAll (cs : List Char) :
    decodeFrom none (cs.flatMap String.utf8EncodeChar) = cs.map some := by
  induction cs with
  | nil => rfl
  | cons c cs ih => rw [List.flatMap_cons, decodeFrom_encode, ih, List.map_cons]

theorem decode_encodeAll (cs : List Char) : decode (cs.flatMap String.utf8EncodeChar) = cs := by
  rw [decode, decodeFrom_encodeAll, List.map_map]
  exact List.map_id' cs

theorem decode?_encodeAll (cs : List Char) :
    decode? (cs.flatMap String.utf8EncodeChar) = some cs := by
  rw [decode?, decodeFrom_encodeAll]
  induction cs with
  | nil => rfl
  | cons c cs ih =>
    rw [List.map_cons, List.mapM_cons, ih]
    rfl

theorem growth_encodeAll (cs : List Char) : growth (cs.flatMap String.utf8EncodeChar) = 0 := by
  have hmarks : marks (cs.flatMap String.utf8EncodeChar) = 0 := by
    rw [marks, decodeFrom_encodeAll, List.count_eq_zero]
    simp
  have hle := growth_le (cs.flatMap String.utf8EncodeChar)
  omega

end Utf8

end Text

open Text

/-- The bytes that a stored text is read from. -/
def keptBytes (bytes : List UInt8) : List UInt8 :=
  bytes.takeWhile (· != 0)

theorem utf8ByteSize_storedText (bytes : List UInt8) :
    (storedText bytes).utf8ByteSize + Utf8.padding (keptBytes bytes) =
      (keptBytes bytes).length + Utf8.growth (keptBytes bytes) := by
  rw [storedText, utf8ByteSize_ofList, Utf8.padding, ← keptBytes, byteLength_trimRight,
    Utf8.byteLength_decode]

/-- The text of a fixed-length cell has the bytes in front of the first NUL and what the marks add
to them, less the blanks at the end, and is accepted exactly when this is no more than the cell
holds. Of well-formed bytes it is always accepted. -/
theorem fixedString_accepts_shown {n : Nat} {bytes : List UInt8} (h : bytes.length ≤ n) {σ : Type}
    (d : Display σ) (state : σ) :
    let editor := Editor.scalar (.string (.fixed n))
    let text := ((editor.render d 0 (.bytes bytes)).run state).1
    let kept := keptBytes bytes
    text.utf8ByteSize + Utf8.padding kept = kept.length + Utf8.growth kept ∧
    Utf8.growth kept ≤ 2 * Utf8.marks kept ∧
    (editor.check 0 text = .ok () ↔ kept.length + Utf8.growth kept ≤ n + Utf8.padding kept) ∧
    (n < text.utf8ByteSize →
      editor.check 0 text = .error (.stringTooLong (text.utf8ByteSize - n))) ∧
    ∀ cs : List Char, kept = cs.flatMap String.utf8EncodeChar →
      text = .ofList (trimRight cs) ∧ editor.check 0 text = .ok () := by
  intro editor text kept
  have htext : text = storedText bytes := rfl
  have hsize : text.utf8ByteSize + Utf8.padding kept = kept.length + Utf8.growth kept :=
    utf8ByteSize_storedText bytes
  have hcheck : editor.check 0 text =
      if n < text.utf8ByteSize then .error (.stringTooLong (text.utf8ByteSize - n))
      else .ok () := rfl
  have haccepts : editor.check 0 text = .ok () ↔
      kept.length + Utf8.growth kept ≤ n + Utf8.padding kept := by
    rw [hcheck]
    by_cases hlong : n < text.utf8ByteSize
    · rw [if_pos hlong]
      refine ⟨fun hok => ?_, fun hle => ?_⟩
      · cases hok
      · omega
    · rw [if_neg hlong]
      refine ⟨fun _ => ?_, fun _ => rfl⟩
      omega
  refine ⟨hsize, Utf8.growth_le kept, haccepts, fun hlong => hcheck.trans (if_pos hlong), ?_⟩
  intro cs hcs
  have hkept : kept.length ≤ n :=
    Nat.le_trans (List.takeWhile_prefix _).length_le h
  refine ⟨?_, haccepts.mpr ?_⟩
  · have hdecode : Utf8.decode kept = cs := by rw [hcs, Utf8.decode_encodeAll]
    rw [htext, storedText, ← keptBytes, hdecode]
  · have hgrowth : Utf8.growth kept = 0 := by rw [hcs, Utf8.growth_encodeAll]
    omega

/-- A torn character of two bytes shows as a mark of three, and fits once the blank behind it is
dropped; the same bytes by themselves do not. -/
theorem fixedString_accepts_shown_torn :
    let editor (n : Nat) := Editor.scalar (.string (.fixed n))
    let text (n : Nat) (bytes : List UInt8) :=
      (((editor n).render Display.plain 0 (.bytes bytes)).run ()).1
    [0xE2, 0x82, 0x20, 0x00].length ≤ 4 ∧
    (editor 4).check 0 (text 4 [0xE2, 0x82, 0x20, 0x00]) = .ok () ∧
    (editor 2).check 0 (text 2 [0xE2, 0x82]) = .error (.stringTooLong 1) ∧
    (editor 2).check 0 (text 2 [0xC3, 0xA9]) = .ok () := by
  intro editor text
  obtain ⟨-, -, hpadded, -, -⟩ := fixedString_accepts_shown
    (show [(0xE2 : UInt8), 0x82, 0x20, 0x00].length ≤ 4 by decide) Display.plain ()
  obtain ⟨-, -, -, hlong, -⟩ := fixedString_accepts_shown
    (show [(0xE2 : UInt8), 0x82].length ≤ 2 by decide) Display.plain ()
  obtain ⟨-, -, -, -, hwell⟩ := fixedString_accepts_shown
    (show [(0xC3 : UInt8), 0xA9].length ≤ 2 by decide) Display.plain ()
  refine ⟨by decide, hpadded.mpr (by decide +kernel), hlong (by decide +kernel), ?_⟩
  exact (hwell ['é'] (by decide +kernel)).2

/-- One ill-formed byte fills a cell of one byte, and its mark does not fit. -/
theorem fixedString_refuses_mark :
    [(0xFF : UInt8)].length ≤ 1 ∧
    (((Editor.scalar (.string (.fixed 1))).render Display.plain 0 (.bytes [0xFF])).run ()).1 =
      "\uFFFD" ∧
    (Editor.scalar (.string (.fixed 1))).check 0 "\uFFFD" = .error (.stringTooLong 2) :=
  ⟨by decide, by decide +kernel, rfl⟩

end DatasetGrid
