import DatasetGrid.Proofs.Numerals
import DatasetGrid.Toml.Document

/-! # Documents written line by line

A line of a written document is blank, names a table, or gives an entry a value. Reading takes such
lines one by one, and each does to what is read so far what it says. So a sheet of entries with one
table behind them is read as what it says.
-/
namespace DatasetGrid.Toml

open Text

/-- A value that is written without anything inside it. -/
inductive Literal where
  | boolean (b : Bool)
  | count (n : Nat)
  | word (s : String)

inductive Line where
  | blank
  | entry (name : String) (literal : Literal)
  | header (name : String)

namespace Literal

def text : Literal → List Char
  | .boolean b => (toString b).toList
  | .count n => decimal n
  | .word s => '"' :: (s.toList ++ ['"'])

def value : Literal → Value
  | .boolean b => .boolean b
  | .count n => .integer n
  | .word s => .text s

/-- Counts have to fit 64 bits with a sign, and words have to do without escapes. -/
def isWritable : Literal → Bool
  | .boolean _ => true
  | .count n => n < 2 ^ 63
  | .word s => s.toList.all fun c => isPlain c && c != '"' && c != '\\'

end Literal

def isBareName (name : String) : Bool :=
  !name.toList.isEmpty && name.toList.all isKeyChar

namespace Line

def text : Line → List Char
  | .blank => ['\n']
  | .entry name literal => name.toList ++ ' ' :: '=' :: ' ' :: (literal.text ++ ['\n'])
  | .header name => '[' :: (name.toList ++ [']', '\n'])

def isWritable : Line → Bool
  | .blank => true
  | .entry name literal => isBareName name && literal.isWritable
  | .header name => isBareName name

/-- What a line does to what is read so far. -/
def advance? (p : Progress) : Line → Option Progress
  | .blank => some p
  | .entry name literal => p.add ⟨[], name⟩ literal.value
  | .header name => (Entries.openTable [] name p.root).map fun root => ⟨root, [name]⟩

end Line

variable {c : Char} {cs rest : List Char} {name : String} {literal : Literal} {n : Nat}

/-! ### Values -/

theorem ne_of_isKeyChar {d : Char} (hc : isKeyChar c = true) (hd : isKeyChar d = false) :
    c ≠ d := by
  rintro rfl
  rw [hc] at hd
  cases hd

theorem isKeyChar_of_isDigit (h : c.isDigit = true) : isKeyChar c = true := by
  simp [isKeyChar, Char.isAlphanum, h]

theorem grouped?_digits (hne : cs ≠ []) (h : ∀ c ∈ cs, c.isDigit = true) :
    grouped? Char.isDigit cs = some cs := by
  induction cs with
  | nil => exact absurd rfl hne
  | cons c rest ih =>
    have hc := h c List.mem_cons_self
    cases rest with
    | nil => rw [grouped?, if_pos hc]
    | cons d rest =>
      have hd : d ≠ '_' := by
        rintro rfl
        exact absurd (h '_' (List.mem_cons_of_mem _ List.mem_cons_self)) (by decide)
      have hrest := ih (List.cons_ne_nil d rest) fun c hc => h c (List.mem_cons_of_mem _ hc)
      rw [grouped?, if_pos hc, if_neg hd, hrest]
      rfl

theorem wholeDigits?_decimal (n : Nat) : wholeDigits? (decimal n) = some (decimal n) := by
  have hdigits := grouped?_digits (decimal_ne_nil n) fun c hc => isDigit_of_mem_decimal hc
  have hlead : ¬ ((decimal n).head? = some '0' ∧ decimal n ≠ ['0']) := by
    rintro ⟨hhead, hne⟩
    rw [eq_zero_of_decimal_head? hhead] at hne
    exact hne rfl
  simp [wholeDigits?, hdigits, hlead]

theorem readDecimalInteger?_decimal (h : n < 2 ^ 63) :
    readDecimalInteger? (decimal n) = some (n : Int) := by
  have hsign : splitSign (decimal n) = (false, decimal n) := by
    rw [splitSign, if_neg (decimal_head?_ne (by decide)), if_neg (decimal_head?_ne (by decide))]
  have hread : readDecimalInteger? (decimal n) = (wholeDigits? (decimal n)).bind fun digits =>
      word? (if false = true then -(Number.digitsValue digits : Int)
        else Number.digitsValue digits) := by
    rw [readDecimalInteger?, hsign]
    rfl
  have hvalue : Number.digitsValue (decimal n) = n := Nat.ofDigitChars_ten_toDigits
  rw [hread, wholeDigits?_decimal, Option.bind_some, hvalue, if_neg Bool.false_ne_true, word?,
    if_pos (by omega)]

/-- A decimal has no letter behind its first digit, which would name another base. -/
theorem readInteger?_decimal (h : n < 2 ^ 63) : readInteger? (decimal n) = some (n : Int) := by
  have hsecond {c d : Char} {rest : List Char} (hcs : decimal n = c :: d :: rest) :
      d.isDigit = true :=
    isDigit_of_mem_decimal (hcs ▸ List.mem_cons_of_mem _ List.mem_cons_self)
  rw [readInteger?.eq_def]
  split
  · rename_i hcs
    exact absurd (hsecond hcs) (by decide)
  · rename_i hcs
    exact absurd (hsecond hcs) (by decide)
  · rename_i hcs
    exact absurd (hsecond hcs) (by decide)
  · exact readDecimalInteger?_decimal h

theorem bareValue?_decimal (h : n < 2 ^ 63) : bareValue? (decimal n) = some (.integer n) := by
  have hne {word : List Char} (hword : ∃ c ∈ word, c.isDigit = false) : decimal n ≠ word := by
    rintro rfl
    obtain ⟨c, hc, hdigit⟩ := hword
    rw [isDigit_of_mem_decimal hc] at hdigit
    cases hdigit
  rw [bareValue?, if_neg (hne ⟨'t', by decide⟩), if_neg (hne ⟨'f', by decide⟩)]
  simp only [readInteger?_decimal h]

theorem readValue_bare {value : Value} (hne : cs ≠ []) (hchars : ∀ c ∈ cs, isKeyChar c = true)
    (hvalue : bareValue? cs = some value) (depth : Nat) (rest : List Char) :
    readValue depth (cs ++ '\n' :: rest) = some (value, '\n' :: rest) := by
  have hbare : ∀ c ∈ cs, isBareChar c = true := by
    intro c hc
    rw [isBareChar, hchars c hc]
    rfl
  have hend : ∀ c ∈ ('\n' :: rest).head?, isBareChar c = false := by
    rintro c ⟨⟩
    decide
  have hread : readBare (cs ++ '\n' :: rest) = some (value, '\n' :: rest) := by
    simp [readBare, takeWhile_run hbare hend, dropWhile_run hbare hend, hvalue]
  have hhead {c : Char} (hc : isKeyChar c = false) : (cs ++ '\n' :: rest).head? ≠ some c := by
    obtain ⟨first, others, rfl⟩ := List.exists_cons_of_ne_nil hne
    rw [List.cons_append, List.head?_cons, ne_eq, Option.some_inj]
    exact ne_of_isKeyChar (hchars first List.mem_cons_self) hc
  rw [readValue.eq_def]
  dsimp only
  rw [if_neg, if_neg (hhead (by decide)), if_neg (hhead (by decide)), hread]
  rintro (hquote | hquote)
  · exact hhead (by decide) hquote
  · exact hhead (by decide) hquote

theorem readBasic_word (h : ∀ c ∈ cs, isPlain c = true ∧ c ≠ '"' ∧ c ≠ '\\') (rest : List Char) :
    readBasic .plain (cs ++ '"' :: rest) = some (cs, rest) := by
  induction cs with
  | nil => rw [List.nil_append, readBasic, if_pos rfl]
  | cons c cs ih =>
    obtain ⟨hplain, hquote, hescape⟩ := h c List.mem_cons_self
    rw [List.cons_append, readBasic, if_neg hquote, if_neg hescape, if_pos hplain,
      ih fun c hc => h c (List.mem_cons_of_mem _ hc)]
    rfl

theorem readString_word (h : ∀ c ∈ cs, isPlain c = true ∧ c ≠ '"' ∧ c ≠ '\\') (rest : List Char) :
    readString ('"' :: (cs ++ '"' :: '\n' :: rest)) = some (cs, '\n' :: rest) := by
  have hbasic := readBasic_word h ('\n' :: rest)
  cases cs with
  | nil => exact hbasic
  | cons c cs =>
    have hquote := (h c List.mem_cons_self).2.1
    rw [← hbasic]
    simp [readString, hquote]

theorem Literal.readValue_text (h : literal.isWritable = true) (depth : Nat) (rest : List Char) :
    readValue depth (literal.text ++ '\n' :: rest) = some (literal.value, '\n' :: rest) := by
  cases literal with
  | boolean b =>
    have hchars : (boolean b).text.all isKeyChar = true := by cases b <;> decide
    cases b with
    | false => exact readValue_bare (by decide) (List.all_eq_true.mp hchars) rfl depth rest
    | true => exact readValue_bare (by decide) (List.all_eq_true.mp hchars) rfl depth rest
  | count n =>
    apply readValue_bare (decimal_ne_nil n)
    · exact fun c hc => isKeyChar_of_isDigit (isDigit_of_mem_decimal hc)
    · exact bareValue?_decimal (of_decide_eq_true h)
  | word s =>
    have hword : ∀ c ∈ s.toList, isPlain c = true ∧ c ≠ '"' ∧ c ≠ '\\' := by
      simpa [isWritable, and_assoc] using h
    have htext : (word s).text ++ '\n' :: rest = '"' :: (s.toList ++ '"' :: '\n' :: rest) := by
      simp [text]
    rw [htext, readValue.eq_def]
    dsimp only
    rw [List.head?_cons, if_pos (Or.inl rfl), readString_word hword, Option.map_some,
      String.ofList_toList]
    rfl

theorem Literal.text_head? (literal : Literal) :
    ∀ c ∈ literal.text.head?, c ≠ ' ' ∧ c ≠ '\t' := by
  intro c hc
  cases literal with
  | boolean b =>
    cases b with
    | false =>
      cases hc
      decide
    | true =>
      cases hc
      decide
  | count n =>
    have hdigit := isDigit_of_mem_decimal (List.mem_of_mem_head? hc)
    have hkey := isKeyChar_of_isDigit hdigit
    exact ⟨ne_of_isKeyChar hkey (by decide), ne_of_isKeyChar hkey (by decide)⟩
  | word s =>
    cases hc
    decide

/-! ### Lines -/

theorem skipSpaces_of_head? (h : ∀ c ∈ cs.head?, c ≠ ' ' ∧ c ≠ '\t') : skipSpaces cs = cs := by
  cases cs with
  | nil => rfl
  | cons c cs =>
    obtain ⟨hspace, htab⟩ := h c rfl
    simp [skipSpaces, hspace, htab]

theorem isBareName_iff : isBareName name = true ↔
    name.toList ≠ [] ∧ ∀ c ∈ name.toList, isKeyChar c = true := by
  simp [isBareName]

theorem exists_bareName_cons (h : isBareName name = true) :
    ∃ c cs, name.toList = c :: cs ∧ isKeyChar c = true := by
  obtain ⟨hne, hchars⟩ := isBareName_iff.mp h
  obtain ⟨c, cs, hname⟩ := List.exists_cons_of_ne_nil hne
  exact ⟨c, cs, hname, hchars c (hname ▸ List.mem_cons_self)⟩

theorem readName_bare (h : isBareName name = true)
    (hrest : ∀ c ∈ rest.head?, isKeyChar c = false) :
    readName (name.toList ++ rest) = some (name.toList, rest) := by
  obtain ⟨hne, hchars⟩ := isBareName_iff.mp h
  have hbare : readName (name.toList ++ rest) =
      let cs := name.toList ++ rest
      if cs.takeWhile isKeyChar = [] then none
      else some (cs.takeWhile isKeyChar, cs.dropWhile isKeyChar) := by
    obtain ⟨c, others, hname, hc⟩ := exists_bareName_cons h
    rw [hname, List.cons_append, readName.eq_def]
    split
    · rename_i hquote
      exact absurd (List.cons.inj hquote).1 (ne_of_isKeyChar hc (by decide))
    · rename_i hquote
      exact absurd (List.cons.inj hquote).1 (ne_of_isKeyChar hc (by decide))
    · rfl
  rw [hbare]
  simp only [takeWhile_run hchars hrest, dropWhile_run hchars hrest, if_neg hne]

theorem readKey_bare (h : isBareName name = true)
    (hrest : ∀ c ∈ rest.head?, isKeyChar c = false) (hdot : (skipSpaces rest).head? ≠ some '.') :
    readKey (name.toList ++ rest) = some (⟨[], name⟩, skipSpaces rest) := by
  obtain ⟨c, others, hname, hc⟩ := exists_bareName_cons h
  have hskip : skipSpaces (name.toList ++ rest) = name.toList ++ rest := by
    apply skipSpaces_of_head?
    rw [hname]
    rintro _ ⟨⟩
    exact ⟨ne_of_isKeyChar hc (by decide), ne_of_isKeyChar hc (by decide)⟩
  have hnames (fuel : Nat) : readNames (fuel + 1) (name.toList ++ rest) =
      some ([name], skipSpaces rest) := by
    rw [readNames, hskip, readName_bare h hrest]
    simp only
    split
    · rename_i hcs
      rw [hcs] at hdot
      exact absurd rfl hdot
    · rw [String.ofList_toList]
  have hlength : (name.toList ++ rest).length = (others ++ rest).length + 1 := by
    rw [hname]
    rfl
  rw [readKey, hlength, hnames]
  rfl

theorem finishLine?_newline (rest : List Char) : finishLine? ('\n' :: rest) = some rest :=
  rfl

theorem readAssignment_entry (hname : isBareName name = true) (hliteral : literal.isWritable = true)
    (p : Progress) (rest : List Char) :
    readAssignment p ((Line.entry name literal).text ++ rest) =
      (p.add ⟨[], name⟩ literal.value).map (·, rest) := by
  have hkey : readKey (name.toList ++ ' ' :: '=' :: ' ' :: (literal.text ++ '\n' :: rest)) =
      some (⟨[], name⟩, '=' :: ' ' :: (literal.text ++ '\n' :: rest)) :=
    readKey_bare hname (by rintro c ⟨⟩; decide) (by simp [skipSpaces])
  have hspaces : skipSpaces (' ' :: (literal.text ++ '\n' :: rest)) =
      literal.text ++ '\n' :: rest := by
    have hhead : ∀ c ∈ (literal.text ++ '\n' :: rest).head?, c ≠ ' ' ∧ c ≠ '\t' := by
      intro c hc
      rw [List.head?_append, Option.mem_def, Option.or_eq_some_iff] at hc
      rcases hc with hc | ⟨-, hc⟩
      · exact literal.text_head? c hc
      · cases hc
        decide
    have hspace : skipSpaces (' ' :: (literal.text ++ '\n' :: rest)) =
        skipSpaces (literal.text ++ '\n' :: rest) := rfl
    rw [hspace, skipSpaces_of_head? hhead]
  have hpair : readPair (readValue (nestingLimit - 1)) ((Line.entry name literal).text ++ rest) =
      some ((⟨[], name⟩, literal.value), '\n' :: rest) := by
    have htext : (Line.entry name literal).text ++ rest =
        name.toList ++ ' ' :: '=' :: ' ' :: (literal.text ++ '\n' :: rest) := by
      simp [Line.text]
    rw [htext, readPair, hkey]
    simp only [hspaces, literal.readValue_text hliteral, Option.map_some]
  have hread : readAssignment p ((Line.entry name literal).text ++ rest) =
      (p.add ⟨[], name⟩ literal.value).bind fun next =>
        (finishLine? ('\n' :: rest)).bind fun rest => some (next, rest) := by
    rw [readAssignment, hpair]
    rfl
  rw [hread, finishLine?_newline]
  cases p.add ⟨[], name⟩ literal.value with
  | none => rfl
  | some next => rfl

/-- A line that begins with a character of a name is an assignment. -/
theorem readStatements_keyChar (hc : isKeyChar c = true) (fuel : Nat) (p : Progress)
    (rest : List Char) :
    readStatements (fuel + 1) p (c :: rest) =
      (readAssignment p (c :: rest)).bind fun r => readStatements fuel r.1 r.2 := by
  have hspaces : skipSpaces (c :: rest) = c :: rest := by
    apply skipSpaces_of_head?
    rintro _ ⟨⟩
    exact ⟨ne_of_isKeyChar hc (by decide), ne_of_isKeyChar hc (by decide)⟩
  have hother : ¬ (c = '#' ∨ c = '\n' ∨ c = '\r') := by
    rintro (rfl | rfl | rfl) <;> exact absurd hc (by decide)
  rw [readStatements, hspaces]
  split
  · rename_i hnil
    cases hnil
  · rename_i hheader
    exact absurd (List.cons.inj hheader).1 (ne_of_isKeyChar hc (by decide))
  · rename_i hcons
    obtain ⟨rfl, rfl⟩ := List.cons.inj hcons
    rw [if_neg hother]
    cases readAssignment p (c :: rest) with
    | none => rfl
    | some r => rfl

theorem readHeader_name (h : isBareName name = true) (p : Progress) (rest : List Char) :
    readHeader p (name.toList ++ ']' :: '\n' :: rest) =
      (Entries.openTable [] name p.root).map fun root => (⟨root, [name]⟩, rest) := by
  have hkey : readKey (name.toList ++ ']' :: '\n' :: rest) =
      some (⟨[], name⟩, ']' :: '\n' :: rest) :=
    readKey_bare h (by rintro c ⟨⟩; decide) (by simp [skipSpaces])
  obtain ⟨c, others, hname, hc⟩ := exists_bareName_cons h
  rw [readHeader.eq_def]
  split
  · rename_i hcs
    rw [hname, List.cons_append, List.cons.injEq] at hcs
    exact absurd hcs.1 (ne_of_isKeyChar hc (by decide))
  · rw [hkey]
    simp only
    cases Entries.openTable [] name p.root with
    | none => rfl
    | some root => rfl

/-- A line that is written does to what is read what it says, and leaves the lines behind it. -/
theorem Line.readStatements_text {line : Line} (h : line.isWritable = true) (fuel : Nat)
    (p : Progress) (rest : List Char) :
    readStatements (fuel + 1) p (line.text ++ rest) =
      (line.advance? p).bind fun p => readStatements fuel p rest := by
  cases line with
  | blank => rfl
  | entry name literal =>
    simp only [isWritable, Bool.and_eq_true] at h
    have hread := readAssignment_entry h.1 h.2 p rest
    obtain ⟨c, others, hname, hc⟩ := exists_bareName_cons h.1
    obtain ⟨tail, htext⟩ : ∃ tail, (entry name literal).text ++ rest = c :: tail := by
      rw [text, hname]
      exact ⟨_, rfl⟩
    rw [htext] at hread ⊢
    rw [readStatements_keyChar hc, hread, advance?]
    cases p.add ⟨[], name⟩ literal.value with
    | none => rfl
    | some next => rfl
  | header name =>
    have htext : (header name).text ++ rest = '[' :: (name.toList ++ ']' :: '\n' :: rest) := by
      simp [text]
    have hspaces : skipSpaces ('[' :: (name.toList ++ ']' :: '\n' :: rest)) =
        '[' :: (name.toList ++ ']' :: '\n' :: rest) := rfl
    rw [htext, readStatements, hspaces]
    simp only [readHeader_name h, advance?]
    cases Entries.openTable [] name p.root with
    | none => rfl
    | some root => rfl

/-- No line is empty, and none begins with a byte order mark. -/
theorem Line.exists_text_cons {line : Line} (h : line.isWritable = true) :
    ∃ c cs, line.text = c :: cs ∧ c ≠ '\uFEFF' := by
  cases line with
  | blank => exact ⟨'\n', [], rfl, by decide⟩
  | entry name literal =>
    simp only [isWritable, Bool.and_eq_true] at h
    obtain ⟨c, others, hname, hc⟩ := exists_bareName_cons h.1
    rw [text, hname]
    exact ⟨c, _, rfl, ne_of_isKeyChar hc (by decide)⟩
  | header name => exact ⟨'[', _, rfl, by decide⟩

theorem length_le_length_flatMap {lines : List Line} (h : ∀ line ∈ lines, line.isWritable = true) :
    lines.length ≤ (lines.flatMap Line.text).length := by
  induction lines with
  | nil => exact Nat.le_refl _
  | cons line lines ih =>
    obtain ⟨c, cs, htext, -⟩ := Line.exists_text_cons (h line List.mem_cons_self)
    have hlines := ih fun line hline => h line (List.mem_cons_of_mem _ hline)
    rw [List.flatMap_cons, htext, List.length_append, List.length_cons, List.length_cons]
    omega

/-- Written lines do one after the other what they say, and the whole is read if they can. -/
theorem readStatements_lines {lines : List Line} (h : ∀ line ∈ lines, line.isWritable = true)
    {fuel : Nat} (hfuel : lines.length < fuel) (p : Progress) :
    readStatements fuel p (lines.flatMap Line.text) =
      (lines.foldlM Line.advance? p).map (·.root) := by
  -- Each line takes one step, and the end of the text one more.
  obtain ⟨fuel, rfl⟩ := Nat.exists_eq_add_one_of_ne_zero (Nat.ne_zero_of_lt hfuel)
  induction lines generalizing fuel p with
  | nil => rfl
  | cons line lines ih =>
    rw [List.flatMap_cons, Line.readStatements_text (h line List.mem_cons_self), List.foldlM_cons]
    cases line.advance? p with
    | none => rfl
    | some next =>
      rw [List.length_cons] at hfuel
      obtain ⟨fuel, rfl⟩ := Nat.exists_eq_add_one_of_ne_zero (by omega : fuel ≠ 0)
      exact ih (fun line hline => h line (List.mem_cons_of_mem _ hline)) next fuel (by omega)

/-- What a document of written lines says is what its lines make of nothing, one after the other. -/
theorem read?_lines {lines : List Line} (h : ∀ line ∈ lines, line.isWritable = true) :
    read? (lines.flatMap Line.text) =
      (lines.foldlM Line.advance? ⟨[], []⟩).map fun p => recordOf p.root := by
  have hmark : (lines.flatMap Line.text).head? ≠ some '\uFEFF' := by
    cases lines with
    | nil => rintro ⟨⟩
    | cons line lines =>
      obtain ⟨c, cs, htext, hc⟩ := Line.exists_text_cons (h line List.mem_cons_self)
      rw [List.flatMap_cons, htext, List.cons_append, List.head?_cons, ne_eq, Option.some_inj]
      exact hc
  have hfuel : lines.length < (lines.flatMap Line.text).length + 1 :=
    Nat.lt_succ_of_le (length_le_length_flatMap h)
  simp only [read?, if_neg hmark]
  rw [readStatements_lines h hfuel, Option.map_map]
  rfl

/-! ### Entries and tables -/

def linesOf (entries : List (String × Literal)) : List Line :=
  entries.map fun entry => .entry entry.1 entry.2

def nodesOf (entries : List (String × Literal)) : Entries :=
  entries.map fun entry => (entry.1, .value entry.2.value)

def valuesOf (entries : List (String × Literal)) : List (String × Value) :=
  entries.map fun entry => (entry.1, entry.2.value)

/-- Entries that can be written, each under a name of its own. -/
structure AreWritable (entries : List (String × Literal)) : Prop where
  lines : ∀ line ∈ linesOf entries, line.isWritable = true
  distinct : (entries.map Prod.fst).Nodup

variable {entries : List (String × Literal)} {root before inner : Entries} {table : String}

namespace AreWritable

theorem nil : AreWritable [] where
  lines := by simp [linesOf]
  distinct := .nil

theorem cons (hname : isBareName name = true) (hliteral : literal.isWritable = true)
    (hnew : name ∉ entries.map Prod.fst) (h : AreWritable entries) :
    AreWritable ((name, literal) :: entries) where
  lines := by
    rw [linesOf, List.map_cons, List.forall_mem_cons]
    exact ⟨Bool.and_eq_true_iff.mpr ⟨hname, hliteral⟩, h.lines⟩
  distinct := List.nodup_cons.mpr ⟨hnew, h.distinct⟩

end AreWritable

theorem recordOf_append (first second : Entries) :
    recordOf (first ++ second) = recordOf first ++ recordOf second := by
  induction first with
  | nil => rfl
  | cons entry first ih => rw [List.cons_append, recordOf, ih, recordOf, List.cons_append]

theorem recordOf_nodesOf (entries : List (String × Literal)) :
    recordOf (nodesOf entries) = valuesOf entries := by
  induction entries with
  | nil => rfl
  | cons entry entries ih =>
    rw [nodesOf, List.map_cons, recordOf, ← nodesOf, ih, Node.toValue]
    rfl

namespace Entries

theorem insert_new (h : inner.lookup name = none) (value : Value) (origin : Origin) :
    inner.insert [] name value origin = some (inner ++ [(name, .value value)]) := by
  simp [insert, alter, h]

theorem lookup_last (h : before.lookup table = none) (node : Node) :
    (before ++ [(table, node)]).lookup table = some node := by
  rw [List.lookup_append, h]
  simp

theorem replace_last (h : before.lookup table = none) (node other : Node) :
    Entries.replace (before ++ [(table, node)]) table other = before ++ [(table, other)] := by
  have hkeep : before.replace table other = before := by
    apply (List.map_congr_left _).trans (List.map_id before)
    intro entry hentry
    have hkey := List.lookup_eq_none_iff.mp h entry hentry
    rw [if_neg, id]
    rintro rfl
    simp at hkey
  have hlast : Entries.replace [(table, node)] table other = [(table, other)] := by
    simp [replace]
  calc
    Entries.replace (before ++ [(table, node)]) table other =
        before.replace table other ++ Entries.replace [(table, node)] table other :=
      List.map_append
    _ = before ++ [(table, other)] := by rw [hkeep, hlast]

end Entries

namespace Line

theorem advance?_entry (h : root.lookup name = none) :
    advance? ⟨root, []⟩ (.entry name literal) =
      some ⟨root ++ [(name, .value literal.value)], []⟩ := by
  rw [advance?, Progress.add, Entries.alter, Entries.insert_new h, Option.map_some]

theorem advance?_header (h : root.lookup table = none) (place : List String) :
    advance? ⟨root, place⟩ (.header table) =
      some ⟨root ++ [(table, .table .header [])], [table]⟩ := by
  simp [advance?, Entries.openTable, Entries.alter, h]

theorem advance?_entry_table (hroot : before.lookup table = none) (h : inner.lookup name = none) :
    advance? ⟨before ++ [(table, .table .header inner)], [table]⟩ (.entry name literal) =
      some ⟨before ++ [(table, .table .header (inner ++ [(name, .value literal.value)]))],
        [table]⟩ := by
  rw [advance?, Progress.add, Entries.alter, Entries.lookup_last hroot]
  simp [Entries.alter, Entries.insert_new h, Entries.replace_last hroot]

end Line

/-- New entries are put behind those that the table at hand has, wherever that table stands. -/
theorem foldlM_linesOf {place : Entries → Progress}
    (hplace : ∀ inner name literal, inner.lookup name = none →
      Line.advance? (place inner) (.entry name literal) =
        some (place (inner ++ [(name, .value literal.value)])))
    (hdistinct : (entries.map Prod.fst).Nodup)
    (hnew : ∀ entry ∈ entries, inner.lookup entry.1 = none) :
    (linesOf entries).foldlM Line.advance? (place inner) =
      some (place (inner ++ nodesOf entries)) := by
  induction entries generalizing inner with
  | nil =>
    rw [nodesOf, List.map_nil, List.append_nil]
    rfl
  | cons entry entries ih =>
    rw [List.map_cons, List.nodup_cons] at hdistinct
    have hrest : ∀ other ∈ entries,
        (inner ++ [(entry.1, Node.value entry.2.value)]).lookup other.1 = none := by
      intro other hother
      have hne : other.1 ≠ entry.1 := by
        intro hsame
        exact hdistinct.1 (hsame ▸ List.mem_map_of_mem hother)
      rw [List.lookup_append, hnew other (List.mem_cons_of_mem _ hother), Option.none_or,
        List.lookup_cons, beq_eq_false_iff_ne.mpr hne]
      rfl
    have hstep := hplace inner entry.1 entry.2 (hnew entry List.mem_cons_self)
    rw [linesOf, List.map_cons, List.foldlM_cons, hstep]
    exact (ih hdistinct.2 hrest).trans (by rw [List.append_assoc]; rfl)

theorem lookup_nodesOf (h : table ∉ entries.map Prod.fst) :
    (nodesOf entries).lookup table = none := by
  rw [List.lookup_eq_none_iff]
  intro node hnode
  obtain ⟨entry, hentry, rfl⟩ := List.mem_map.mp hnode
  rw [bne_iff_ne]
  rintro rfl
  exact h (List.mem_map_of_mem hentry)

/-- A document of entries, and of one table behind them. -/
structure Sheet where
  entries : List (String × Literal)
  table : String
  tableEntries : List (String × Literal)

namespace Sheet

def lines (sheet : Sheet) : List Line :=
  linesOf sheet.entries ++ [.blank, .header sheet.table] ++ linesOf sheet.tableEntries

def values (sheet : Sheet) : List (String × Value) :=
  valuesOf sheet.entries ++ [(sheet.table, .record (valuesOf sheet.tableEntries))]

structure IsWritable (sheet : Sheet) : Prop where
  entries : AreWritable sheet.entries
  table : isBareName sheet.table = true
  separate : sheet.table ∉ sheet.entries.map Prod.fst
  tableEntries : AreWritable sheet.tableEntries

theorem read?_lines {sheet : Sheet} (h : sheet.IsWritable) :
    read? (sheet.lines.flatMap Line.text) = some sheet.values := by
  have hbetween : ∀ line ∈ [Line.blank, .header sheet.table], line.isWritable = true := by
    simp [Line.isWritable, h.table]
  have hlines : ∀ line ∈ sheet.lines, line.isWritable = true := by
    rw [lines, List.forall_mem_append, List.forall_mem_append]
    exact ⟨⟨h.entries.lines, hbetween⟩, h.tableEntries.lines⟩
  have hentries : (linesOf sheet.entries).foldlM Line.advance? ⟨[], []⟩ =
      some ⟨nodesOf sheet.entries, []⟩ :=
    foldlM_linesOf (fun _ _ _ => Line.advance?_entry) h.entries.distinct fun _ _ => rfl
  have hseparate := lookup_nodesOf h.separate
  have hheader : [Line.blank, .header sheet.table].foldlM Line.advance?
      ⟨nodesOf sheet.entries, []⟩ =
      some ⟨nodesOf sheet.entries ++ [(sheet.table, .table .header [])], [sheet.table]⟩ := by
    rw [List.foldlM_cons, Line.advance?]
    simp only [Option.bind_eq_bind, Option.bind_some, List.foldlM_cons, List.foldlM_nil,
      Line.advance?_header hseparate]
    rfl
  have htable : (linesOf sheet.tableEntries).foldlM Line.advance?
      ⟨nodesOf sheet.entries ++ [(sheet.table, .table .header [])], [sheet.table]⟩ =
      some ⟨nodesOf sheet.entries ++ [(sheet.table, .table .header (nodesOf sheet.tableEntries))],
        [sheet.table]⟩ :=
    foldlM_linesOf (fun _ _ _ => Line.advance?_entry_table hseparate) h.tableEntries.distinct
      fun _ _ => rfl
  have hfold : sheet.lines.foldlM Line.advance? ⟨[], []⟩ =
      some ⟨nodesOf sheet.entries ++ [(sheet.table, .table .header (nodesOf sheet.tableEntries))],
        [sheet.table]⟩ := by
    rw [lines, List.foldlM_append, List.foldlM_append, hentries]
    simp only [Option.bind_eq_bind, Option.bind_some, hheader, htable]
  rw [Toml.read?_lines hlines, hfold, Option.map_some, recordOf_append, recordOf_nodesOf, recordOf,
    Node.toValue, recordOf_nodesOf]
  rfl

end Sheet

end DatasetGrid.Toml
