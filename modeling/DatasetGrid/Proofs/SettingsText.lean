import DatasetGrid.Proofs.Documents
import DatasetGrid.Proofs.StoredText
import DatasetGrid.Settings.File

/-! # Settings written and read back

The text of settings is a document of entries and one table. Reading it gives the values of both in
their order, and these are the settings that were written.
-/
namespace DatasetGrid

open Number Toml

theorem Toml.Value.count?_natCast {n : Nat} (h : n < 2 ^ 64) : count? (.integer n) = some n := by
  rw [count?, if_pos (by omega), Int.toNat_natCast]

namespace Number.NumberFormat

def entries : NumberFormat → List (String × Literal)
  | .plain => [("kind", .word "plain")]
  | .scientific precision => [("kind", .word "scientific"), ("precision", .count precision)]
  | .fixed decimals => [("kind", .word "fixed"), ("decimals", .count decimals)]

def isWritable : NumberFormat → Bool
  | .plain => true
  | .scientific count | .fixed count => count < 2 ^ 63

theorem toList_formatLines (format : NumberFormat) :
    (Settings.formatLines format).toList = (linesOf format.entries).flatMap Line.text := by
  cases format with
  | plain => rfl
  | scientific precision =>
    have htext : Settings.formatLines (.scientific precision) =
        "kind = \"scientific\"\nprecision = " ++ toString precision ++ "\n" := rfl
    rw [htext]
    simp [entries, linesOf, Line.text, Literal.text, Text.decimal]
  | fixed decimals =>
    have htext : Settings.formatLines (.fixed decimals) =
        "kind = \"fixed\"\ndecimals = " ++ toString decimals ++ "\n" := rfl
    rw [htext]
    simp [entries, linesOf, Line.text, Literal.text, Text.decimal]

theorem areWritable_entries {format : NumberFormat} (h : format.isWritable = true) :
    AreWritable format.entries := by
  cases format with
  | plain => exact .cons (by decide) (by decide) (by simp) .nil
  | scientific precision =>
    have hcount : AreWritable [("precision", .count precision)] :=
      .cons (by decide) h (by simp) .nil
    exact .cons (by decide) (by decide) (by simp) hcount
  | fixed decimals =>
    have hcount : AreWritable [("decimals", .count decimals)] :=
      .cons (by decide) h (by simp) .nil
    exact .cons (by decide) (by decide) (by simp) hcount

theorem ofValue?_values {format : NumberFormat} (h : format.isWritable = true) :
    ofValue? (.record (valuesOf format.entries)) = some format := by
  cases format with
  | plain => rfl
  | scientific precision =>
    have hcount := Value.count?_natCast (Nat.lt_trans (of_decide_eq_true h) (by decide))
    have hread : ofValue? (.record (valuesOf (entries (.scientific precision)))) =
        (((valuesOf (entries (.scientific precision))).lookup "precision").bind
          Value.count?).map .scientific := rfl
    have hlookup : (valuesOf (entries (.scientific precision))).lookup "precision" =
        some (.integer precision) := rfl
    rw [hread, hlookup, Option.bind_some, hcount, Option.map_some]
  | fixed decimals =>
    have hcount := Value.count?_natCast (Nat.lt_trans (of_decide_eq_true h) (by decide))
    have hread : ofValue? (.record (valuesOf (entries (.fixed decimals)))) =
        (((valuesOf (entries (.fixed decimals))).lookup "decimals").bind
          Value.count?).map .fixed := rfl
    have hlookup : (valuesOf (entries (.fixed decimals))).lookup "decimals" =
        some (.integer decimals) := rfl
    rw [hread, hlookup, Option.bind_some, hcount, Option.map_some]

end Number.NumberFormat

namespace Settings

variable {s : Settings}

/-- Settings as a document: the number format has a table of its own. -/
def sheet (s : Settings) : Sheet where
  entries := [("convert_enum_names", .boolean s.convertEnumNames),
    ("index_base", .count s.indexBase), ("read_only", .boolean s.readOnly)]
  table := "number_format"
  tableEntries := s.numberFormat.entries

theorem toList_text (s : Settings) : s.text.toList = s.sheet.lines.flatMap Line.text := by
  have htext : s.text = "convert_enum_names = " ++ toString s.convertEnumNames ++ "\n" ++
      "index_base = " ++ toString s.indexBase ++ "\n" ++
      "read_only = " ++ toString s.readOnly ++ "\n\n" ++
      "[number_format]\n" ++ formatLines s.numberFormat := rfl
  rw [htext]
  simp [sheet, Sheet.lines, linesOf, NumberFormat.toList_formatLines, Line.text, Literal.text,
    Text.decimal]

theorem isWritable_sheet (hbase : s.indexBase ≤ 1) (hformat : s.numberFormat.isWritable = true) :
    s.sheet.IsWritable where
  entries := by
    have hcount : (Literal.count s.indexBase).isWritable = true := decide_eq_true (by omega)
    apply AreWritable.cons (by decide) rfl (by simp)
    apply AreWritable.cons (by decide) hcount (by simp)
    exact .cons (by decide) rfl (by simp) .nil
  table := by
    change isBareName "number_format" = true
    decide
  separate := by simp [sheet]
  tableEntries := NumberFormat.areWritable_entries hformat

theorem settingOf_of_lookup {α : Type} {entries : List (String × Value)} {name : String}
    {value : Value} (h : entries.lookup name = some value) (default : α)
    (read : Value → Option α) : settingOf entries name default read = read value := by
  rw [settingOf, h]

theorem ofEntries?_values (hbase : s.indexBase ≤ 1) (hformat : s.numberFormat.isWritable = true) :
    ofEntries? s.sheet.values = some s := by
  have hconvert : s.sheet.values.lookup "convert_enum_names" =
      some (.boolean s.convertEnumNames) := rfl
  have hnumber : s.sheet.values.lookup "number_format" =
      some (.record (valuesOf s.numberFormat.entries)) := rfl
  have hindex : s.sheet.values.lookup "index_base" = some (.integer s.indexBase) := rfl
  have hreadOnly : s.sheet.values.lookup "read_only" = some (.boolean s.readOnly) := rfl
  have hcount : Value.count? (.integer s.indexBase) = some s.indexBase :=
    Value.count?_natCast (by omega)
  rw [ofEntries?, settingOf_of_lookup hconvert, settingOf_of_lookup hnumber,
    settingOf_of_lookup hindex, settingOf_of_lookup hreadOnly,
    NumberFormat.ofValue?_values hformat, hcount]
  rfl

theorem ofText_text (hbase : s.indexBase ≤ 1) (hformat : s.numberFormat.isWritable = true) :
    ofText s.text = .ok s := by
  have hread : read? s.text.toList = some s.sheet.values := by
    rw [toList_text, Sheet.read?_lines (isWritable_sheet hbase hformat)]
  rw [ofText, hread, Option.bind_some, ofEntries?_values hbase hformat]
  exact if_neg (by omega)

theorem isWritable_eq (s : Settings) : s.isWritable = s.numberFormat.isWritable := by
  obtain ⟨convert, format, base, readOnly⟩ := s
  cases format <;> rfl

theorem toText_writable (hbase : s.indexBase ≤ 1) (hformat : s.numberFormat.isWritable = true) :
    s.toText = .ok s.text := by
  have hchecked : s.checked = .ok s := if_neg (by omega)
  have hwritable : s.isWritable = true := s.isWritable_eq.trans hformat
  have hstep : s.toText = s.checked.bind fun s =>
      if s.isWritable then .ok s.text else .error .unwritable := rfl
  rw [hstep, hchecked]
  exact if_pos hwritable

theorem toFile_writable (hbase : s.indexBase ≤ 1) (hformat : s.numberFormat.isWritable = true) :
    s.toFile = .ok (s.text.toList.flatMap String.utf8EncodeChar) := by
  rw [toFile, toText_writable hbase hformat]
  rfl

theorem ofFile_encoded (text : String) :
    ofFile (some (text.toList.flatMap String.utf8EncodeChar)) = ofText text := by
  rw [ofFile, Option.bind_some, Text.Utf8.decode?_encodeAll]
  simp only [String.ofList_toList]

theorem indexBase_le_of_ofText {text : String} {loaded : Settings}
    (h : ofText text = .ok loaded) : loaded.indexBase ≤ 1 := by
  rw [ofText] at h
  split at h
  · cases h
  · rw [checked] at h
    split at h
    · cases h
    · cases h
      omega

theorem indexBase_le_of_ofFile {content : Option (List UInt8)} {loaded : Settings}
    (h : ofFile content = .ok loaded) : loaded.indexBase ≤ 1 := by
  rw [ofFile] at h
  split at h
  · cases h
  · exact indexBase_le_of_ofText h

/-- Settings that can be written are read back as they were, from their text and from the file that
they are saved in. An index base past one is refused when the settings are written, and never comes
out when a text or a file is read. -/
theorem toText_loads (s : Settings) :
    (s.indexBase ≤ 1 →
      (∀ n, s.numberFormat = .scientific n ∨ s.numberFormat = .fixed n → n < 2 ^ 63) →
      (∃ text, s.toText = .ok text ∧ ofText text = .ok s ∧
        ofFile (some (text.toList.flatMap String.utf8EncodeChar)) = .ok s) ∧
      ∃ content, s.toFile = .ok content ∧ ofFile (some content) = .ok s) ∧
    (1 < s.indexBase → s.toText = .error (.invalidIndexBase s.indexBase) ∧
      s.toFile = .error (.invalidIndexBase s.indexBase)) ∧
    (∀ text loaded, ofText text = .ok loaded → loaded.indexBase ≤ 1) ∧
    ∀ content loaded, ofFile content = .ok loaded → loaded.indexBase ≤ 1 := by
  refine ⟨fun hbase hcount => ?_, fun hbase => ?_, fun text loaded h => indexBase_le_of_ofText h,
    fun content loaded h => indexBase_le_of_ofFile h⟩
  · have hformat : s.numberFormat.isWritable = true := by
      cases hkind : s.numberFormat with
      | plain => rfl
      | scientific precision => exact decide_eq_true (hcount precision (.inl hkind))
      | fixed decimals => exact decide_eq_true (hcount decimals (.inr hkind))
    have hread := ofText_text hbase hformat
    have hfile := (ofFile_encoded s.text).trans hread
    exact ⟨⟨s.text, toText_writable hbase hformat, hread, hfile⟩, _, toFile_writable hbase hformat,
      hfile⟩
  · have htext : s.toText = .error (.invalidIndexBase s.indexBase) := by
      rw [toText, checked, if_pos hbase]
      rfl
    refine ⟨htext, ?_⟩
    rw [toFile, htext]
    rfl

/-- The largest count that can be written, in the settings that differ most from the defaults. -/
theorem toText_loads_largest :
    (∃ text, toText ⟨true, .scientific 9223372036854775807, 1, true⟩ = .ok text ∧
      ofText text = .ok ⟨true, .scientific 9223372036854775807, 1, true⟩) ∧
    (∃ content, toFile ⟨true, .scientific 9223372036854775807, 1, true⟩ = .ok content ∧
      ofFile (some content) = .ok ⟨true, .scientific 9223372036854775807, 1, true⟩) ∧
    toText ⟨false, .plain, 2, false⟩ = .error (.invalidIndexBase 2) ∧
    toFile ⟨false, .plain, 2, false⟩ = .error (.invalidIndexBase 2) ∧
    (∃ loaded, ofText "" = .ok loaded ∧ loaded.indexBase ≤ 1) ∧
    ∃ loaded, ofFile (some []) = .ok loaded ∧ loaded.indexBase ≤ 1 := by
  have hcount (n : Nat) (h : NumberFormat.scientific 9223372036854775807 = .scientific n ∨
      NumberFormat.scientific 9223372036854775807 = .fixed n) : n < 2 ^ 63 := by
    rcases h with h | h
    · cases h
      decide
    · cases h
  have hempty : ofText "" = .ok ⟨false, .plain, 0, false⟩ := rfl
  have hemptyFile : ofFile (some []) = .ok ⟨false, .plain, 0, false⟩ := rfl
  have hlargest := toText_loads ⟨true, .scientific 9223372036854775807, 1, true⟩
  have hinvalid := toText_loads ⟨false, .plain, 2, false⟩
  obtain ⟨⟨text, hwrite, hread, -⟩, hfile⟩ := hlargest.1 (by decide) hcount
  obtain ⟨htext, hrefused⟩ := hinvalid.2.1 (by decide)
  exact ⟨⟨text, hwrite, hread⟩, hfile, htext, hrefused, ⟨_, hempty, hinvalid.2.2.1 _ _ hempty⟩,
    _, hemptyFile, hinvalid.2.2.2 _ _ hemptyFile⟩

example : text ⟨true, .fixed 3, 1, false⟩ = "convert_enum_names = true\nindex_base = 1\n" ++
    "read_only = false\n\n[number_format]\nkind = \"fixed\"\ndecimals = 3\n" := by
  decide +kernel

end Settings

end DatasetGrid
