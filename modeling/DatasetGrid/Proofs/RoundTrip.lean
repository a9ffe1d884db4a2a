import DatasetGrid.Editor.Edit
import DatasetGrid.Proofs.Build
import DatasetGrid.Proofs.Entries
import DatasetGrid.Proofs.ScalarRoundTrip

/-! # Cells read back from their texts

A value of an exact datatype shows by a text from which its editor reads the value again. Inside
lists the text is an entry, so that arrays, sequences and compounds, in any nesting, read their
elements and members back one by one.
-/
namespace DatasetGrid

open Token

namespace Datatype

theorem leavesAt_ne_nil {type : Datatype} (h : type.isExact = true) (path : String) (node : Nat) :
    type.leavesAt path node ≠ [] := by
  induction type generalizing path node with
  | compound members ih =>
    cases members with
    | nil => cases h
    | cons m rest =>
      simp only [isExact, areExact, Bool.and_eq_true] at h
      rw [leavesAt, leavesUnder]
      exact List.append_ne_nil_of_left_ne_nil (ih m List.mem_cons_self h.2.1 _ _) _
  | _ => exact List.cons_ne_nil _ _

end Datatype

namespace Editor

theorem build_exact {members : List (Member Datatype)}
    (h : (Datatype.compound members).isExact = true) :
    build .all (.compound members) =
      .compound members (.build .all (members.map (·.type)))
        (members.map fun m => build .all m.type) :=
  build_compound_all (Datatype.leavesAt_ne_nil h "" 0)

end Editor

section Entries

variable {σ : Type}

/-- Elements shown one after the other are entries, whatever state each leaves behind. -/
theorem mapM_entries {editor : Editor} {element : Cell → StateM σ String} {items : List Cell}
    (h : ∀ item ∈ items, ∀ state, editor.Shows ((element item).run state).1 item) (state : σ) :
    ∃ entries : List Entry, (∀ entry ∈ entries, entry.editor = editor) ∧
      entries.map (·.value) = items ∧
      ((items.mapM element).run state).1 = entries.map (·.text) := by
  induction items generalizing state with
  | nil => exact ⟨[], by simp, rfl, rfl⟩
  | cons item rest ih =>
    rcases h item List.mem_cons_self state with ⟨entry, heditor, htext, hvalue⟩
    obtain ⟨entries, heditors, hvalues, htexts⟩ :=
      ih (fun item hitem => h item (List.mem_cons_of_mem _ hitem)) ((element item).run state).2
    refine ⟨entry :: entries, ?_, by rw [List.map_cons, hvalue, hvalues], ?_⟩
    · intro other hother
      rcases List.mem_cons.mp hother with rfl | hother
      · exact heditor
      · exact heditors other hother
    · rw [List.map_cons, htext, ← htexts, List.mapM_cons]
      rfl

theorem listText_entries {editor : Editor} {element : Cell → StateM σ String} {items : List Cell}
    (h : ∀ item ∈ items, ∀ state, editor.Shows ((element item).run state).1 item)
    (packed : Option Nat) (state : σ) :
    ∃ entries : List Entry, (∀ entry ∈ entries, entry.editor = editor) ∧
      entries.map (·.value) = items ∧
      ((listText packed element (.array items)).run state).1 = Entry.join entries := by
  rcases mapM_entries h state with ⟨entries, heditors, hvalues, htexts⟩
  refine ⟨entries, heditors, hvalues, ?_⟩
  rw [Entry.join, ← htexts]
  rfl

/-- The parts of a compound are entries of the members' editors. -/
theorem renderMembers_entries {d : Display σ} {editors : List Editor} {items : List Cell}
    (h : List.Forall₂ (fun editor item =>
      ∀ state, editor.Shows ((editor.render d 0 item).run state).1 item) editors items)
    (state : σ) :
    ∃ entries : List Entry, entries.map (·.editor) = editors ∧ entries.map (·.value) = items ∧
      ((Editor.renderMembers d editors items).run state).1 = entries.map (·.text) := by
  induction h generalizing state with
  | nil => exact ⟨[], rfl, rfl, rfl⟩
  | @cons editor item editors items hfirst _ ih =>
    rcases hfirst state with ⟨entry, heditor, htext, hvalue⟩
    rcases ih ((editor.render d 0 item).run state).2 with ⟨entries, heditors, hvalues, htexts⟩
    refine ⟨entry :: entries, by rw [List.map_cons, heditor, heditors],
      by rw [List.map_cons, hvalue, hvalues], ?_⟩
    rw [List.map_cons, htext, ← htexts, Editor.renderMembers]
    rfl

end Entries

namespace Editor

variable {σ : Type} {d : Display σ}

theorem shows_scalar {type : Scalar} {text : String} {value : Cell} (hspread : type.Spreads text)
    (h : type.holds value = true) (hread : type.parse text = .ok value) :
    (Editor.scalar type).Shows text value := by
  rcases hspread with ⟨ts, hlists, hlength, hjoin⟩
  have hpos := type.tokens_pos
  refine ⟨⟨.scalar type, text, value, ts, hlists, List.ne_nil_of_length_pos (by omega), hlength,
    hlength ▸ Scalar.tokens_le_extent h, ?_⟩, rfl, rfl, rfl⟩
  rw [parseElement, List.length_map, hlength, checkExactly, if_pos rfl, hjoin]
  exact hread

theorem shows_varString {length : StringLength} {s : String} (h : isWord s.toList = true) :
    (Editor.varString length).Shows s (.text s) := by
  refine ⟨⟨.varString length, s, .text s, [s.toList], .word h, List.cons_ne_nil _ _, rfl,
    Nat.le_refl 1, ?_⟩, rfl, rfl, rfl⟩
  rw [List.map_singleton, String.ofList_toList, parseElement, String.intercalate_singleton]
  rfl

/-- Entries have tokens side by side, as many as their values have parts at most. -/
theorem entries_tokens {entries : List Entry} (hne : entries ≠ []) :
    entries.flatMap (·.tokens) ≠ [] ∧
      (entries.flatMap (·.tokens)).length ≤ max 1 (Cell.extents (entries.map (·.value))) := by
  have hle := Entry.length_words_le entries
  rw [Entry.words, List.length_map] at hle
  refine ⟨?_, Nat.le_trans hle (Nat.le_max_right _ _)⟩
  cases entries with
  | nil => exact absurd rfl hne
  | cons entry rest =>
    rw [List.flatMap_cons]
    exact List.append_ne_nil_of_left_ne_nil entry.tokens_ne_nil _

theorem shows_array {base : Datatype} {dims : List Nat} {entries : List Entry}
    (hne : entries ≠ []) (heditors : ∀ entry ∈ entries, entry.editor = build .all base)
    (hlength : entries.length = arrayOrder dims)
    (hcount : (Entry.words entries).length < wordCount) :
    (build .all (.array base dims)).Shows (Entry.join entries)
      (.array (entries.map (·.value))) := by
  obtain ⟨htokens, hextent⟩ := entries_tokens hne
  refine ⟨⟨build .all (.array base dims), Entry.join entries, .array (entries.map (·.value)),
    entries.flatMap (·.tokens), Entry.lists_join entries, htokens, ?_, hextent, ?_⟩, rfl, rfl, rfl⟩
  · have hwords := Entry.length_words heditors
    rw [tokens_array, ← hlength, ← hwords, wrapped_of_lt hcount, Entry.words, List.length_map]
  · rw [build, parseElement]
    exact Entry.parseList_array heditors hlength hcount

/-- A whole array is read from the list of its elements, also when there is none in it. -/
theorem parse_array_join {base : Datatype} {dims : List Nat} {entries : List Entry}
    (heditors : ∀ entry ∈ entries, entry.editor = build .all base)
    (hlength : entries.length = arrayOrder dims)
    (hcount : (Entry.words entries).length < wordCount) (column : Nat) :
    (build .all (.array base dims)).parse column (Entry.join entries) =
      .ok (.array (entries.map (·.value))) := by
  rw [build, parse, ofArray, (Entry.lists_join entries).tokens_eq]
  exact Entry.parseList_array heditors hlength hcount

theorem toList_parenthesized (s : String) :
    ("(" ++ s ++ ")").toList = '(' :: (s.toList ++ [')']) := by
  simp [String.toList_append]

theorem ofSequence_join (entries : List Entry) :
    Token.ofSequence ("(" ++ Entry.join entries ++ ")") = Entry.words entries := by
  have hlists := Entry.lists_join entries
  rw [ofSequence, toList_parenthesized, stripGroup_parenthesized hlists.balanced,
    hlists.tokens_eq]
  rfl

theorem shows_sequence (base : Datatype) {element : Editor} {entries : List Entry}
    (heditors : ∀ entry ∈ entries, entry.editor = element) :
    (Editor.sequence base element).Shows ("(" ++ Entry.join entries ++ ")")
      (.array (entries.map (·.value))) := by
  have hlists := Lists.group (Entry.lists_join entries).balanced
  rw [← toList_parenthesized] at hlists
  refine ⟨⟨.sequence base element, _, _, _, hlists, List.cons_ne_nil _ _, rfl,
    Cell.extent_pos _, ?_⟩, rfl, rfl, rfl⟩
  rw [List.map_singleton, String.ofList_toList, parseElement, ofSequence_join]
  exact Entry.parseList_words none heditors (by simp)

theorem shows_compound (members : List (Member Datatype)) (map : ColumnMap)
    {entries : List Entry} (hne : entries ≠ [])
    (hcount : (Entry.words entries).length < wordCount) :
    (Editor.compound members map (entries.map (·.editor))).Shows
      ("[" ++ Entry.join entries ++ "]") (.compound (entries.map (·.value))) := by
  have hlists := (Entry.lists_join entries).bracketed
  have htext : ("[" ++ Entry.join entries ++ "]").toList =
      '[' :: ((Entry.join entries).toList ++ [']']) := by
    simp [String.toList_append]
  rw [← htext] at hlists
  obtain ⟨htokens, hextent⟩ := entries_tokens hne
  refine ⟨⟨.compound members map (entries.map (·.editor)), _, _, _, hlists, htokens, ?_, ?_, ?_⟩,
    rfl, rfl, rfl⟩
  · rw [tokens, Entry.totalTokens_eq hcount, Entry.words, List.length_map]
  · exact hextent
  · have hwords := Entry.parseMembers_words entries (totalTokens (entries.map (·.editor)))
      (Nat.zero_add _).symm
    rw [Entry.words] at hwords
    rw [parseElement, hwords]
    rfl

/-- What an array or a sequence shows, as entries of its elements' editor. -/
theorem listText_build {base : Datatype} {items : List Cell}
    (ih : ∀ item, base.holds item = true → item.fitsList = true → ∀ state,
      (build .all base).Shows (((build .all base).render d 0 item).run state).1 item)
    (h : (items.all fun item => base.holds item) = true)
    (hlist : (Cell.array items).fitsList = true) (state : σ) :
    ∃ entries : List Entry, (∀ entry ∈ entries, entry.editor = build .all base) ∧
      entries.map (·.value) = items ∧
      ((listText base.packedSize? (fun item => (build .all base).render d 0 item)
        (.array items)).run state).1 = Entry.join entries := by
  rw [Cell.fitsList, Bool.and_eq_true, decide_eq_true_eq] at hlist
  rw [List.all_eq_true] at h
  exact listText_entries
    (fun item hitem => ih item (h item hitem) (Cell.fitsList_of_mem hlist.1 hlist.2 hitem)) _ state

theorem members_show {members : List (Member Datatype)} {items : List Cell}
    (ih : ∀ m ∈ members, ∀ item, m.type.holds item = true → item.fitsList = true → ∀ state,
      (build .all m.type).Shows (((build .all m.type).render d 0 item).run state).1 item)
    (h : Datatype.holdsMembers members items = true)
    (hlist : ∀ item ∈ items, item.fitsList = true) :
    List.Forall₂ (fun editor item =>
      ∀ state, editor.Shows ((editor.render d 0 item).run state).1 item)
      (members.map fun m => build .all m.type) items := by
  induction members generalizing items with
  | nil =>
    cases items with
    | nil => exact .nil
    | cons item items => cases h
  | cons m rest ihrest =>
    cases items with
    | nil => cases h
    | cons item items =>
      simp only [Datatype.holdsMembers, Bool.and_eq_true] at h
      exact .cons (ih m List.mem_cons_self item h.1 (hlist item List.mem_cons_self))
        (ihrest (fun m hm => ih m (List.mem_cons_of_mem _ hm)) h.2
          fun item hitem => hlist item (List.mem_cons_of_mem _ hitem))

theorem length_words_lt {entries : List Entry}
    (h : max 1 (Cell.extents (entries.map (·.value))) < wordCount) :
    (Entry.words entries).length < wordCount := by
  have hle := Entry.length_words_le entries
  omega

/-- What an array shows: a list can hold its value, so a word has counted its elements. -/
theorem arrayText_build {base : Datatype} {dims : List Nat} {items : List Cell}
    (ih : ∀ item, base.holds item = true → item.fitsList = true → ∀ state,
      (build .all base).Shows (((build .all base).render d 0 item).run state).1 item)
    (h : (Datatype.array base dims).holds (.array items) = true)
    (hlist : (Cell.array items).fitsList = true) (state : σ) :
    ∃ entries : List Entry, (∀ entry ∈ entries, entry.editor = build .all base) ∧
      entries.map (·.value) = items ∧ entries.length = elementCount dims ∧
      entries.length = arrayOrder dims ∧ (Entry.words entries).length < wordCount ∧
      (((build .all (.array base dims)).render d 0 (.array items)).run state).1 =
        Entry.join entries := by
  simp only [Datatype.holds, Bool.and_eq_true, decide_eq_true_eq] at h
  obtain ⟨entries, heditors, rfl, htext⟩ := listText_build ih h.2 hlist state
  rw [List.length_map] at h
  have hcount := length_words_lt (of_decide_eq_true (Bool.and_eq_true_iff.mp hlist).2)
  have horder : entries.length = arrayOrder dims := by
    have hwords := Entry.length_words heditors
    have hle : entries.length ≤ entries.length * (build .all base).width :=
      Nat.le_mul_of_pos_right _ (width_pos _)
    rw [arrayOrder_of_lt (by omega), h.1]
  exact ⟨entries, heditors, rfl, h.1, horder, hcount, htext⟩

/-- A value of an exact datatype shows as an entry of lists. -/
theorem shows_render (hd : d.Faithful) {type : Datatype} (htype : type.isExact = true)
    {value : Cell} (h : type.holds value = true) (hlist : value.fitsList = true) (state : σ) :
    (build .all type).Shows (((build .all type).render d 0 value).run state).1 value := by
  -- Each element starts from the state that the one before it left, so the state stays general.
  induction type generalizing value state with
  | scalar type =>
    have hwords := (Bool.and_eq_true_iff.mp hlist).1
    exact shows_scalar (type.spreads_render hd htype h hwords state) h
      (type.parse_render hd htype h state)
  | array base dims ih =>
    simp only [Datatype.isExact, Bool.and_eq_true] at htype
    cases value with
    | array items =>
      obtain ⟨entries, heditors, rfl, helements, horder, hcount, htext⟩ :=
        arrayText_build (fun item => ih htype.1) h hlist state
      have hne : entries ≠ [] :=
        List.ne_nil_of_length_pos (helements ▸ elementCount_pos htype.2)
      rw [htext]
      exact shows_array hne heditors horder hcount
    | _ => cases h
  | sequence base ih =>
    have hbase : base.isExact = true := htype
    cases value with
    | array items =>
      simp only [Datatype.holds, Bool.and_eq_true, Bool.not_eq_true'] at h
      obtain ⟨entries, heditors, rfl, htext⟩ :=
        listText_build (fun item => ih hbase) h.2 hlist state
      have hshows := shows_sequence base heditors
      rw [build_sequence (stringLength?_of_not_isString h.1)]
      rw [← htext] at hshows
      exact hshows
    | text s =>
      rcases stringLength?_of_isString h with ⟨length, hlength⟩
      rw [build_varString hlength]
      exact shows_varString (Bool.and_eq_true_iff.mp hlist).1
    | _ => cases h
  | compound members ih =>
    cases value with
    | compound items =>
      have hmembers : Datatype.areExact members = true := (Bool.and_eq_true_iff.mp htype).2
      rw [Datatype.areExact_eq_all, List.all_eq_true] at hmembers
      rw [Cell.fitsList, Bool.and_eq_true, decide_eq_true_eq] at hlist
      obtain ⟨entries, heditors, rfl, htexts⟩ :=
        renderMembers_entries (members_show (fun m hm item => ih m hm (hmembers m hm)) h
          fun _ hitem => Cell.fitsList_of_mem hlist.1 hlist.2 hitem) state
      have hne : entries ≠ [] := by
        rintro rfl
        cases members with
        | nil => cases htype
        | cons m rest => cases h
      rw [build_exact htype, ← heditors]
      rw [← heditors] at htexts
      have hshows := shows_compound members (.build .all (members.map (·.type))) hne
        (length_words_lt hlist.2)
      rw [Entry.join, ← htexts] at hshows
      exact hshows
    | _ => cases h

/-- The text of a value reads as the value, under any display whose names can be relied on. -/
theorem parse_render (hd : d.Faithful) {type : Datatype} (htype : type.isExact = true)
    (hleaf : type.isCompound = false) {value : Cell} (h : type.holds value = true)
    (hlist : value.isListable = true) (state : σ) :
    (build .all type).parse 0 (((build .all type).render d 0 value).run state).1 = .ok value := by
  cases type with
  | scalar type => exact type.parse_render hd htype h state
  | array base dims =>
    simp only [Datatype.isExact, Bool.and_eq_true] at htype
    cases value with
    | array items =>
      obtain ⟨entries, heditors, rfl, -, horder, hcount, htext⟩ :=
        arrayText_build (fun item => shows_render hd htype.1) h hlist state
      rw [htext]
      exact parse_array_join heditors horder hcount 0
    | _ => cases h
  | sequence base =>
    have hbase : base.isExact = true := htype
    cases value with
    | array items =>
      simp only [Datatype.holds, Bool.and_eq_true, Bool.not_eq_true'] at h
      obtain ⟨entries, heditors, rfl, htext⟩ :=
        listText_build (fun item => shows_render hd hbase) h.2 hlist state
      have hread := Entry.parseList_words none heditors (by simp)
      rw [build_sequence (stringLength?_of_not_isString h.1)]
      rw [← ofSequence_join, ← htext] at hread
      exact hread
    | text s =>
      rcases stringLength?_of_isString h with ⟨length, hlength⟩
      rw [build_varString hlength]
      rfl
    | _ => cases h
  | compound members => cases hleaf

/-- A value of an exact datatype that is no compound reads back from its text, with enumerations
shown by value and with the names of their members. -/
theorem build_parse_render {type : Datatype} (htype : type.isExact = true)
    (hleaf : type.isCompound = false) {value : Cell} (h : type.holds value = true)
    (hwords : value.isListable = true) (format : Number.NumberFormat) :
    (∀ (σ : Type) (state : σ), (build .all type).parse 0
      (((build .all type).render ⟨format, none⟩ 0 value).run state).1 = .ok value) ∧
    ∀ table : MemberTable, (build .all type).parse 0
      (((build .all type).render ⟨format, some MemberTable.converter⟩ 0 value).run table).1 =
        .ok value := by
  constructor
  · intro σ state
    have hplain : Display.Faithful (⟨format, none⟩ : Display σ) := fun c hc => by cases hc
    exact parse_render hplain htype hleaf h hwords state
  · intro table
    have hnamed : Display.Faithful ⟨format, some MemberTable.converter⟩ := by
      intro c hc
      cases hc
      exact MemberTable.converter_faithful
    exact parse_render hnamed htype hleaf h hwords table

/-- Reports, each with a result, a key, two words and some characters. -/
def reportType : Datatype :=
  .sequence (.compound [
    ⟨"result", 1, .scalar (.enumeration ⟨1, false⟩ [⟨"passed", 0⟩, ⟨"failed", 1⟩])⟩,
    ⟨"key", 2, .scalar (.blob 2 "")⟩,
    ⟨"words", 3, .array (.scalar (.string .variable)) [2]⟩,
    ⟨"marks", 4, .sequence (.scalar (.char true))⟩])

def reports : Cell :=
  .array [.compound [.uint 1, .bytes [0xAB, 1], .array [.text "a:b", .text "c"],
    .array [.int 40, .int 97]]]

/-- A parenthesis among the marks shows by its code. -/
theorem build_parse_render_reports :
    (((build .all reportType).render ⟨.plain, some MemberTable.converter⟩ 0 reports).run .empty).1 =
      "([failed, ab 01, a:b, c, (40, a)])" ∧
    (build .all reportType).parse 0 "([failed, ab 01, a:b, c, (40, a)])" = .ok reports := by
  have htext : (((build .all reportType).render ⟨.plain, some MemberTable.converter⟩ 0
      reports).run .empty).1 = "([failed, ab 01, a:b, c, (40, a)])" := by decide
  obtain ⟨-, hnamed⟩ := build_parse_render (show reportType.isExact = true by decide)
    (show reportType.isCompound = false by decide) (show reportType.holds reports = true by decide)
    (show reports.isListable = true by decide) .plain
  refine ⟨htext, ?_⟩
  rw [← htext]
  exact hnamed .empty

end Editor

end DatasetGrid
