import DatasetGrid.Proofs.Agreement
import DatasetGrid.Proofs.Dispatch
import DatasetGrid.Proofs.TableSteps

/-! # Cells of a table and the leaves that serve them

The served leaves are those on the node of a selected leaf. A table has one field for each, and
every cell is checked, shown and edited by the editor of the leaf with its field's number.
-/
namespace DatasetGrid

namespace Selection

/-- The leaves that take a column: those on the node of a selected leaf. -/
def served (s : Selection) : List Leaf :=
  s.leaves.filter fun leaf => (s.selected.map (·.node)).contains leaf.node

theorem served_eq_flatMap (s : Selection) :
    s.served = s.members.flatMap (s.scope.leavesOf "") :=
  leavesUnder_filter s.scope "" s.members

theorem mem_selected {s : Selection} {leaf : Leaf} :
    leaf ∈ s.selected ↔ (leaf, true) ∈ s.leaves.zip s.flags := by
  simp [selected]

theorem served_ne_nil_iff (s : Selection) : s.served ≠ [] ↔ true ∈ s.flags := by
  constructor
  · intro h
    rcases List.exists_mem_of_ne_nil _ h with ⟨leaf, hleaf⟩
    have hnode := (List.mem_filter.mp hleaf).2
    rcases List.mem_map.mp (List.contains_iff_mem.mp hnode) with ⟨chosen, hchosen, -⟩
    exact (List.of_mem_zip (mem_selected.mp hchosen)).2
  · intro h
    rcases List.getElem_of_mem h with ⟨i, hi, hflag⟩
    have hil : i < s.leaves.length := by
      rw [leaves, ← s.flags_length]
      exact hi
    have hselected : s.leaves[i] ∈ s.selected := by
      rw [mem_selected, List.mem_iff_getElem]
      refine ⟨i, by rw [List.length_zip]; omega, ?_⟩
      rw [List.getElem_zip, hflag]
    apply List.ne_nil_of_mem (a := s.leaves[i])
    exact List.mem_filter.mpr ⟨List.getElem_mem hil,
      List.contains_iff_mem.mpr (List.mem_map_of_mem hselected)⟩

end Selection

namespace Editor

theorem ofCompound_eq (scope : Scope) (group : String) (members : List (Member Datatype)) :
    ofCompound scope members =
      if members.flatMap (scope.leavesOf group) = [] then
        .error (.emptyMapping (Datatype.compound members).description)
      else .ok (build scope (.compound members)) := by
  simp only [ofCompound, build, ColumnMap.build_isEmpty scope group, List.isEmpty_iff]
  split <;> rfl

theorem columns_build {scope : Scope} {group : String} {members : List (Member Datatype)}
    (h : members.flatMap (scope.leavesOf group) ≠ []) :
    (build scope (.compound members)).columns =
      (members.flatMap (scope.leavesOf group)).length := by
  rw [build_compound h, columns, ColumnMap.build_size scope group]

end Editor

variable {σ κ : Type} [Source σ]

namespace Table

/-- A cell does all its work with the editor of one leaf, on one place of the source. -/
structure ServedBy (t : Table κ) (live : σ) (row column : Nat) (leaf : Leaf)
    (field repetition : Nat) : Prop where
  reaches : t.root.server? column = some leaf.editor
  editable : leaf.editor.isRefusing = false
  checked : t.settings.readOnly = false → ∀ text, t.check live row column text =
    (leaf.editor.check 0 text).mapError fun cause => ⟨row, column, text, cause⟩
  shown : ∀ value, Source.value live row field repetition = .ok value → value.isCompound = false →
    t.displayText live row column = some <$> leaf.editor.render t.display 0 value
  unreadable : ∀ error, Source.value live row field repetition = .error error →
    t.displayText live row column = pure (some errorText)
  /-- An accepted text that the cell does not show yet is read and committed. -/
  edited : t.settings.readOnly = false → ∀ names dirty text, leaf.editor.check 0 text = .ok () →
    ((t.displayText live row column).run names).1 ≠ some text →
      ∃ value, leaf.editor.parse 0 text = .ok value ∧
        t.setData ⟨live, names, dirty⟩ row column text =
          let names := ((t.displayText live row column).run names).2
          match Source.commit live row field repetition value with
          | .error error => (.error error, ⟨live, names, dirty⟩)
          | .ok source => (.ok true, ⟨source, names, true⟩)

theorem ofSelection_eq (s : Selection) (source : σ) (settings : Settings)
    (converter : Converter κ) :
    ofSelection s source settings converter =
      if s.served = [] then .error (.invalidMapping s.compound.description)
      else .ok ⟨s, .build s.scope s.compound, Headers.ofSelection s (Source.width source), settings,
        converter⟩ := by
  rw [ofSelection, Editor.ofCompound_eq s.scope "", ← s.served_eq_flatMap]
  by_cases h : s.served = []
  · rw [if_pos h, if_pos h]
    rfl
  · rw [if_neg h, if_neg h]
    rfl

theorem ofSelection_eq_ok {s : Selection} {source : σ} {settings : Settings}
    {converter : Converter κ} {t : Table κ}
    (h : ofSelection s source settings converter = .ok t) :
    s.served ≠ [] ∧ t = ⟨s, .build s.scope s.compound, Headers.ofSelection s (Source.width source),
      settings, converter⟩ := by
  rw [ofSelection_eq] at h
  split at h
  · cases h
  · rename_i hserved
    cases h
    exact ⟨hserved, rfl⟩

theorem fieldCount_ofSelection {s : Selection} {source : σ} {settings : Settings}
    {converter : Converter κ} {t : Table κ}
    (h : ofSelection s source settings converter = .ok t) :
    t.fieldCount = s.served.length ∧ 0 < t.fieldCount := by
  rcases ofSelection_eq_ok h with ⟨hserved, rfl⟩
  have hcount : (Editor.build s.scope s.compound).columns = s.served.length := by
    rw [s.served_eq_flatMap] at hserved ⊢
    exact Editor.columns_build hserved
  refine ⟨hcount, ?_⟩
  rw [fieldCount, hcount]
  exact List.length_pos_iff.mpr hserved

/-- The editor that a column reaches settles how the cell is checked, shown and edited. -/
theorem servedBy_of_server? {t : Table κ} {live : σ} {row column : Nat} {leaf : Leaf}
    (hin : t.inBounds live row column = true)
    (hserver : t.root.server? column = some leaf.editor) (hleaf : leaf.type.isCompound = false) :
    t.ServedBy live row column leaf (t.locate column).1 (t.locate column).2 := by
  have hcheck (hwritable : t.settings.readOnly = false) (text : String) :
      t.check live row column text =
        (leaf.editor.check 0 text).mapError fun cause => ⟨row, column, text, cause⟩ := by
    simp only [check, hin, hwritable, if_true, Bool.false_eq_true, if_false]
    rw [(Editor.check_dispatches text).eq_server hserver]
  refine ⟨hserver, Editor.isRefusing_build_leaf hleaf .all, hcheck, ?_, ?_, ?_⟩
  · intro value hvalue hcell
    simp only [displayText, hin, if_true, hvalue]
    rw [(Editor.render_dispatches t.display hcell).eq_server hserver]
  · intro error herror
    simp only [displayText, hin, if_true, herror]
  · intro hwritable names dirty text haccepted hchanged
    obtain ⟨value, hvalue⟩ := Editor.exists_parse_of_check haccepted
    have hparse : t.root.parse column text = .ok value :=
      ((Editor.parse_dispatches text).eq_server hserver).trans hvalue
    have haccept : t.check live row column text = .ok () := by
      rw [hcheck hwritable, haccepted]
      rfl
    refine ⟨value, hvalue, ?_⟩
    rw [setData_changed (s := ⟨live, names, dirty⟩) haccept hchanged, store_read hparse]
    dsimp only
    cases Source.commit live row (t.locate column).1 (t.locate column).2 value <;> rfl

/-- A table opens exactly when some leaf is selected. It has one field for each served leaf, and
serves every cell within its bounds by the leaf with the number of the cell's field. -/
theorem ofSelection_servedBy (s : Selection) (source : σ) (settings : Settings)
    (converter : Converter κ) :
    ((∃ t, ofSelection s source settings converter = .ok t) ↔ true ∈ s.flags) ∧
    (true ∉ s.flags → ofSelection s source settings converter =
      .error (.invalidMapping s.compound.description)) ∧
    ∀ t, ofSelection s source settings converter = .ok t →
      t.fieldCount = s.served.length ∧
      ∀ (live : σ) (row column : Nat), t.inBounds live row column = true →
        ∃ leaf, s.served[column % s.served.length]? = some leaf ∧
          t.ServedBy live row column leaf (column % s.served.length)
            (column / s.served.length) := by
  have hne := s.served_ne_nil_iff
  rw [ofSelection_eq]
  by_cases h : s.served = []
  · have hflags : true ∉ s.flags := fun hf => hne.mpr hf h
    simp [h, hflags]
  · have hflags : true ∈ s.flags := hne.mp h
    simp only [if_neg h]
    refine ⟨by simp [hflags], fun hf => absurd hflags hf, ?_⟩
    rintro t ht
    cases ht
    have hcount : (Editor.build s.scope s.compound).columns = s.served.length := by
      rw [s.served_eq_flatMap] at h ⊢
      exact Editor.columns_build h
    refine ⟨hcount, ?_⟩
    intro live row column hin
    have hpos : column % s.served.length < s.served.length :=
      Nat.mod_lt _ (List.length_pos_iff.mpr h)
    obtain ⟨leaf, hleaf⟩ : ∃ leaf, s.served[column % s.served.length]? = some leaf :=
      ⟨_, List.getElem?_eq_getElem hpos⟩
    refine ⟨leaf, hleaf, ?_⟩
    have hserver : (Editor.build s.scope s.compound).server? column = some leaf.editor :=
      Editor.server?_build "" 0 hleaf
    have hmem : leaf ∈ s.compound.leavesAt "" 0 :=
      (List.mem_filter.mp (List.mem_of_getElem? hleaf)).1
    have hserved := servedBy_of_server? hin hserver (isCompound_of_mem_leavesAt hmem)
    simpa only [locate, fieldCount, hcount] using hserved

/-- Five leaves, the first and the last of them selected: the group between them shows nothing. -/
def sparseSelection : Selection where
  members := [
    ⟨"id", 0, .scalar (.integer ⟨1, false⟩)⟩,
    ⟨"pos", 1, .compound [⟨"x", 2, .scalar (.integer ⟨2, true⟩)⟩,
      ⟨"y", 3, .scalar (.integer ⟨2, true⟩)⟩]⟩,
    ⟨"info", 4, .compound [⟨"unit", 5, .scalar (.char true)⟩,
      ⟨"tail", 6, .compound [⟨"count", 7, .scalar (.integer ⟨4, false⟩)⟩]⟩]⟩]
  flags := [true, false, false, false, true]
  flags_length := by decide

def sparseSource : MemorySource :=
  ⟨2, 2, [[.uint 1, .uint 20, .uint 3, .uint 40]], [[.uint 1, .uint 20, .uint 3, .uint 40]]⟩

/-- The last column of the sparse selection is served by its deepest leaf, a count of four bytes:
that editor answers for its texts, shows what is stored and reads what is committed. -/
theorem ofSelection_servedBy_sparse :
    ∃ t, ofSelection sparseSelection sparseSource {} MemberTable.converter = .ok t ∧
      t.inBounds sparseSource 0 3 = true ∧
      t.check sparseSource 0 3 "4294967296" =
        .error ⟨0, 3, "4294967296", .outOfRange "4294967296" 0 4294967295⟩ ∧
      ((t.displayText sparseSource 0 3).run .empty).1 = some "40" ∧
      t.setData ⟨sparseSource, .empty, false⟩ 0 3 "41" =
        (.ok true, ⟨{ sparseSource with rows := [[.uint 1, .uint 20, .uint 3, .uint 41]] },
          .empty, true⟩) := by
  obtain ⟨hopens, -, hserved⟩ :=
    ofSelection_servedBy sparseSelection sparseSource {} MemberTable.converter
  obtain ⟨t, ht⟩ := hopens.mpr (by decide)
  obtain ⟨hfields, hcells⟩ := hserved t ht
  have hcount : sparseSelection.served.length = 2 := by decide
  rw [hcount] at hfields hcells
  have hin : t.inBounds sparseSource 0 3 = true := by
    rw [inBounds, columnCount, hfields]
    decide
  obtain ⟨leaf, hleaf, hcell⟩ := hcells sparseSource 0 3 hin
  have hdeepest : sparseSelection.served[3 % 2]? =
      some ⟨"info->tail->count", 7, .scalar (.integer ⟨4, false⟩)⟩ := rfl
  obtain rfl := Option.some.inj (hleaf.symm.trans hdeepest)
  obtain ⟨-, htable⟩ := ofSelection_eq_ok ht
  have hwritable : t.settings.readOnly = false := by rw [htable]
  have hdisplay : t.display = ⟨.plain, none⟩ := by
    rw [htable]
    rfl
  have htext : ((t.displayText sparseSource 0 3).run .empty).1 = some "40" := by
    rw [hcell.shown (.uint 40) rfl rfl, hdisplay]
    rfl
  obtain ⟨value, hvalue, hedited⟩ := hcell.edited hwritable .empty false "41" rfl
    (fun h => absurd (htext.symm.trans h) (by decide))
  have hparsed : Editor.parse (.scalar (.integer ⟨4, false⟩)) 0 "41" = .ok (.uint 41) := rfl
  obtain rfl := Except.ok.inj (hvalue.symm.trans hparsed)
  refine ⟨t, ht, hin, hcell.checked hwritable "4294967296", htext, hedited.trans ?_⟩
  rw [hcell.shown (.uint 40) rfl rfl, hdisplay]
  rfl

end Table

end DatasetGrid
