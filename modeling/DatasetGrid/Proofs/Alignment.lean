import DatasetGrid.Proofs.TableDispatch

/-! # Headers beside their columns

Headers go by the flags of a selection, columns by the nodes of the selected leaves. The two tell
the same leaves as long as no leaf that is left out stands on the node of one that is selected.
Otherwise such a leaf takes a column without a header.
-/
namespace DatasetGrid

section Repeated
variable {α : Type}

theorem length_flatten_replicate (count : Nat) (xs : List α) :
    (List.replicate count xs).flatten.length = count * xs.length := by
  rw [List.length_flatten, List.map_replicate, List.sum_replicate_nat]

theorem getElem?_flatten_replicate {count i : Nat} {xs : List α} (h : i < count * xs.length) :
    (List.replicate count xs).flatten[i]? = xs[i % xs.length]? := by
  induction count generalizing i with
  | zero => omega
  | succ count ih =>
    rw [List.replicate_succ, List.flatten_cons]
    by_cases hi : i < xs.length
    · rw [List.getElem?_append_left hi, Nat.mod_eq_of_lt hi]
    · have hrest : i - xs.length < count * xs.length := by
        rw [Nat.succ_mul] at h
        omega
      rw [List.getElem?_append_right (by omega), ih hrest, ← Nat.mod_eq_sub_mod (by omega)]

end Repeated

theorem Header.ofLeaf_path (leaf : Leaf) : (Header.ofLeaf leaf).path = leaf.path := by
  rw [ofLeaf]
  split <;> rfl

namespace Headers

theorem size_ofSelection (s : Selection) (width : Nat) :
    (ofSelection s width).size = max width 1 * s.selected.length := by
  rw [size, ofSelection, length_flatten_replicate, List.length_map]

theorem get?_ofSelection {s : Selection} {width column : Nat}
    (h : column < max width 1 * s.selected.length) :
    (ofSelection s width).get? column =
      s.selected[column % s.selected.length]?.map Header.ofLeaf := by
  rw [get?, ofSelection, getElem?_flatten_replicate (by rwa [List.length_map]), List.length_map,
    List.getElem?_map]

end Headers

namespace Selection

def touches (s : Selection) (leaf : Leaf) : Bool :=
  (s.selected.map (·.node)).contains leaf.node

/-- No leaf that is left out stands on the node of a selected one. -/
def separates (s : Selection) : Bool :=
  (s.leaves.zip s.flags).all fun choice => !s.touches choice.1 || choice.2

theorem served_eq_zip (s : Selection) :
    s.served = ((s.leaves.zip s.flags).filter fun choice => s.touches choice.1).map (·.1) := by
  have hleaves : (s.leaves.zip s.flags).map (·.1) = s.leaves :=
    List.map_fst_zip (Nat.le_of_eq s.flags_length.symm)
  calc
    s.served = ((s.leaves.zip s.flags).map (·.1)).filter s.touches := by rw [hleaves]; rfl
    _ = _ := List.filter_map

theorem selected_eq_zip (s : Selection) : s.selected =
    (((s.leaves.zip s.flags).filter fun choice => s.touches choice.1).filter (·.2)).map (·.1) := by
  rw [selected, List.filter_filter]
  congr 1
  apply List.filter_congr
  intro choice hchoice
  cases hflag : choice.2 with
  | false => rfl
  | true =>
    have hselected : choice.1 ∈ s.selected := by
      rw [mem_selected, ← hflag]
      exact hchoice
    exact (List.contains_iff_mem.mpr (List.mem_map_of_mem hselected)).symm

theorem separates_iff (s : Selection) : s.separates = true ↔
    ∀ choice ∈ (s.leaves.zip s.flags).filter fun choice => s.touches choice.1,
      choice.2 = true := by
  simp only [separates, List.all_eq_true, List.mem_filter, Bool.or_eq_true, Bool.not_eq_true',
    and_imp]
  refine forall₂_congr fun choice _ => ?_
  cases s.touches choice.1 <;> simp

theorem served_eq_selected {s : Selection} (h : s.separates = true) : s.served = s.selected := by
  rw [served_eq_zip, selected_eq_zip, List.filter_eq_self.mpr (s.separates_iff.mp h)]

theorem length_selected_lt {s : Selection} (h : s.separates = false) :
    s.selected.length < s.served.length := by
  have hne : ¬ ∀ choice ∈ (s.leaves.zip s.flags).filter fun choice => s.touches choice.1,
      choice.2 = true := by
    rw [← separates_iff, h]
    exact Bool.false_ne_true
  rw [← List.length_filter_eq_length_iff] at hne
  rw [served_eq_zip, selected_eq_zip, List.length_map, List.length_map]
  exact Nat.lt_of_le_of_ne (List.length_filter_le _ _) hne

end Selection

namespace Table

variable {σ κ : Type} [Source σ]

/-- Each column has the header of a selected leaf, is labelled by its path, and is served by its
editor. -/
structure Aligned (t : Table κ) (live : σ) : Prop where
  fields : t.fieldCount = t.selection.selected.length
  headed : t.headers.size = t.columnCount live
  labelled : ∀ row column, t.inBounds live row column = true →
    ∃ leaf, t.selection.selected[column % t.fieldCount]? = some leaf ∧
      t.cellLabel live row column = some
        s!"{row + t.settings.indexBase}, {leaf.path}[{column / t.fieldCount}] =  " ∧
      t.ServedBy live row column leaf (column % t.fieldCount) (column / t.fieldCount)

section Open

variable {s : Selection} {source live : σ} {settings : Settings} {converter : Converter κ}
  {t : Table κ} {row column : Nat}

theorem servedBy_of_served (h : ofSelection s source settings converter = .ok t)
    (hin : t.inBounds live row column = true) {leaf : Leaf}
    (hleaf : s.served[column % t.fieldCount]? = some leaf) :
    t.ServedBy live row column leaf (column % t.fieldCount) (column / t.fieldCount) := by
  rw [(fieldCount_ofSelection h).1] at hleaf
  rcases ofSelection_eq_ok h with ⟨-, rfl⟩
  have hserver : (Editor.build s.scope s.compound).server? column = some leaf.editor :=
    Editor.server?_build "" 0 hleaf
  have hmem : leaf ∈ s.compound.leavesAt "" 0 :=
    (List.mem_filter.mp (List.mem_of_getElem? hleaf)).1
  exact servedBy_of_server? hin hserver (isCompound_of_mem_leavesAt hmem)

theorem headers_size (h : ofSelection s source settings converter = .ok t)
    (hwidth : 1 ≤ Source.width source) :
    t.headers.size = Source.width source * s.selected.length := by
  rcases ofSelection_eq_ok h with ⟨-, rfl⟩
  rw [Headers.size_ofSelection, Nat.max_eq_left hwidth]

theorem cellLabel_of_selected (h : ofSelection s source settings converter = .ok t)
    (hin : t.inBounds live row column = true)
    (hcolumn : column < max (Source.width source) 1 * s.selected.length) {leaf : Leaf}
    (hleaf : s.selected[column % s.selected.length]? = some leaf) :
    t.cellLabel live row column = some
      s!"{row + t.settings.indexBase}, {leaf.path}[{column / t.fieldCount}] =  " := by
  rcases ofSelection_eq_ok h with ⟨-, rfl⟩
  rw [cellLabel, if_pos hin, Headers.get?_ofSelection hcolumn, hleaf]
  simp only [Option.map_some, Header.ofLeaf_path]
  rfl

/-- With all served leaves selected, a column has one place among both. -/
theorem aligned_of_separates (h : ofSelection s source settings converter = .ok t)
    (hwidth : 1 ≤ Source.width source) (hlive : Source.width live = Source.width source)
    (hseparates : s.separates = true) : t.Aligned live := by
  have hserved := Selection.served_eq_selected hseparates
  rcases fieldCount_ofSelection h with ⟨hcount, hpos⟩
  rw [hserved] at hcount
  have hselection : t.selection = s := by
    rcases ofSelection_eq_ok h with ⟨-, rfl⟩
    rfl
  refine ⟨by rw [hselection, hcount], ?_, ?_⟩
  · rw [headers_size h hwidth, columnCount, hlive, hcount]
  · intro row column hin
    have hselected : s.selected ≠ [] := List.length_pos_iff.mp (hcount ▸ hpos)
    obtain ⟨leaf, hleaf⟩ := exists_getElem?_mod hselected column
    have hplace : s.selected[column % t.fieldCount]? = some leaf := hcount ▸ hleaf
    refine ⟨leaf, hselection ▸ hplace, ?_, servedBy_of_served h hin (hserved ▸ hplace)⟩
    refine cellLabel_of_selected h hin ?_ hleaf
    have hbounds : column < t.columnCount live := by
      rw [inBounds, Bool.and_eq_true, decide_eq_true_eq, decide_eq_true_eq] at hin
      exact hin.2
    rwa [columnCount, hlive, hcount, ← Nat.max_eq_left hwidth] at hbounds

/-- A served leaf that is not selected leaves the last columns without a header. -/
theorem unlabelled_of_not_separates (h : ofSelection s source settings converter = .ok t)
    (hwidth : 1 ≤ Source.width source) (hlive : Source.width live = Source.width source)
    (hseparates : s.separates = false) (hrow : row < Source.rowCount live) :
    t.inBounds live row t.headers.size = true ∧ t.cellLabel live row t.headers.size = none := by
  have hless := Selection.length_selected_lt hseparates
  have hbounds : t.headers.size < t.columnCount live := by
    rw [headers_size h hwidth, columnCount, hlive, (fieldCount_ofSelection h).1]
    exact Nat.mul_lt_mul_of_pos_left hless hwidth
  have hin : t.inBounds live row t.headers.size = true := by
    rw [inBounds, Bool.and_eq_true, decide_eq_true_eq, decide_eq_true_eq]
    exact ⟨hrow, hbounds⟩
  -- The first column behind the headers is still within the table.
  have hheader : t.headers.get? t.headers.size = none :=
    List.getElem?_eq_none (Nat.le_refl _)
  refine ⟨hin, ?_⟩
  rw [cellLabel, if_pos hin, hheader]
  rfl

end Open

/-- A table has its headers, labels and columns aligned exactly when no leaf that is left out
stands on the node of a selected one. With such a leaf there is a column within the table that has
no label. -/
theorem ofSelection_aligned_iff (s : Selection) (source : σ) (settings : Settings)
    (converter : Converter κ) (hflags : true ∈ s.flags) (hwidth : 1 ≤ Source.width source) :
    ∃ t, ofSelection s source settings converter = .ok t ∧
      ∀ live : σ, Source.width live = Source.width source →
        (t.Aligned live ↔ s.separates = true) ∧
        (s.separates = false → ∀ row < Source.rowCount live,
          t.inBounds live row t.headers.size = true ∧
            t.cellLabel live row t.headers.size = none) := by
  have hopen := ofSelection_eq s source settings converter
  rw [if_neg (s.served_ne_nil_iff.mpr hflags)] at hopen
  refine ⟨_, hopen, fun live hlive => ⟨⟨?_, aligned_of_separates hopen hwidth hlive⟩, ?_⟩⟩
  · intro haligned
    have hfields := haligned.fields
    rw [(fieldCount_ofSelection hopen).1] at hfields
    cases hseparates : s.separates with
    | true => rfl
    | false => exact absurd hfields (Nat.ne_of_gt (Selection.length_selected_lt hseparates))
  · exact fun hseparates row hrow => unlabelled_of_not_separates hopen hwidth hlive hseparates hrow

/-- Three leaves, the first two of them on one node; the first is selected. -/
def sharedSelection (second third : Bool) : Selection where
  members := [
    ⟨"a", 1, .scalar (.integer ⟨1, false⟩)⟩,
    ⟨"b", 1, .scalar (.integer ⟨1, false⟩)⟩,
    ⟨"c", 2, .scalar (.integer ⟨2, false⟩)⟩]
  flags := [true, second, third]
  flags_length := rfl

/-- Both leaves on one node selected, the second of them has the last column. -/
theorem ofSelection_aligned_iff_shared :
    ∃ t, ofSelection (sharedSelection true false) sparseSource {} MemberTable.converter = .ok t ∧
      t.Aligned sparseSource ∧ t.cellLabel sparseSource 0 3 = some "0, b[1] =  " := by
  obtain ⟨t, ht, haligned⟩ := ofSelection_aligned_iff (sharedSelection true false) sparseSource {}
    MemberTable.converter (by decide) (by decide)
  have hlabel : t.cellLabel sparseSource 0 3 = some "0, b[1] =  " := by
    cases ht
    decide +kernel
  exact ⟨t, ht, (haligned sparseSource rfl).1.mpr (by decide), hlabel⟩

/-- One leaf of a node selected, the other takes columns too: the third column, the second
repetition of the first leaf, is labelled as the first, and the last column has no label. -/
theorem ofSelection_misaligned_shared :
    ∃ t, ofSelection (sharedSelection false true) sparseSource {} MemberTable.converter = .ok t ∧
      t.selection.selected.length = 2 ∧ t.fieldCount = 3 ∧
      t.headers.size = 4 ∧ t.columnCount sparseSource = 6 ∧
      t.cellLabel sparseSource 0 2 = some "0, a[0] =  " ∧
      t.inBounds sparseSource 0 5 = true ∧ t.cellLabel sparseSource 0 5 = none ∧
      ¬ t.Aligned sparseSource := by
  refine ⟨_, rfl, by decide, by decide, by decide, by decide, by decide +kernel, by decide,
    by decide +kernel, ?_⟩
  intro haligned
  exact absurd haligned.headed (by decide)

end Table

end DatasetGrid
