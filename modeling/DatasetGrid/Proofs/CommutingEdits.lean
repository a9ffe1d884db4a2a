import DatasetGrid.Proofs.CellEdits

/-! # Edits of different cells

An edit sees the shape of the rows and the text of its own cell, and puts no other cell. Edits of
different cells so neither see nor disturb each other, and may be made in either order.
-/
namespace DatasetGrid.Table

variable {κ : Type} {t : Table κ} {m : MemorySource} {s s' : TableState MemorySource κ}
  {row column row' column' : Nat} {text : String}

/-- What an edit with this answer puts into a source. -/
def applied (t : Table κ) (row column : Nat) (text : String) (answer : Except TableError Bool)
    (m : MemorySource) : MemorySource :=
  match answer, t.root.parse column text with
  | .ok true, .ok value => m.put row column value
  | _, _ => m

theorem applied_of_ne {answer : Except TableError Bool} (h : answer ≠ .ok true) :
    t.applied row column text answer m = m := by
  unfold applied
  split
  · contradiction
  · rfl

theorem applied_comm (t : Table κ) (m : MemorySource) (h : ¬ (row' = row ∧ column' = column))
    (text text' : String) (answer answer' : Except TableError Bool) :
    t.applied row' column' text' answer' (t.applied row column text answer m) =
      t.applied row column text answer (t.applied row' column' text' answer' m) := by
  unfold applied
  split
  · split
    · exact m.put_comm h _ _
    · rfl
  · rfl

/-- The answer to an edit goes by the shape of the rows and the text of the cell. -/
theorem setData_answer_congr (h : t.Fits s.source) (hshape : s.source.SameShape s'.source)
    (htext : t.textAt s' row column = t.textAt s row column) (text : String) :
    (t.setData s' row column text).1 = (t.setData s row column text).1 := by
  have hcheck : t.check s'.source row column text = t.check s.source row column text := by
    rw [check_eq, check_eq, hshape.length_rows, hshape.width]
  cases hverdict : t.check s.source row column text with
  | error rejection => rw [setData_refused hverdict, setData_refused (hcheck.trans hverdict)]
  | ok _ =>
    by_cases hshown : t.textAt s row column = some text
    · rw [setData_unchanged hverdict hshown,
        setData_unchanged (hcheck.trans hverdict) (htext.trans hshown)]
    · rcases setData_stored h hverdict hshown with ⟨_, _, -, hstored⟩
      rcases setData_stored (h.of_sameShape hshape) (hcheck.trans hverdict)
        (fun hshown' => hshown (htext.symm.trans hshown')) with ⟨_, _, -, hstored'⟩
      rw [hstored, hstored']

section Edits

variable (h : t.Fits s.source) (hsteady : t.converter.IsSteady)
include h hsteady

theorem setData_source (row column : Nat) (text : String) :
    (t.setData s row column text).2.source =
      t.applied row column text (t.setData s row column text).1 s.source := by
  have hedit := setData_oneCellEdit h hsteady row column text
  by_cases hchanged : (t.setData s row column text).1 = .ok true
  · rcases hedit.stored hchanged with ⟨-, -, value, hvalue, hsource, -⟩
    simp only [hsource, hchanged, applied, hvalue]
  · rw [(hedit.kept hchanged).1, applied_of_ne hchanged]

theorem setData_dirty (row column : Nat) (text : String) :
    (t.setData s row column text).2.dirty = true ↔
      (t.setData s row column text).1 = .ok true ∨ s.dirty = true := by
  have hedit := setData_oneCellEdit h hsteady row column text
  by_cases hchanged : (t.setData s row column text).1 = .ok true
  · simp [hchanged, (hedit.stored hchanged).1]
  · simp [hchanged, (hedit.kept hchanged).2]

theorem setData_answer_after (hother : ¬ (row' = row ∧ column' = column)) (text text' : String) :
    (t.setData (t.setData s row column text).2 row' column' text').1 =
      (t.setData s row' column' text').1 := by
  have hedit := setData_oneCellEdit h hsteady row column text
  have htext : t.textAt (t.setData s row column text).2 row' column' = t.textAt s row' column' := by
    by_cases hchanged : (t.setData s row column text).1 = .ok true
    · exact (hedit.spared hchanged row' column' hother).2
    · -- The converter may have been asked all the same.
      rw [textAt, textAt, (hedit.kept hchanged).1]
      exact steady_displayText (display_isSteady hsteady) _ _ _ _ _
  exact setData_answer_congr h (act_sameShape t s (.edit row column text)) htext text'

end Edits

/-- Whatever has happened to an open table, two edits of different cells leave the same rows,
written and unwritten, and the same mark in either order, and have the same answers. -/
theorem actAll_edits_commute {selection : Selection} {settings : Settings} {width : Nat}
    {rows : List (List Cell)} {t : Table MemberTable}
    (hsource : MemorySource.ofRows t.fieldCount width rows = .ok m)
    (hopen : ofSelection selection m settings MemberTable.converter = .ok t)
    (actions : List Action) (row column : Nat) (text : String) (row' column' : Nat)
    (text' : String) (hother : ¬ (row' = row ∧ column' = column)) :
    let s := t.actAll ⟨m, .empty, false⟩ actions
    let former := t.setData s row column text
    let latter := t.setData s row' column' text'
    let latterAfter := t.setData former.2 row' column' text'
    let formerAfter := t.setData latter.2 row column text
    latterAfter.2.source.rows = formerAfter.2.source.rows ∧
    latterAfter.2.source.persisted = formerAfter.2.source.persisted ∧
    latterAfter.2.dirty = formerAfter.2.dirty ∧
    formerAfter.1 = former.1 ∧ latterAfter.1 = latter.1 := by
  intro s former latter latterAfter formerAfter
  have hsteady := isSteady_ofSelection hopen
  have hfits : t.Fits s.source := (fits_ofSelection hsource hopen).of_sameShape
    (actAll_sameShape t ⟨m, .empty, false⟩ actions)
  have hother' : ¬ (row = row' ∧ column = column') :=
    fun hsame => hother ⟨hsame.1.symm, hsame.2.symm⟩
  have hlatter : latterAfter.1 = latter.1 := setData_answer_after hfits hsteady hother text text'
  have hformer : formerAfter.1 = former.1 := setData_answer_after hfits hsteady hother' text' text
  have hfitsFormer : t.Fits former.2.source :=
    hfits.of_sameShape (act_sameShape t s (.edit row column text))
  have hfitsLatter : t.Fits latter.2.source :=
    hfits.of_sameShape (act_sameShape t s (.edit row' column' text'))
  -- The answers do not depend on the other edit, so what is put into the source does not either.
  have hsame : latterAfter.2.source = formerAfter.2.source := by
    calc latterAfter.2.source
        = t.applied row' column' text' latter.1 former.2.source := by
          rw [← hlatter]
          exact setData_source hfitsFormer hsteady row' column' text'
      _ = t.applied row' column' text' latter.1 (t.applied row column text former.1 s.source) := by
          rw [← setData_source hfits hsteady row column text]
      _ = t.applied row column text former.1 (t.applied row' column' text' latter.1 s.source) :=
          applied_comm t s.source hother text text' former.1 latter.1
      _ = t.applied row column text former.1 latter.2.source := by
          rw [← setData_source hfits hsteady row' column' text']
      _ = formerAfter.2.source := by
          rw [← hformer]
          exact (setData_source hfitsLatter hsteady row column text).symm
  have hdirty : latterAfter.2.dirty = true ↔ formerAfter.2.dirty = true := by
    have hdirtyLatter := setData_dirty hfitsFormer hsteady row' column' text'
    have hdirtyFormer := setData_dirty hfitsLatter hsteady row column text
    rw [setData_dirty hfits hsteady] at hdirtyLatter hdirtyFormer
    rw [hdirtyLatter, hdirtyFormer, hlatter, hformer]
    exact or_left_comm
  exact ⟨by rw [hsame], by rw [hsame], Bool.eq_iff_iff.mpr hdirty, hformer, hlatter⟩

/-- A color and a count of one row, put in either order. -/
theorem actAll_edits_commute_named :
    let s := namedTable.actAll ⟨namedSource, .empty, false⟩ namedActions
    let color := namedTable.setData s 0 0 "BLUE"
    let count := namedTable.setData s 0 1 "7"
    let countAfter := namedTable.setData color.2 0 1 "7"
    let colorAfter := namedTable.setData count.2 0 0 "BLUE"
    colorAfter.1 = .ok true ∧ countAfter.1 = .ok true ∧
    countAfter.2.source.rows = [[.int 2, .uint 7, .int 1, .uint 30]] ∧
    colorAfter.2.source.rows = [[.int 2, .uint 7, .int 1, .uint 30]] := by
  intro s color count countAfter colorAfter
  have hsource : MemorySource.ofRows namedTable.fieldCount 2 namedSource.rows =
      .ok namedSource := rfl
  have hopen : ofSelection namedSelection namedSource { convertEnumNames := true }
      MemberTable.converter = .ok namedTable := rfl
  obtain ⟨hrows, -, -, hcolor, hcount⟩ := actAll_edits_commute hsource hopen namedActions 0 0
    "BLUE" 0 1 "7" (by decide)
  have hcolorFirst : color.1 = .ok true := rfl
  have hcountFirst : count.1 = .ok true := rfl
  have hafter : countAfter.2.source.rows = [[.int 2, .uint 7, .int 1, .uint 30]] := rfl
  exact ⟨hcolor.trans hcolorFirst, hcount.trans hcountFirst, hafter, hrows.symm.trans hafter⟩

end DatasetGrid.Table
