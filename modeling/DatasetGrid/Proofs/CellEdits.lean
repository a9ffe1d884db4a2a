import DatasetGrid.Proofs.Agreement
import DatasetGrid.Proofs.MemoryRows
import DatasetGrid.Proofs.Persistence
import DatasetGrid.Proofs.SteadyText

/-! # Edits of single cells

A table over a source in memory of as many fields as it shows finds each of its columns at the
place of that number in the row. Whatever has happened to the table before, an edit that is
accepted puts one cell, and every other cell shows what it has shown.
-/
namespace DatasetGrid.Table

variable {κ : Type} {t : Table κ} {m m' : MemorySource} {s : TableState MemorySource κ}
  {row column : Nat} {text : String}

def textAt (t : Table κ) (s : TableState MemorySource κ) (row column : Nat) : Option String :=
  ((t.displayText s.source row column).run s.names).1

/-- The source has the fields of the table, in rows of full length. -/
structure Fits (t : Table κ) (m : MemorySource) : Prop where
  fields : m.fields = t.fieldCount
  pos : 0 < t.fieldCount
  uniform : m.Uniform

theorem Fits.of_sameShape (h : t.Fits m) (hshape : m.SameShape m') : t.Fits m' :=
  ⟨hshape.fields.trans h.fields, h.pos, h.uniform.of_sameShape hshape⟩

theorem inBounds_iff : t.inBounds m row column = true ↔
    row < m.rows.length ∧ column < m.width * t.fieldCount := by
  rw [inBounds, Bool.and_eq_true, decide_eq_true_eq, decide_eq_true_eq]
  exact Iff.rfl

theorem inBounds_of_sameShape (h : m.SameShape m') (row column : Nat) :
    t.inBounds m' row column = t.inBounds m row column := by
  rw [Bool.eq_iff_iff, inBounds_iff, inBounds_iff, h.length_rows, h.width]

section Place

/-- The field and the repetition of a column within bounds name the place of its number. -/
theorem Fits.locate (h : t.Fits m) (hin : t.inBounds m row column = true) :
    (t.locate column).1 < m.fields ∧ (t.locate column).2 < m.width ∧
      (t.locate column).2 * m.fields + (t.locate column).1 = column := by
  have hcolumn := (inBounds_iff.mp hin).2
  rw [Table.locate, h.fields]
  refine ⟨Nat.mod_lt _ h.pos, ?_, Nat.div_add_mod' column t.fieldCount⟩
  rw [Nat.div_lt_iff_lt_mul h.pos]
  exact hcolumn

theorem Fits.cell? (h : t.Fits m) (hin : t.inBounds m row column = true) :
    ∃ cell, m.cell? row column = some cell := by
  rw [inBounds_iff, ← h.fields] at hin
  exact h.uniform.cell? hin.1 hin.2

theorem Fits.value (h : t.Fits m) (hin : t.inBounds m row column = true) {cell : Cell}
    (hcell : m.cell? row column = some cell) :
    Source.value m row (t.locate column).1 (t.locate column).2 = .ok cell := by
  rcases h.locate hin with ⟨hfield, hrepetition, hplace⟩
  exact MemorySource.value_eq hfield hrepetition (hplace.symm ▸ hcell)

theorem Fits.commit (h : t.Fits m) (hin : t.inBounds m row column = true) (cell : Cell) :
    Source.commit m row (t.locate column).1 (t.locate column).2 cell =
      .ok (m.put row column cell) := by
  rcases h.locate hin with ⟨hfield, hrepetition, hplace⟩
  rcases h.cell? hin with ⟨old, hold⟩
  have hcommit := MemorySource.commit_eq hfield hrepetition (hplace.symm ▸ hold) cell
  rw [hplace] at hcommit
  exact hcommit

end Place

theorem displayText_of_cell? (h : t.Fits m) (hin : t.inBounds m row column = true) {cell : Cell}
    (hcell : m.cell? row column = some cell) :
    t.displayText m row column = some <$> t.root.render t.display column cell := by
  rw [displayText, if_pos hin, h.value hin hcell]

theorem displayText_put_ne (h : t.Fits m) {row' column' : Nat}
    (hother : ¬ (row' = row ∧ column' = column)) (cell : Cell) :
    t.displayText (m.put row column cell) row' column' = t.displayText m row' column' := by
  have hshape := MemorySource.SameShape.put m row column cell
  have hbounds := inBounds_of_sameShape (t := t) hshape row' column'
  cases hin : t.inBounds m row' column' with
  | false =>
    rw [displayText, displayText, hbounds, hin]
    rfl
  | true =>
    rcases h.cell? hin with ⟨other, hcell⟩
    have hafter : (m.put row column cell).cell? row' column' = some other :=
      (MemorySource.cell?_put_ne hother cell).trans hcell
    rw [displayText_of_cell? h hin hcell,
      displayText_of_cell? (h.of_sameShape hshape) (hbounds.trans hin) hafter]

theorem steady_displayText (h : t.display.IsSteady) (m : MemorySource) (row column : Nat) :
    Steady (t.displayText m row column) :=
  sameResult_isCongruence.displayText (steady_enumerationText h) m row column

theorem display_isSteady (h : t.converter.IsSteady) : t.display.IsSteady := by
  intro c hc
  rw [eq_converter hc]
  exact h

theorem check_eq_ok {σ : Type} [Source σ] {source : σ}
    (h : t.check source row column text = .ok ()) :
    t.inBounds source row column = true ∧ t.root.check column text = .ok () := by
  rw [check] at h
  split at h
  · rename_i hin
    split at h
    · cases h
    · cases hcheck : t.root.check column text with
      | error cause =>
        rw [hcheck] at h
        cases h
      | ok _ => exact ⟨hin, rfl⟩
  · cases h

theorem setData_stored (h : t.Fits s.source) (hcheck : t.check s.source row column text = .ok ())
    (hshown : t.textAt s row column ≠ some text) :
    ∃ value names, t.root.parse column text = .ok value ∧
      t.setData s row column text = (.ok true, ⟨s.source.put row column value, names, true⟩) := by
  rcases Editor.exists_parse_of_check (check_eq_ok hcheck).2 with ⟨value, hvalue⟩
  refine ⟨value, (t.shownBefore s row column).2, hvalue, ?_⟩
  rw [setData_changed hcheck hshown, store_read hvalue]
  dsimp only
  rw [h.commit (check_eq_ok hcheck).1]
  rfl

/-- What an edit answers and leaves: it is rejected by its check, it finds its text shown already,
or it changes one cell. -/
structure OneCellEdit (t : Table κ) (s : TableState MemorySource κ) (row column : Nat)
    (text : String) (answer : Except TableError Bool) (after : TableState MemorySource κ) :
    Prop where
  rejected : ∀ rejection, answer = .error (.rejected rejection) ↔
    t.check s.source row column text = .error rejection
  refused : ∀ error, answer = .error error → ∃ rejection, error = .rejected rejection
  idle : answer = .ok false ↔
    t.check s.source row column text = .ok () ∧ t.textAt s row column = some text
  kept : answer ≠ .ok true → after.source = s.source ∧ after.dirty = s.dirty
  stored : answer = .ok true → after.dirty = true ∧
    after.source.persisted = s.source.persisted ∧
    ∃ value, t.root.parse column text = .ok value ∧
      after.source = s.source.put row column value ∧
      after.source.cell? row column = some value
  spared : answer = .ok true → ∀ row' column', ¬ (row' = row ∧ column' = column) →
    after.source.cell? row' column' = s.source.cell? row' column' ∧
      t.textAt after row' column' = t.textAt s row' column'

theorem setData_oneCellEdit (h : t.Fits s.source) (hsteady : t.converter.IsSteady)
    (row column : Nat) (text : String) :
    t.OneCellEdit s row column text (t.setData s row column text).1
      (t.setData s row column text).2 := by
  cases hcheck : t.check s.source row column text with
  | error rejection =>
    rw [setData_refused hcheck]
    constructor
    · simp [hcheck]
    · rintro error ⟨⟩
      exact ⟨rejection, rfl⟩
    · simp [hcheck]
    · exact fun _ => ⟨rfl, rfl⟩
    · simp
    · simp
  | ok _ =>
    by_cases hshown : t.textAt s row column = some text
    · rw [setData_unchanged hcheck hshown]
      constructor <;> simp [hcheck, hshown]
    · obtain ⟨value, names, hvalue, hstored⟩ := setData_stored h hcheck hshown
      rw [hstored]
      rcases h.cell? (check_eq_ok hcheck).1 with ⟨old, hold⟩
      constructor
      · simp [hcheck]
      · simp
      · simp [hshown]
      · simp
      · exact fun _ => ⟨rfl, rfl, value, hvalue, rfl, MemorySource.cell?_put_self hold value⟩
      · intro _ row' column' hother
        refine ⟨MemorySource.cell?_put_ne hother value, ?_⟩
        -- The edit may have asked the converter for names, which no text depends on.
        rw [textAt, textAt, displayText_put_ne h hother]
        exact steady_displayText (display_isSteady hsteady) _ _ _ _ _

/-- What may happen to an open table and its source. -/
inductive Action
  | edit (row column : Nat) (text : String)
  | write
  | display (row column : Nat)
  | commit (row field repetition : Nat) (cell : Cell)
  | flush

/-- Commits and flushes go to the source itself. What is only checked or labelled changes
nothing. -/
def act (t : Table κ) (s : TableState MemorySource κ) : Action → TableState MemorySource κ
  | .edit row column text => (t.setData s row column text).2
  | .write => (t.writeOut s).2
  | .display row column => { s with names := ((t.displayText s.source row column).run s.names).2 }
  | .commit row field repetition cell =>
    match s.source.commit row field repetition cell with
    | .ok source => { s with source }
    | .error _ => s
  | .flush => { s with source := s.source.flush }

def actAll (t : Table κ) (s : TableState MemorySource κ) (actions : List Action) :
    TableState MemorySource κ :=
  actions.foldl t.act s

theorem act_sameShape (t : Table κ) (s : TableState MemorySource κ) (action : Action) :
    s.source.SameShape (t.act s action).source := by
  cases action with
  | edit row column text =>
    by_cases hchanged : (t.setData s row column text).1 = .ok true
    · rcases setData_eq_ok_true hchanged with ⟨value, source, names, -, hcommit, hafter⟩
      rw [act, hafter]
      exact .commit hcommit
    · rw [act, (setData_ne_ok_true hchanged).1]
      exact .refl _
  | write =>
    by_cases hchanged : (t.writeOut s).1 = .ok true
    · rcases writeOut_eq_ok_true hchanged with ⟨source, hflush, hafter⟩
      rw [act, hafter]
      cases hflush
      exact .flush _
    · rw [act, writeOut_ne_ok_true hchanged]
      exact .refl _
  | display row column => exact .refl _
  | commit row field repetition cell =>
    rw [act]
    split
    · rename_i hcommit
      exact .commit hcommit
    · exact .refl _
  | flush => exact .flush _

theorem actAll_sameShape (t : Table κ) (s : TableState MemorySource κ) (actions : List Action) :
    s.source.SameShape (t.actAll s actions).source := by
  induction actions generalizing s with
  | nil => exact .refl _
  | cons action actions ih => exact (act_sameShape t s action).trans (ih (t.act s action))

/-- The bounds come first, then whether the table may be edited, then the text. -/
theorem check_eq (t : Table κ) (m : MemorySource) (row column : Nat) (text : String) :
    t.check m row column text =
      if row < m.rows.length ∧ column < m.width * t.fieldCount then
        if t.settings.readOnly then .error ⟨row, column, text, .readOnly⟩
        else (t.root.check column text).mapError fun cause => ⟨row, column, text, cause⟩
      else .error ⟨row, column, text, .outOfBounds m.rows.length (m.width * t.fieldCount)⟩ := by
  by_cases hin : t.inBounds m row column = true
  · rw [check, if_pos hin, if_pos (inBounds_iff.mp hin)]
    split <;> rfl
  · rw [check, if_neg hin, if_neg fun hbounds => hin (inBounds_iff.mpr hbounds)]
    rfl

theorem fits_ofSelection {selection : Selection} {settings : Settings} {width : Nat}
    {rows : List (List Cell)} {converter : Converter κ}
    (hsource : MemorySource.ofRows t.fieldCount width rows = .ok m)
    (hopen : ofSelection selection m settings converter = .ok t) : t.Fits m := by
  rcases MemorySource.ofRows_uniform hsource with ⟨rfl, huniform⟩
  exact ⟨rfl, (fieldCount_ofSelection hopen).2, huniform⟩

theorem isSteady_ofSelection {selection : Selection} {settings : Settings} {t : Table MemberTable}
    (hopen : ofSelection selection m settings MemberTable.converter = .ok t) :
    t.converter.IsSteady := by
  rw [(ofSelection_eq_ok hopen).2]
  exact MemberTable.converter_isSteady

/-- Whatever has happened to an open table, its rows and columns have the shape of the start, the
check of a text goes by that shape, and an edit changes one cell or nothing. -/
theorem actAll_oneCellEdit {selection : Selection} {settings : Settings} {width : Nat}
    {rows : List (List Cell)} {t : Table MemberTable}
    (hsource : MemorySource.ofRows t.fieldCount width rows = .ok m)
    (hopen : ofSelection selection m settings MemberTable.converter = .ok t)
    (actions : List Action) :
    let s := t.actAll ⟨m, .empty, false⟩ actions
    let columns := max width 1 * t.fieldCount
    s.source.rows.map List.length = rows.map List.length ∧
    t.columnCount s.source = columns ∧
    ∀ row column text,
      t.check s.source row column text =
        (if row < rows.length ∧ column < columns then
          if t.settings.readOnly then .error ⟨row, column, text, .readOnly⟩
          else (t.root.check column text).mapError fun cause => ⟨row, column, text, cause⟩
        else .error ⟨row, column, text, .outOfBounds rows.length columns⟩) ∧
      t.OneCellEdit s row column text (t.setData s row column text).1
        (t.setData s row column text).2 := by
  intro s columns
  have hshape : m.SameShape s.source := actAll_sameShape t ⟨m, .empty, false⟩ actions
  have hfits : t.Fits s.source := (fits_ofSelection hsource hopen).of_sameShape hshape
  have hsteady := isSteady_ofSelection hopen
  rcases MemorySource.ofRows_uniform hsource with ⟨rfl, -⟩
  have hwidth : s.source.width = max width 1 := hshape.width
  have hrows : s.source.rows.length = rows.length := hshape.length_rows
  refine ⟨hshape.lengths, congrArg (· * t.fieldCount) hwidth, fun row column text => ⟨?_, ?_⟩⟩
  · rw [check_eq, hrows, hwidth]
  · exact setData_oneCellEdit hfits hsteady row column text

def namedSelection : Selection where
  members := [
    ⟨"color", 0, .scalar (.enumeration ⟨1, true⟩ [⟨"RED", 1⟩, ⟨"BLUE", 2⟩])⟩,
    ⟨"count", 1, .scalar (.integer ⟨1, false⟩)⟩]
  flags := [true, true]
  flags_length := rfl

def namedSource : MemorySource :=
  ⟨2, 2, [[.int 1, .uint 10, .int 2, .uint 20]], [[.int 1, .uint 10, .int 2, .uint 20]]⟩

def namedTable : Table MemberTable :=
  ⟨namedSelection, .build namedSelection.scope namedSelection.compound,
    .ofSelection namedSelection 2, { convertEnumNames := true }, MemberTable.converter⟩

/-- Edits that are accepted and rejected, a write, and a commit past the table. -/
def namedActions : List Action :=
  [.edit 0 2 "RED", .edit 0 1 "300", .display 0 0, .write, .commit 0 1 1 (.uint 30)]

/-- Another color is stored in its cell alone, and a column past the last is out of bounds. -/
theorem actAll_oneCellEdit_named :
    let s := namedTable.actAll ⟨namedSource, .empty, false⟩ namedActions
    let outcome := namedTable.setData s 0 0 "BLUE"
    s.source.rows = [[.int 1, .uint 10, .int 1, .uint 30]] ∧
    outcome.1 = .ok true ∧ outcome.2.dirty = true ∧
    outcome.2.source.persisted = [[.int 1, .uint 10, .int 1, .uint 20]] ∧
    outcome.2.source.cell? 0 0 = some (.int 2) ∧
    namedTable.textAt outcome.2 0 2 = some "RED" ∧
    namedTable.check s.source 0 4 "1" = .error ⟨0, 4, "1", .outOfBounds 1 4⟩ := by
  intro s outcome
  have hsource : MemorySource.ofRows namedTable.fieldCount 2 namedSource.rows =
      .ok namedSource := rfl
  have hopen : ofSelection namedSelection namedSource { convertEnumNames := true }
      MemberTable.converter = .ok namedTable := rfl
  obtain ⟨-, -, hedits⟩ := actAll_oneCellEdit hsource hopen namedActions
  have hanswer : outcome.1 = .ok true := rfl
  rcases hedits 0 0 "BLUE" with ⟨-, hedit⟩
  rcases hedit.stored hanswer with ⟨hdirty, hpersisted, value, hvalue, -, hcell⟩
  have hparse : namedTable.root.parse 0 "BLUE" = .ok (.int 2) := rfl
  rw [hparse] at hvalue
  cases hvalue
  have hother := (hedit.spared hanswer 0 2 (by decide)).2
  have hshown : namedTable.textAt s 0 2 = some "RED" := rfl
  exact ⟨rfl, hanswer, hdirty, hpersisted, hcell, hother.trans hshown, (hedits 0 4 "1").1⟩

end DatasetGrid.Table
