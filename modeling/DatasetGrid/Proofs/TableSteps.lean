import DatasetGrid.Table.Basic

/-! # What an edit and a write do to a table

Each operation that may change a table, with all its outcomes.
-/
namespace DatasetGrid.Table

variable {σ κ : Type} [Source σ] {t : Table κ} {s : TableState σ κ} {row column : Nat}
  {text : String}

theorem eq_converter {c : Converter κ} (h : t.display.names = some c) : c = t.converter := by
  simp only [display] at h
  split at h
  · cases h
    rfl
  · cases h

def shownBefore (t : Table κ) (s : TableState σ κ) (row column : Nat) : Option String × κ :=
  (t.displayText s.source row column).run s.names

theorem setData_refused {rejection : Rejection}
    (h : t.check s.source row column text = .error rejection) :
    t.setData s row column text = (.error (.rejected rejection), s) := by
  simp only [setData, h]

theorem setData_unchanged (h : t.check s.source row column text = .ok ())
    (hshown : (t.shownBefore s row column).1 = some text) :
    t.setData s row column text =
      (.ok false, { s with names := (t.shownBefore s row column).2 }) := by
  simp only [setData, h]
  exact if_pos hshown

theorem setData_changed (h : t.check s.source row column text = .ok ())
    (hshown : (t.shownBefore s row column).1 ≠ some text) :
    t.setData s row column text =
      match t.store { s with names := (t.shownBefore s row column).2 } row column text with
      | .error error => (.error error, { s with names := (t.shownBefore s row column).2 })
      | .ok s => (.ok true, s) := by
  simp only [setData, h]
  exact if_neg hshown

theorem store_unread {cause : Fault} (h : t.root.parse column text = .error cause) :
    t.store s row column text = .error (.rejected ⟨row, column, text, cause⟩) := by
  rw [store, h]
  rfl

theorem store_read {value : Cell} (h : t.root.parse column text = .ok value) :
    t.store s row column text =
      (Source.commit s.source row (t.locate column).1 (t.locate column).2 value).map
        fun source => { s with source, dirty := true } := by
  rw [store, h]
  change (Source.commit s.source row (t.locate column).1 (t.locate column).2 value >>= fun source =>
    pure { s with source, dirty := true }) = _
  cases Source.commit s.source row (t.locate column).1 (t.locate column).2 value <;> rfl

/-- An edit that answers with a change has committed one cell and marked the table. -/
theorem setData_eq_ok_true (h : (t.setData s row column text).1 = .ok true) :
    ∃ value source names, t.root.parse column text = .ok value ∧
      Source.commit s.source row (t.locate column).1 (t.locate column).2 value = .ok source ∧
      (t.setData s row column text).2 = ⟨source, names, true⟩ := by
  cases hcheck : t.check s.source row column text with
  | error rejection =>
    rw [setData_refused hcheck] at h
    cases h
  | ok _ =>
    by_cases hshown : (t.shownBefore s row column).1 = some text
    · rw [setData_unchanged hcheck hshown] at h
      cases h
    · rw [setData_changed hcheck hshown] at h ⊢
      cases hparse : t.root.parse column text with
      | error cause =>
        rw [store_unread hparse] at h
        cases h
      | ok value =>
        rw [store_read hparse] at h ⊢
        dsimp only at h ⊢
        cases hcommit :
          Source.commit s.source row (t.locate column).1 (t.locate column).2 value with
        | error error =>
          rw [hcommit] at h
          cases h
        | ok source => exact ⟨value, source, _, rfl, hcommit, rfl⟩

/-- An edit with any other answer leaves the source and the mark alone. -/
theorem setData_ne_ok_true (h : (t.setData s row column text).1 ≠ .ok true) :
    (t.setData s row column text).2.source = s.source ∧
      (t.setData s row column text).2.dirty = s.dirty := by
  cases hcheck : t.check s.source row column text with
  | error rejection => rw [setData_refused hcheck]; exact ⟨rfl, rfl⟩
  | ok _ =>
    by_cases hshown : (t.shownBefore s row column).1 = some text
    · rw [setData_unchanged hcheck hshown]
      exact ⟨rfl, rfl⟩
    · rw [setData_changed hcheck hshown] at h ⊢
      cases hstore : t.store { s with names := (t.shownBefore s row column).2 } row column text with
      | error error => exact ⟨rfl, rfl⟩
      | ok stored =>
        rw [hstore] at h
        exact absurd rfl h

theorem names_setData (t : Table κ) (s : TableState σ κ) (row column : Nat) (text : String) :
    (t.setData s row column text).2.names = s.names ∨
      (t.setData s row column text).2.names = (t.shownBefore s row column).2 := by
  cases hcheck : t.check s.source row column text with
  | error rejection =>
    rw [setData_refused hcheck]
    exact .inl rfl
  | ok _ =>
    right
    by_cases hshown : (t.shownBefore s row column).1 = some text
    · rw [setData_unchanged hcheck hshown]
    · rw [setData_changed hcheck hshown]
      cases hparse : t.root.parse column text with
      | error cause => rw [store_unread hparse]
      | ok value =>
        rw [store_read hparse]
        dsimp only
        cases Source.commit s.source row (t.locate column).1 (t.locate column).2 value <;> rfl

/-- A table that may not be edited refuses every edit and writes nothing. -/
theorem setData_readOnly (h : t.settings.readOnly = true) :
    (t.setData s row column text).2 = s := by
  have hcheck : ∃ rejection, t.check s.source row column text = .error rejection := by
    simp only [check, h, if_true]
    split <;> exact ⟨_, rfl⟩
  rcases hcheck with ⟨rejection, hcheck⟩
  rw [setData_refused hcheck]

theorem writeOut_readOnly (h : t.settings.readOnly = true) : t.writeOut s = (.ok false, s) := by
  rw [writeOut, h]
  rfl

/-- A write that answers with a change has flushed the edits and cleared the mark. -/
theorem writeOut_eq_ok_true (h : (t.writeOut s).1 = .ok true) :
    ∃ source, Source.flush s.source = .ok source ∧
      (t.writeOut s).2 = ⟨source, s.names, false⟩ := by
  rw [writeOut] at h ⊢
  split
  · rename_i hidle
    rw [if_pos hidle] at h
    cases h
  · rename_i hpending
    rw [if_neg hpending] at h
    cases hflush : Source.flush s.source with
    | error error =>
      rw [hflush] at h
      cases h
    | ok source => exact ⟨source, rfl, rfl⟩

/-- A write with any other answer, a failed flush among them, leaves the table as it was. -/
theorem writeOut_ne_ok_true (h : (t.writeOut s).1 ≠ .ok true) : (t.writeOut s).2 = s := by
  rw [writeOut] at h ⊢
  split
  · rfl
  · rename_i hpending
    rw [if_neg hpending] at h
    cases hflush : Source.flush s.source with
    | error error => rfl
    | ok source =>
      rw [hflush] at h
      exact absurd rfl h

theorem names_writeOut (t : Table κ) (s : TableState σ κ) : (t.writeOut s).2.names = s.names := by
  by_cases h : (t.writeOut s).1 = .ok true
  · rcases writeOut_eq_ok_true h with ⟨source, -, hafter⟩
    rw [hafter]
  · rw [writeOut_ne_ok_true h]

theorem dirty_of_writeOut_error {error : TableError} (h : (t.writeOut s).1 = .error error) :
    s.dirty = true := by
  cases hmark : s.dirty with
  | true => rfl
  | false =>
    rw [writeOut, if_pos (by simp [hmark])] at h
    cases h

end DatasetGrid.Table
