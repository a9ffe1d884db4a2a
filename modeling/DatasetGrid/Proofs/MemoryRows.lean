import DatasetGrid.Table.Source

/-! # Cells of a source in memory

A row lists the fields of all repetitions side by side. Committing a cell puts it at one place of
one row; no other place is touched, and the shape of the rows stays as it was at the start.
-/
namespace DatasetGrid.MemorySource

def cell? (m : MemorySource) (row place : Nat) : Option Cell :=
  m.rows[row]?.bind (·[place]?)

/-- The source with another cell at a place of a row. -/
def put (m : MemorySource) (row place : Nat) (cell : Cell) : MemorySource :=
  { m with rows := m.rows.modify row (·.set place cell) }

variable {m m' : MemorySource} {row place field repetition : Nat}

theorem cell?_put_self {old : Cell} (h : m.cell? row place = some old) (cell : Cell) :
    (m.put row place cell).cell? row place = some cell := by
  rw [cell?, Option.bind_eq_some_iff] at h
  rcases h with ⟨cells, hrow, hplace⟩
  have hlt : place < cells.length := (List.getElem?_eq_some_iff.mp hplace).1
  rw [cell?, put, List.getElem?_modify_eq, hrow]
  exact List.getElem?_set_self hlt

theorem cell?_put_ne {row' place' : Nat} (h : ¬ (row' = row ∧ place' = place)) (cell : Cell) :
    (m.put row place cell).cell? row' place' = m.cell? row' place' := by
  rw [cell?, cell?, put]
  by_cases hrow : row = row'
  · subst hrow
    have hplace : place ≠ place' := fun hsame => h ⟨rfl, hsame.symm⟩
    rw [List.getElem?_modify_eq]
    cases m.rows[row]? with
    | none => rfl
    | some cells => exact List.getElem?_set_ne hplace
  · rw [List.getElem?_modify]
    simp only [if_neg hrow, Option.map_eq_map, Option.map_id']

/-- Cells at different places are put in either order. -/
theorem put_comm (m : MemorySource) {row' place' : Nat} (h : ¬ (row' = row ∧ place' = place))
    (cell other : Cell) : (m.put row place cell).put row' place' other =
      (m.put row' place' other).put row place cell := by
  have hrows : (m.rows.modify row (·.set place cell)).modify row' (·.set place' other) =
      (m.rows.modify row' (·.set place' other)).modify row (·.set place cell) := by
    by_cases hrow : row' = row
    · subst hrow
      have hplace : place ≠ place' := fun hsame => h ⟨rfl, hsame.symm⟩
      rw [List.modify_modify_eq, List.modify_modify_eq]
      congr 1
      funext cells
      exact List.set_comm cell other hplace
    · exact List.modify_modify_ne _ _ m.rows (Ne.symm hrow)
  simp only [put, hrows]

theorem value_eq (hfield : field < m.fields) (hrepetition : repetition < m.width) {cell : Cell}
    (h : m.cell? row (repetition * m.fields + field) = some cell) :
    m.value row field repetition = .ok cell := by
  have hplace : m.offset row field repetition = .ok (repetition * m.fields + field) :=
    if_pos ⟨hfield, hrepetition⟩
  rw [cell?] at h
  simp only [value, hplace, bind, Except.bind, h]

theorem commit_eq (hfield : field < m.fields) (hrepetition : repetition < m.width) {old : Cell}
    (h : m.cell? row (repetition * m.fields + field) = some old) (cell : Cell) :
    m.commit row field repetition cell = .ok (m.put row (repetition * m.fields + field) cell) := by
  have hplace : m.offset row field repetition = .ok (repetition * m.fields + field) :=
    if_pos ⟨hfield, hrepetition⟩
  rw [cell?] at h
  simp only [commit, hplace, bind, Except.bind, h]
  rfl

theorem commit_eq_ok {cell : Cell} (h : m.commit row field repetition cell = .ok m') :
    m' = m.put row (repetition * m.fields + field) cell := by
  rw [commit, offset] at h
  split at h
  · dsimp only [bind, Except.bind] at h
    split at h
    · cases h
      rfl
    · cases h
  · cases h

structure SameShape (m m' : MemorySource) : Prop where
  fields : m'.fields = m.fields
  width : m'.width = m.width
  lengths : m'.rows.map List.length = m.rows.map List.length

namespace SameShape

theorem refl (m : MemorySource) : SameShape m m := ⟨rfl, rfl, rfl⟩

theorem trans {m'' : MemorySource} (h : SameShape m m') (h' : SameShape m' m'') :
    SameShape m m'' :=
  ⟨h'.fields.trans h.fields, h'.width.trans h.width, h'.lengths.trans h.lengths⟩

theorem put (m : MemorySource) (row place : Nat) (cell : Cell) :
    SameShape m (m.put row place cell) := by
  refine ⟨rfl, rfl, List.ext_getElem? fun i => ?_⟩
  rw [List.getElem?_map, List.getElem?_map, MemorySource.put, List.getElem?_modify]
  cases m.rows[i]? with
  | none => rfl
  | some cells =>
    by_cases hrow : row = i
    · simp [hrow]
    · simp [hrow]

theorem commit {cell : Cell} (h : m.commit row field repetition cell = .ok m') :
    SameShape m m' := by
  rw [commit_eq_ok h]
  exact .put m row _ cell

theorem flush (m : MemorySource) : SameShape m m.flush := ⟨rfl, rfl, rfl⟩

theorem length_rows (h : SameShape m m') : m'.rows.length = m.rows.length := by
  simpa using congrArg List.length h.lengths

end SameShape

/-- Every row holds all repetitions of the fields. -/
def Uniform (m : MemorySource) : Prop :=
  ∀ cells ∈ m.rows, cells.length = m.width * m.fields

theorem Uniform.of_sameShape (h : m.Uniform) (hshape : SameShape m m') : m'.Uniform := by
  intro cells hcells
  have hlength : cells.length ∈ m.rows.map List.length := by
    rw [← hshape.lengths]
    exact List.mem_map_of_mem hcells
  rcases List.mem_map.mp hlength with ⟨before, hbefore, hsame⟩
  rw [← hsame, h before hbefore, hshape.width, hshape.fields]

theorem Uniform.cell? (h : m.Uniform) (hrow : row < m.rows.length)
    (hplace : place < m.width * m.fields) : ∃ cell, m.cell? row place = some cell := by
  have hlt : place < m.rows[row].length := by
    rw [h _ (List.getElem_mem hrow)]
    exact hplace
  refine ⟨m.rows[row][place], ?_⟩
  rw [MemorySource.cell?, List.getElem?_eq_getElem hrow, Option.bind_some,
    List.getElem?_eq_getElem hlt]

theorem ofRows_uniform {fields width : Nat} {rows : List (List Cell)}
    (h : ofRows fields width rows = .ok m) :
    m = ⟨fields, max width 1, rows, rows⟩ ∧ m.Uniform := by
  rw [ofRows] at h
  split at h
  · cases h
  · rename_i hfits
    cases h
    refine ⟨rfl, fun cells hcells => ?_⟩
    rcases List.getElem_of_mem hcells with ⟨i, hi, rfl⟩
    have hrow := List.find?_eq_none.mp hfits _ (List.mk_mem_zipIdx_iff_getElem?.mpr
      (List.getElem?_eq_getElem hi))
    simpa [Nat.mul_comm] using hrow

end DatasetGrid.MemorySource
