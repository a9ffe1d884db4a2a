import DatasetGrid.Proofs.Columns
import DatasetGrid.Table.Basic

/-! # The editor behind a column

A column of a compound passes from editor to editor until it reaches one that is no compound. That
editor is the one of the leaf with the column's number, whatever else is hidden, and checking,
reading and showing the column are its work alone.
-/
namespace DatasetGrid

def Leaf.editor (leaf : Leaf) : Editor :=
  .build .all leaf.type

def Cell.isCompound : Cell → Bool
  | .compound _ => true
  | _ => false

def Editor.isRefusing : Editor → Bool
  | .refusing _ => true
  | _ => false

namespace Editor

mutual

/-- The editor that a column reaches in the end, past all compounds. -/
def server? : Editor → Nat → Option Editor
  | .compound _ map editors, column =>
    match map.locate? column with
    | some (member, relative) => serverAt editors member relative
    | none => none
  | editor, _ => some editor

def serverAt : List Editor → Nat → Nat → Option Editor
  | [], _, _ => none
  | editor :: _, 0, column => editor.server? column
  | _ :: editors, member + 1, column => serverAt editors member column

end

/-- A function of editors and columns, on a list of editors, is the one of the editor named. -/
theorem runAt_eq {α : Type} (run : Editor → Nat → α) (runAt : List Editor → Nat → Nat → α)
    (hzero : ∀ e editors column, runAt (e :: editors) 0 column = run e column)
    (hsucc : ∀ e editors member column,
      runAt (e :: editors) (member + 1) column = runAt editors member column)
    {editors : List Editor} {member : Nat} {e : Editor} (h : editors[member]? = some e)
    (column : Nat) : runAt editors member column = run e column := by
  induction editors generalizing member with
  | nil => cases h
  | cons e' editors ih =>
    cases member with
    | zero =>
      cases h
      exact hzero e editors column
    | succ member =>
      rw [hsucc]
      exact ih h

theorem serverAt_eq (editors : List Editor) (member column : Nat) :
    serverAt editors member column = editors[member]?.bind (·.server? column) := by
  cases h : editors[member]? with
  | some e =>
    exact runAt_eq server? serverAt (fun _ _ _ => by rw [serverAt])
      (fun _ _ _ _ => by rw [serverAt]) h column
  | none =>
    induction editors generalizing member with
    | nil => rfl
    | cons e editors ih =>
      cases member with
      | zero => cases h
      | succ member =>
        rw [serverAt]
        exact ih member h

theorem server?_compound {members : List (Member Datatype)} {map : ColumnMap}
    {editors : List Editor} {column : Nat} {e : Editor} :
    (Editor.compound members map editors).server? column = some e ↔
      ∃ member relative m, map.locate? column = some (member, relative) ∧
        editors[member]? = some m ∧ m.server? relative = some e := by
  rw [server?]
  cases map.locate? column with
  | none => simp only [reduceCtorEq, false_and, exists_false]
  | some place =>
    rcases place with ⟨member, relative⟩
    simp only [serverAt_eq, Option.bind_eq_some_iff, Option.some.injEq]
    constructor
    · rintro ⟨m, hm, hserver⟩
      exact ⟨member, relative, m, rfl, hm, hserver⟩
    · rintro ⟨_, _, m, hplace, hm, hserver⟩
      cases hplace
      exact ⟨m, hm, hserver⟩

/-- What is done with a column of a compound is done by the member there; any other editor does
the same in all columns. -/
structure Dispatches {α : Type} (run : Editor → Nat → α) : Prop where
  member : ∀ {members map editors column member relative m},
    map.locate? column = some (member, relative) → editors[member]? = some m →
      run (.compound members map editors) column = run m relative
  leaf : ∀ {e column}, e.columnMap? = none → run e column = run e 0

theorem Dispatches.eq_server {α : Type} {run : Editor → Nat → α} (hrun : Dispatches run)
    {editor server : Editor} {column : Nat} (h : editor.server? column = some server) :
    run editor column = run server 0 := by
  induction editor generalizing column with
  | compound members map editors ih =>
    rcases server?_compound.mp h with ⟨member, relative, m, hplace, hm, hserver⟩
    rw [hrun.member hplace hm]
    exact ih m (List.mem_of_getElem? hm) hserver
  | _ =>
    cases h
    exact hrun.leaf rfl

theorem check_dispatches (text : String) : Dispatches fun e column => e.check column text where
  member hplace hm := by
    simp only [check, hplace]
    exact runAt_eq (fun e column => e.check column text)
      (fun editors member column => checkAt editors member column text)
      (fun _ _ _ => by rw [checkAt]) (fun _ _ _ _ => by rw [checkAt]) hm _
  leaf {e column} he := by
    cases e with
    | compound members map editors => cases he
    | _ => simp only [check]

theorem parse_dispatches (text : String) : Dispatches fun e column => e.parse column text where
  member hplace hm := by
    simp only [parse, hplace]
    exact runAt_eq (fun e column => e.parse column text)
      (fun editors member column => parseAt editors member column text)
      (fun _ _ _ => by rw [parseAt]) (fun _ _ _ _ => by rw [parseAt]) hm _
  leaf {e column} he := by
    cases e with
    | compound members map editors => cases he
    | _ => simp only [parse]

/-- A cell that is no compound is shown by the member of its column. -/
theorem render_compound_at {σ : Type} {d : Display σ} {members : List (Member Datatype)}
    {map : ColumnMap} {editors : List Editor} {column member relative : Nat} {value : Cell}
    (hplace : map.locate? column = some (member, relative)) (hvalue : value.isCompound = false) :
    (Editor.compound members map editors).render d column value =
      renderAt d editors member relative value := by
  cases value with
  | compound items => cases hvalue
  | _ => simp only [render, hplace]

theorem render_dispatches {σ : Type} (d : Display σ) {value : Cell}
    (hvalue : value.isCompound = false) : Dispatches fun e column => e.render d column value where
  member {members map editors column member relative m} hplace hm := by
    rw [render_compound_at hplace hvalue]
    exact runAt_eq (fun e column => e.render d column value)
      (fun editors member column => renderAt d editors member column value)
      (fun _ _ _ => by rw [renderAt]) (fun _ _ _ _ => by rw [renderAt]) hm _
  leaf {e column} he := by
    cases e with
    | compound members map editors => cases he
    | _ => simp only [render]

theorem build_leaf {type : Datatype} (h : type.isCompound = false) (scope : Scope) :
    build scope type = build .all type := by
  cases type with
  | compound members => cases h
  | _ => simp only [build]

theorem isRefusing_build_leaf {type : Datatype} (h : type.isCompound = false) (scope : Scope) :
    (build scope type).isRefusing = false := by
  cases type with
  | compound members => cases h
  | sequence base =>
    rw [build]
    cases base.stringLength? <;> rfl
  | _ => simp only [build, isRefusing]

theorem server?_build_leaf {type : Datatype} (h : type.isCompound = false) (scope : Scope)
    (column : Nat) : (build scope type).server? column = some (build scope type) := by
  cases type with
  | compound members => cases h
  | sequence base =>
    rw [build]
    cases base.stringLength? <;> simp only [server?]
  | _ => simp only [build, server?]

theorem build_compound {scope : Scope} {group : String} {members : List (Member Datatype)}
    (h : members.flatMap (scope.leavesOf group) ≠ []) :
    build scope (.compound members) =
      .compound members (.build scope ((scope.visible members).map (·.type)))
        ((scope.visible members).map fun m => build scope m.type) := by
  have hempty : (members.flatMap (scope.leavesOf group)).isEmpty = false :=
    List.isEmpty_eq_false_iff.mpr h
  simp only [build, ColumnMap.build_isEmpty scope group, hempty, Bool.false_eq_true, if_false,
    buildVisible_eq_map]

/-- A column leads to the editor of the visible leaf with its number; past the last leaf the
numbers begin again. -/
theorem server?_build {scope : Scope} {type : Datatype} (path : String) (node : Nat)
    {column : Nat} {leaf : Leaf} (h : ((type.leavesAt path node).filter scope.keeps)[
      column % ((type.leavesAt path node).filter scope.keeps).length]? = some leaf) :
    (build scope type).server? column = some leaf.editor := by
  induction type generalizing path node column with
  | compound members ih =>
    rw [Datatype.leavesAt, leavesUnder_filter] at h
    have hne : members.flatMap (scope.leavesOf path) ≠ [] := by
      intro hnil
      rw [hnil] at h
      cases h
    rw [build_compound hne, server?_compound]
    rcases ColumnMap.build_locate? h with ⟨j, m, rel, hj, hplace, hleaf⟩
    refine ⟨j, rel, build scope m.type, hplace, by rw [List.getElem?_map, hj]; rfl, ?_⟩
    have hmem := List.mem_of_getElem? hj
    -- The column within the member is below the member's width, so the remainder keeps it.
    have hrel : rel < (scope.leavesOf path m).length := (List.getElem?_eq_some_iff.mp hleaf).1
    apply ih m (List.mem_filter.mp hmem).1 (memberPath path m.name) m.node
    rw [← Scope.leavesOf, Nat.mod_eq_of_lt hrel]
    exact hleaf
  | _ =>
    have hmem := List.mem_filter.mp (List.mem_of_getElem? h)
    rw [Datatype.leavesAt, List.mem_singleton] at hmem
    rw [server?_build_leaf rfl, hmem.1, Leaf.editor, build_leaf rfl]

end Editor

end DatasetGrid
