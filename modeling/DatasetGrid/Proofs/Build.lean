import DatasetGrid.Proofs.Dispatch

/-! # The editors that are built

What is built for arrays, sequences and compounds inside lists, where every member takes part, and
the tokens that one of their values takes.
-/
namespace DatasetGrid

theorem Scope.visible_all (members : List (Member Datatype)) :
    Scope.all.visible members = members := by
  rw [visible, List.filter_eq_self]
  exact fun _ _ => rfl

section Counts

variable {dims : List Nat}

theorem foldl_wrapped (dims : List Nat) (order : Nat) :
    dims.foldl (fun order dim => wrapped (order * dim)) (wrapped order) =
      wrapped (order * elementCount dims) := by
  induction dims generalizing order with
  | nil => exact congrArg wrapped (Nat.mul_one order).symm
  | cons dim rest ih =>
    have hstep : wrapped (wrapped order * dim) = wrapped (order * dim) := Nat.mod_mul_mod _ _ _
    have hcount : elementCount (dim :: rest) = dim * elementCount rest := rfl
    rw [List.foldl_cons, hstep, ih, hcount, Nat.mul_assoc]

theorem arrayOrder_eq (dims : List Nat) : arrayOrder dims = wrapped (elementCount dims) :=
  (foldl_wrapped dims 1).trans (congrArg wrapped (Nat.one_mul _))

theorem arrayOrder_lt (dims : List Nat) : arrayOrder dims < wordCount := by
  rw [arrayOrder_eq]
  exact Nat.mod_lt _ (by decide)

theorem arrayOrder_of_lt (h : elementCount dims < wordCount) :
    arrayOrder dims = elementCount dims := by
  rw [arrayOrder_eq, wrapped_of_lt h]

theorem elementCount_pos (h : dims.all (0 < ·)) : 0 < elementCount dims := by
  induction dims with
  | nil => exact Nat.one_pos
  | cons dim rest ih =>
    simp only [List.all_cons, Bool.and_eq_true, decide_eq_true_eq] at h
    exact Nat.mul_pos h.1 (ih h.2)

end Counts

namespace Editor

theorem build_varString {base : Datatype} {length : StringLength}
    (h : base.stringLength? = some length) : build .all (.sequence base) = .varString length := by
  simp only [build, h]

theorem build_sequence {base : Datatype} (h : base.stringLength? = none) :
    build .all (.sequence base) = .sequence base (build .all base) := by
  simp only [build, h]

theorem stringLength?_of_isString {base : Datatype} (h : base.isString = true) :
    ∃ length, base.stringLength? = some length := by
  rcases base with ⟨type⟩ | _ | _ | _
  · cases type with
    | string length => exact ⟨length, rfl⟩
    | _ => cases h
  all_goals cases h

theorem stringLength?_of_not_isString {base : Datatype} (h : base.isString = false) :
    base.stringLength? = none := by
  rcases base with ⟨type⟩ | _ | _ | _
  · cases type with
    | string length => cases h
    | _ => rfl
  all_goals rfl

theorem width_string {base : Datatype} (h : (base.isString || base.isVarString) = true) :
    (build .all base).width = 1 := by
  cases base with
  | scalar type =>
    cases type with
    | string length => rfl
    | _ => cases h
  | sequence base =>
    rcases stringLength?_of_isString h with ⟨length, hlength⟩
    rw [build_varString hlength]
    rfl
  | _ => cases h

theorem width_pos (element : Editor) : 0 < element.width :=
  Nat.lt_of_lt_of_le Nat.one_pos (Nat.le_max_right _ _)

section Arrays

variable {base : Datatype} {dims : List Nat}

/-- The tokens of an array are those of its elements, as far as a word can count them. -/
theorem tokens_array : (build .all (.array base dims)).tokens =
    wrapped (arrayOrder dims * (build .all base).width) := by
  rw [build, tokens]
  split
  · rename_i hstring
    rw [width_string hstring, Nat.mul_one, wrapped_of_lt (arrayOrder_lt dims)]
  · rfl

theorem expectedTokens?_of_lt {element : Editor}
    (hstring : (base.isString || base.isVarString) = false)
    (h : arrayOrder dims * element.width < wordCount) :
    expectedTokens? base dims element = some (arrayOrder dims * element.width) := by
  rw [expectedTokens?, hstring, wrapped_of_lt h]
  rfl

theorem expectedTokens?_eq {element : Editor} {count : Nat}
    (h : expectedTokens? base dims element = some count) :
    count = wrapped (arrayOrder dims * element.width) := by
  rw [expectedTokens?] at h
  split at h
  · cases h
  · cases h
    rfl

end Arrays

theorem flatMap_leavesOf_all (members : List (Member Datatype)) :
    members.flatMap (Scope.all.leavesOf "") = Datatype.leavesUnder "" members := by
  rw [← leavesUnder_filter, List.filter_eq_self]
  exact fun _ _ => rfl

theorem build_compound_all {members : List (Member Datatype)}
    (h : Datatype.leavesUnder "" members ≠ []) :
    build .all (.compound members) =
      .compound members (.build .all (members.map (·.type)))
        (members.map fun m => build .all m.type) := by
  rw [← flatMap_leavesOf_all] at h
  rw [build_compound h, Scope.visible_all]

end Editor

end DatasetGrid
