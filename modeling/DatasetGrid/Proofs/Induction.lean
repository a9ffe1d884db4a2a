import DatasetGrid.Editor.Basic

/-! # Induction over datatypes and editors

Both trees nest through lists of children. The induction hypothesis for a compound covers every
child of the list.
-/
namespace DatasetGrid

@[induction_eliminator]
theorem Datatype.induction {motive : Datatype → Prop}
    (scalar : ∀ type, motive (.scalar type))
    (array : ∀ base dims, motive base → motive (.array base dims))
    (sequence : ∀ base, motive base → motive (.sequence base))
    (compound : ∀ members, (∀ m ∈ members, motive m.type) → motive (.compound members))
    (type : Datatype) : motive type := by
  refine @Datatype.rec motive (fun members => ∀ m ∈ members, motive m.type)
    (fun m => motive m.type) scalar array sequence compound ?_ ?_ ?_ type
  · intro m hm
    cases hm
  · intro head tail hhead htail m hm
    rcases List.mem_cons.mp hm with rfl | hm
    · exact hhead
    · exact htail m hm
  · intro _ _ _ htype
    exact htype

@[induction_eliminator]
theorem Editor.induction {motive : Editor → Prop}
    (scalar : ∀ type, motive (.scalar type))
    (varString : ∀ base, motive (.varString base))
    (array : ∀ base dims element, motive element → motive (.array base dims element))
    (sequence : ∀ base element, motive element → motive (.sequence base element))
    (compound : ∀ members map editors, (∀ e ∈ editors, motive e) →
      motive (.compound members map editors))
    (refusing : ∀ type, motive (.refusing type))
    (editor : Editor) : motive editor := by
  refine @Editor.rec motive (fun editors => ∀ e ∈ editors, motive e)
    scalar varString array sequence compound refusing ?_ ?_ editor
  · intro e he
    cases he
  · intro head tail hhead htail e he
    rcases List.mem_cons.mp he with rfl | he
    · exact hhead
    · exact htail e he

end DatasetGrid
