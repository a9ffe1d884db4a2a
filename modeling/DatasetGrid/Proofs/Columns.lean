import DatasetGrid.Proofs.Induction

/-! # Columns and visible leaves

A scope hides leaves by their nodes alone. The column map lists the member of each visible leaf,
left to right, so a column splits into a member and the number of the leaf within that member.
-/
namespace DatasetGrid

/-- Whether a leaf takes a column. No compound on the way to a leaf is ever hidden. -/
def Scope.keeps : Scope → Leaf → Bool
  | .all, _ => true
  | .only nodes, leaf => nodes.contains leaf.node

/-- Numbers past the last item begin again at the first. -/
theorem exists_getElem?_mod {α : Type} {xs : List α} (h : xs ≠ []) (i : Nat) :
    ∃ x, xs[i % xs.length]? = some x :=
  ⟨_, List.getElem?_eq_getElem (Nat.mod_lt i (List.length_pos_iff.mpr h))⟩

def Scope.leavesOf (scope : Scope) (group : String) (m : Member Datatype) : List Leaf :=
  (Datatype.leavesAt (memberPath group m.name) m.node m.type).filter scope.keeps

theorem leavesUnder_eq_flatMap (group : String) (members : List (Member Datatype)) :
    Datatype.leavesUnder group members =
      members.flatMap fun m => m.type.leavesAt (memberPath group m.name) m.node := by
  induction members with
  | nil => rfl
  | cons m rest ih => rw [Datatype.leavesUnder, ih, List.flatMap_cons]

theorem leavesUnder_filter (scope : Scope) (group : String) (members : List (Member Datatype)) :
    (Datatype.leavesUnder group members).filter scope.keeps =
      members.flatMap (scope.leavesOf group) := by
  rw [leavesUnder_eq_flatMap, List.filter_flatMap]
  rfl

theorem leavesOf_hidden {scope : Scope} {m : Member Datatype} (h : scope.shows m = false)
    (group : String) : scope.leavesOf group m = [] := by
  rcases m with ⟨name, node, type⟩
  cases scope with
  | all => cases h
  | only nodes =>
    cases type <;>
      simp_all [Scope.shows, Scope.leavesOf, Scope.keeps, Datatype.leavesAt, Datatype.isCompound]

theorem leavesOf_leaf {scope : Scope} {m : Member Datatype} (h : scope.shows m = true)
    (hm : m.type.isCompound = false) (group : String) :
    scope.leavesOf group m = [⟨memberPath group m.name, m.node, m.type⟩] := by
  rcases m with ⟨name, node, type⟩
  have hk : scope.keeps ⟨memberPath group name, node, type⟩ = true := by
    cases scope with
    | all => rfl
    | only nodes => simpa [Scope.shows, Scope.keeps, show type.isCompound = false from hm] using h
  cases type with
  | compound members => cases hm
  | _ => simp [Scope.leavesOf, Datatype.leavesAt, hk]

theorem flatMap_visible (scope : Scope) (group : String) (members : List (Member Datatype)) :
    (scope.visible members).flatMap (scope.leavesOf group) =
      members.flatMap (scope.leavesOf group) := by
  induction members with
  | nil => rfl
  | cons m rest ih =>
    cases h : scope.shows m with
    | true => simpa [Scope.visible, h] using ih
    | false => simpa [Scope.visible, h, leavesOf_hidden h] using ih

/-- A leaf has whatever compounds hand down to their members. -/
theorem of_mem_leavesAt {P : Datatype → Prop}
    (hmembers : ∀ members, P (.compound members) → ∀ m ∈ members, P m.type) {type : Datatype}
    (htype : P type) {path : String} {node : Nat} {leaf : Leaf}
    (h : leaf ∈ type.leavesAt path node) : P leaf.type ∧ leaf.type.isCompound = false := by
  induction type generalizing path node with
  | compound members ih =>
    rw [Datatype.leavesAt, leavesUnder_eq_flatMap, List.mem_flatMap] at h
    obtain ⟨m, hm, hleaf⟩ := h
    exact ih m hm (hmembers members htype m hm) hleaf
  | _ =>
    rw [Datatype.leavesAt, List.mem_singleton] at h
    rw [h]
    exact ⟨htype, rfl⟩

/-- No leaf is a compound, since compounds open up. -/
theorem isCompound_of_mem_leavesAt {path : String} {node : Nat} {type : Datatype} {leaf : Leaf}
    (h : leaf ∈ type.leavesAt path node) : leaf.type.isCompound = false :=
  (of_mem_leavesAt (P := fun _ => True) (fun _ _ _ _ => trivial) trivial h).2

namespace ColumnMap

theorem slotsUnder_eq_flatMap (scope : Scope) (slot : Slot) (members : List (Member Datatype)) :
    slotsUnder scope slot members =
      (scope.visible members).flatMap fun m => slotsAt scope slot m.type := by
  induction members with
  | nil => rfl
  | cons m rest ih => cases h : scope.shows m <;> simp [slotsUnder, Scope.visible, h, ih]

theorem flatMap_eq_replicate {α β γ : Type} {b : β} {f : α → List β} {g : α → List γ}
    {xs : List α} (h : ∀ x ∈ xs, f x = List.replicate (g x).length b) :
    xs.flatMap f = List.replicate (xs.flatMap g).length b := by
  induction xs with
  | nil => rfl
  | cons x xs ih =>
    rw [List.flatMap_cons, List.flatMap_cons, h x List.mem_cons_self,
      ih fun y hy => h y (List.mem_cons_of_mem _ hy), List.length_append,
      List.replicate_append_replicate]

theorem slotsAt_eq_replicate {scope : Scope} {m : Member Datatype} (h : scope.shows m = true)
    (slot : Slot) (group : String) :
    slotsAt scope slot m.type = List.replicate (scope.leavesOf group m).length slot := by
  rcases m with ⟨name, node, type⟩
  induction type generalizing group name node with
  | compound members ih =>
    simp only [slotsAt, Scope.leavesOf, Datatype.leavesAt, leavesUnder_filter,
      slotsUnder_eq_flatMap]
    rw [← flatMap_visible]
    apply flatMap_eq_replicate
    intro m hm
    have hm := List.mem_filter.mp hm
    exact ih m hm.1 _ _ _ hm.2
  | _ =>
    rw [leavesOf_leaf h rfl]
    rfl

/-- The slots of a list of shown members, against the list of their leaves: a column with a leaf
belongs to some member, and its distance from the member's first column numbers the leaf there. -/
theorem walk_getElem? {scope : Scope} {members : List (Member Datatype)}
    (hshow : ∀ m ∈ members, scope.shows m = true) (group : String) (first start column : Nat)
    {leaf : Leaf} (hleaf : (members.flatMap (scope.leavesOf group))[column]? = some leaf) :
    ∃ j m rel, members[j]? = some m ∧ rel ≤ column ∧
      (walk scope first start (members.map (·.type))).slots[column]? =
        some ⟨first + j, start + (column - rel)⟩ ∧
      (scope.leavesOf group m)[rel]? = some leaf := by
  induction members generalizing first start column with
  | nil => simp at hleaf
  | cons m rest ih =>
    have hslots := slotsAt_eq_replicate (hshow m List.mem_cons_self) ⟨first, start⟩ group
    simp only [List.map_cons, walk, hslots, List.length_replicate]
    rw [List.flatMap_cons] at hleaf
    by_cases hc : column < (scope.leavesOf group m).length
    · rw [List.getElem?_append_left hc] at hleaf
      refine ⟨0, m, column, rfl, Nat.le_refl _, ?_, hleaf⟩
      rw [List.getElem?_append_left (by simpa using hc)]
      simp [hc]
    · rw [List.getElem?_append_right (by omega)] at hleaf
      obtain ⟨j, m', rel, hj, hrel, hslot, hm'⟩ :=
        ih (fun m hm => hshow m (List.mem_cons_of_mem _ hm)) (first + 1)
          (start + (scope.leavesOf group m).length) _ hleaf
      refine ⟨j + 1, m', rel, hj, by omega, ?_, hm'⟩
      rw [List.getElem?_append_right (by simpa using hc), List.length_replicate, hslot]
      simp only [Option.some.injEq, Slot.mk.injEq]
      omega

theorem length_walk {scope : Scope} {members : List (Member Datatype)}
    (hshow : ∀ m ∈ members, scope.shows m = true) (group : String) (first start : Nat) :
    (walk scope first start (members.map (·.type))).slots.length =
      (members.flatMap (scope.leavesOf group)).length := by
  induction members generalizing first start with
  | nil => rfl
  | cons m rest ih =>
    have hslots := slotsAt_eq_replicate (hshow m List.mem_cons_self) ⟨first, start⟩ group
    simp only [List.map_cons, walk, hslots, List.flatMap_cons, List.length_append,
      List.length_replicate]
    rw [ih fun m hm => hshow m (List.mem_cons_of_mem _ hm)]

theorem shows_of_mem_visible {scope : Scope} {members : List (Member Datatype)}
    {m : Member Datatype} (h : m ∈ scope.visible members) : scope.shows m = true :=
  (List.mem_filter.mp h).2

theorem build_size (scope : Scope) (group : String) (members : List (Member Datatype)) :
    (build scope ((scope.visible members).map (·.type))).size =
      (members.flatMap (scope.leavesOf group)).length := by
  rw [← flatMap_visible]
  exact length_walk (fun _ hm => shows_of_mem_visible hm) group 0 0

theorem build_isEmpty (scope : Scope) (group : String) (members : List (Member Datatype)) :
    (build scope ((scope.visible members).map (·.type))).isEmpty =
      (members.flatMap (scope.leavesOf group)).isEmpty := by
  have hsize := build_size scope group members
  rw [size] at hsize
  rw [isEmpty, Bool.eq_iff_iff, List.isEmpty_iff_length_eq_zero, List.isEmpty_iff_length_eq_zero,
    hsize]

/-- A column of a compound leads to the member that holds its leaf. -/
theorem build_locate? {scope : Scope} {group : String} {members : List (Member Datatype)}
    {column : Nat} {leaf : Leaf}
    (hleaf : (members.flatMap (scope.leavesOf group))[
      column % (members.flatMap (scope.leavesOf group)).length]? = some leaf) :
    ∃ j m rel, (scope.visible members)[j]? = some m ∧
      (build scope ((scope.visible members).map (·.type))).locate? column = some (j, rel) ∧
      (scope.leavesOf group m)[rel]? = some leaf := by
  rw [← flatMap_visible] at hleaf
  obtain ⟨j, m, rel, hj, hrel, hslot, hm⟩ :=
    walk_getElem? (fun _ hm => shows_of_mem_visible hm) group 0 0 _ hleaf
  refine ⟨j, m, rel, hj, ?_, hm⟩
  rw [locate?, build_size scope group, ← flatMap_visible]
  simp only [slot?, build, hslot, Option.map_some, Option.some.injEq, Prod.mk.injEq]
  omega

end ColumnMap

end DatasetGrid
