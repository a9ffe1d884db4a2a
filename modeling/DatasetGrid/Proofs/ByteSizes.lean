import DatasetGrid.Proofs.Columns
import Mathlib.Algebra.GroupWithZero.Nat

/-! # Byte sizes of compounds

A compound takes the bytes of its leaves and no others, however the compounds in it nest, and its
size is fixed where the size of every leaf is. What leaves a size open is a sequence or a string of
variable length, be it the leaf itself or a part that the elements of an array hold in place, below
any number of arrays and compounds.
-/
namespace DatasetGrid

/-- The sum of sizes, none as soon as one of them is open. -/
def addUp? : List (Option Nat) → Option Nat
  | [] => some 0
  | size :: rest => size.bind fun bytes => (addUp? rest).map (bytes + ·)

section AddUp

variable {sizes : List (Option Nat)} {total : Nat}

theorem addUp?_singleton (size : Option Nat) : addUp? [size] = size := by
  cases size <;> rfl

theorem addUp?_append (sizes others : List (Option Nat)) :
    addUp? (sizes ++ others) =
      (addUp? sizes).bind fun bytes => (addUp? others).map (bytes + ·) := by
  induction sizes with
  | nil => cases h : addUp? others <;> simp [addUp?, h]
  | cons size rest ih =>
    rw [List.cons_append, addUp?, addUp?, ih]
    cases size <;> cases addUp? rest <;> cases addUp? others <;> simp [Nat.add_assoc]

theorem addUp?_flatMap {α : Type} (sizesOf : α → List (Option Nat)) (groups : List α) :
    addUp? (groups.flatMap sizesOf) = addUp? (groups.map fun group => addUp? (sizesOf group)) := by
  induction groups with
  | nil => rfl
  | cons group rest ih => rw [List.flatMap_cons, addUp?_append, ih, List.map_cons, addUp?]

theorem addUp?_eq_none_iff : addUp? sizes = none ↔ none ∈ sizes := by
  induction sizes with
  | nil => simp [addUp?]
  | cons size rest ih => cases size <;> simp [addUp?, ih]

theorem addUp?_eq_some_iff :
    addUp? sizes = some total ↔ ∃ known : List Nat, sizes = known.map some ∧ known.sum = total := by
  induction sizes generalizing total with
  | nil =>
    simp only [addUp?, Option.some.injEq, List.nil_eq, List.map_eq_nil_iff, exists_eq_left]
    rfl
  | cons size rest ih =>
    cases size with
    | none =>
      constructor
      · intro h
        cases h
      · rintro ⟨known, hknown, -⟩
        cases known <;> cases hknown
    | some bytes =>
      rw [addUp?, Option.bind_some, Option.map_eq_some_iff]
      constructor
      · rintro ⟨others, hothers, rfl⟩
        obtain ⟨known, rfl, rfl⟩ := ih.mp hothers
        exact ⟨bytes :: known, rfl, List.sum_cons⟩
      · rintro ⟨known, hknown, rfl⟩
        cases known with
        | nil => cases hknown
        | cons first others =>
          cases hknown
          exact ⟨others.sum, ih.mpr ⟨others, rfl, rfl⟩, List.sum_cons.symm⟩

end AddUp

namespace Datatype

/-- Sequences and strings of variable length, whose values differ in length. -/
def variesInLength : Datatype → Bool
  | .scalar (.string .variable) | .sequence _ => true
  | _ => false

/-- What the values of a datatype hold in place: elements of arrays and members of compounds, at any
depth. The elements of a sequence lie elsewhere. -/
inductive IsPartOf (part : Datatype) : Datatype → Prop
  | whole : IsPartOf part part
  | element {base : Datatype} (dims : List Nat) :
    IsPartOf part base → IsPartOf part (.array base dims)
  | member {members : List (Member Datatype)} {m : Member Datatype} :
    m ∈ members → IsPartOf part m.type → IsPartOf part (.compound members)

def HasVaryingPart (type : Datatype) : Prop :=
  ∃ part : Datatype, part.IsPartOf type ∧ part.variesInLength = true

variable {type part : Datatype} {members : List (Member Datatype)}

theorem totalSize?_eq_addUp? (members : List (Member Datatype)) :
    totalSize? members = addUp? (members.map (·.type.size?)) := by
  induction members with
  | nil => rfl
  | cons m rest ih =>
    rw [totalSize?, List.map_cons, addUp?, ← ih]
    cases m.type.size? <;> cases totalSize? rest <;> rfl

/-- A datatype takes the bytes of its leaves. -/
theorem addUp?_leavesAt (type : Datatype) (path : String) (node : Nat) :
    addUp? ((type.leavesAt path node).map (·.type.size?)) = type.size? := by
  induction type generalizing path node with
  | compound members ih =>
    rw [leavesAt, leavesUnder_eq_flatMap, List.map_flatMap, addUp?_flatMap, size?,
      totalSize?_eq_addUp?]
    -- Each member's leaves make one group.
    congr 1
    apply List.map_congr_left
    intro m hm
    exact ih m hm _ m.node
  | _ => rw [leavesAt, List.map_singleton, addUp?_singleton]

theorem totalSize?_eq_none_iff :
    totalSize? members = none ↔ ∃ m ∈ members, m.type.size? = none := by
  rw [totalSize?_eq_addUp?, addUp?_eq_none_iff, List.mem_map]

/-- A part of open size leaves the whole open, be it the element of an array without elements. -/
theorem IsPartOf.size?_eq_none (h : part.IsPartOf type) (hpart : part.size? = none) :
    type.size? = none := by
  induction h with
  | whole => exact hpart
  | element dims _ ih => rw [size?, ih, Option.map_none]
  | member hm _ ih =>
    rw [size?, totalSize?_eq_none_iff]
    exact ⟨_, hm, ih⟩

theorem size?_of_variesInLength (h : type.variesInLength = true) : type.size? = none := by
  unfold variesInLength at h
  split at h
  · rfl
  · rfl
  · cases h

theorem hasVaryingPart_of_size?_eq_none (h : type.size? = none) : type.HasVaryingPart := by
  induction type with
  | scalar type =>
    cases type with
    | string length =>
      cases length with
      | fixed size => cases h
      | _ => exact ⟨_, .whole, rfl⟩
    | _ => cases h
  | array base dims ih =>
    rw [size?, Option.map_eq_none_iff] at h
    obtain ⟨part, hpart, hvaries⟩ := ih h
    exact ⟨part, .element dims hpart, hvaries⟩
  | sequence base => exact ⟨_, .whole, rfl⟩
  | compound members ih =>
    rw [size?, totalSize?_eq_none_iff] at h
    obtain ⟨m, hm, hnone⟩ := h
    obtain ⟨part, hpart, hvaries⟩ := ih m hm hnone
    exact ⟨part, .member hm hpart, hvaries⟩

theorem size?_eq_none_iff : type.size? = none ↔ type.HasVaryingPart := by
  constructor
  · exact hasVaryingPart_of_size?_eq_none
  · rintro ⟨part, hpart, hvaries⟩
    exact hpart.size?_eq_none (size?_of_variesInLength hvaries)

/-- No leaf is a compound, so below the leaf itself a part lies in the elements of an array. -/
theorem size?_eq_none_iff_of_leaf (h : type.isCompound = false) :
    type.size? = none ↔ type.variesInLength = true ∨
      ∃ base dims, type = .array base dims ∧ base.HasVaryingPart := by
  rw [size?_eq_none_iff]
  constructor
  · rintro ⟨part, hpart, hvaries⟩
    cases hpart with
    | whole => exact .inl hvaries
    | element dims hpart => exact .inr ⟨_, dims, rfl, part, hpart, hvaries⟩
    | member => cases h
  · rintro (hvaries | ⟨base, dims, rfl, part, hpart, hvaries⟩)
    · exact ⟨type, .whole, hvaries⟩
    · exact ⟨part, .element dims hpart, hvaries⟩

/-- The size of a compound is the sum of the sizes of its leaves, and open exactly where that of
some leaf is. The size of a leaf is open exactly where the leaf varies in length, or is an array whose
elements hold a part that does. -/
theorem size?_compound_iff (members : List (Member Datatype)) :
    ∃ leaves, (Datatype.compound members).leaves = .ok leaves ∧
      (∀ total, (Datatype.compound members).size? = some total ↔
        ∃ sizes : List Nat, leaves.map (·.type.size?) = sizes.map some ∧ sizes.sum = total) ∧
      ((Datatype.compound members).size? = none ↔ ∃ leaf ∈ leaves, leaf.type.size? = none) ∧
      ∀ leaf ∈ leaves, (leaf.type.size? = none ↔ leaf.type.variesInLength = true ∨
        ∃ base dims, leaf.type = .array base dims ∧ base.HasVaryingPart) := by
  have hsize := addUp?_leavesAt (.compound members) "" 0
  refine ⟨leavesUnder "" members, rfl, fun total => ?_, ?_, fun leaf hleaf => ?_⟩
  · rw [← hsize]
    exact addUp?_eq_some_iff
  · rw [← hsize, addUp?_eq_none_iff]
    exact List.mem_map
  · have hmem : leaf ∈ (Datatype.compound members).leavesAt "" 0 := hleaf
    exact size?_eq_none_iff_of_leaf (isCompound_of_mem_leavesAt hmem)

/-- A flag, three points of two coordinates and a name of five bytes; with a text in each point the
size is open. -/
example :
    let real : Datatype := .scalar (.float 8)
    let text : Datatype := .scalar (.string .variable)
    let record (point : List (Member Datatype)) : Datatype :=
      .compound [⟨"flag", 1, .scalar (.char false)⟩, ⟨"shape", 2, .compound
        [⟨"points", 3, .array (.compound point) [3]⟩, ⟨"name", 4, .scalar (.string (.fixed 5))⟩]⟩]
    (record [⟨"x", 5, real⟩, ⟨"y", 6, real⟩]).size? = some 54 ∧
      (record [⟨"x", 5, real⟩, ⟨"label", 6, text⟩]).size? = none := by
  decide

end Datatype

end DatasetGrid
