import DatasetGrid.Proofs.TableDispatch
import Mathlib.Data.List.Basic

/-! # Groups of columns

A member takes one column for each leaf that is left of it, and the columns of all members stand
side by side in order. So a column has one member, and its distance from the first column of the
group is a column of that member's editor.
-/
namespace DatasetGrid

namespace Scope

mutual

/-- The leaves that are left when a compound is filtered, and every compound in it. What is no
compound is a leaf. -/
def leafTypes (scope : Scope) : Datatype → List Datatype
  | .compound members => leafTypesUnder scope members
  | type => [type]

def leafTypesUnder (scope : Scope) : List (Member Datatype) → List Datatype
  | [] => []
  | member :: rest =>
    (if scope.shows member then leafTypes scope member.type else []) ++ leafTypesUnder scope rest

end

def width (scope : Scope) (type : Datatype) : Nat :=
  (scope.leafTypes type).length

def offset (scope : Scope) : List Datatype → Nat → Nat
  | type :: rest, member + 1 => scope.width type + scope.offset rest member
  | _, _ => 0

variable {scope : Scope} {types : List Datatype} {type : Datatype} {member member' : Nat}

theorem leafTypes_compound (scope : Scope) (members : List (Member Datatype)) :
    scope.leafTypes (.compound members) =
      (scope.visible members).flatMap fun m => scope.leafTypes m.type := by
  rw [leafTypes]
  induction members with
  | nil => rfl
  | cons m rest ih => cases h : scope.shows m <;> simp [leafTypesUnder, visible, h, ih]

theorem width_of_isCompound_eq_false (scope : Scope) (h : type.isCompound = false) :
    scope.width type = 1 := by
  cases type with
  | compound members => cases h
  | _ => simp only [width, leafTypes, List.length_singleton]

theorem leafTypes_of_shows {m : Member Datatype} (h : scope.shows m = true) (group : String) :
    scope.leafTypes m.type = (scope.leavesOf group m).map (·.type) := by
  rcases m with ⟨name, node, type⟩
  induction type generalizing group name node with
  | compound members ih =>
    rw [leafTypes_compound, leavesOf, Datatype.leavesAt, leavesUnder_filter, ← flatMap_visible,
      List.map_flatMap]
    apply List.flatMap_congr
    intro m hm
    have hm := List.mem_filter.mp hm
    exact ih m hm.1 _ _ _ hm.2
  | _ =>
    rw [leavesOf_leaf h rfl]
    simp only [leafTypes, List.map_cons, List.map_nil]

/-- The leaves left of a compound are those of its flattening that the scope keeps. -/
theorem leafTypes_compound_eq_kept (scope : Scope) (group : String)
    (members : List (Member Datatype)) :
    scope.leafTypes (.compound members) =
      ((Datatype.leavesUnder group members).filter scope.keeps).map (·.type) := by
  rw [leafTypes_compound, leavesUnder_filter, ← flatMap_visible, List.map_flatMap]
  apply List.flatMap_congr
  intro m hm
  exact leafTypes_of_shows (List.mem_filter.mp hm).2 group

@[simp] theorem offset_zero (scope : Scope) (types : List Datatype) :
    scope.offset types 0 = 0 := by
  cases types <;> rfl

@[simp] theorem offset_cons_succ (scope : Scope) (type : Datatype) (rest : List Datatype)
    (member : Nat) :
    scope.offset (type :: rest) (member + 1) = scope.width type + scope.offset rest member :=
  rfl

theorem offset_succ (h : types[member]? = some type) :
    scope.offset types (member + 1) = scope.offset types member + scope.width type := by
  induction types generalizing member with
  | nil => cases h
  | cons first rest ih =>
    cases member with
    | zero =>
      cases h
      simp
    | succ member => rw [offset_cons_succ, ih h, offset_cons_succ, Nat.add_assoc]

theorem offset_le_of_le (h : member ≤ member') :
    scope.offset types member ≤ scope.offset types member' := by
  induction types generalizing member member' with
  | nil => cases member <;> simp [offset]
  | cons first rest ih =>
    cases member with
    | zero => simp [offset]
    | succ member =>
      cases member' with
      | zero => cases h
      | succ member' => exact Nat.add_le_add_left (ih (Nat.le_of_succ_le_succ h)) _

theorem offset_add_width_le (htype : types[member]? = some type) (h : member < member') :
    scope.offset types member + scope.width type ≤ scope.offset types member' := by
  rw [← offset_succ htype]
  exact offset_le_of_le h

end Scope

namespace ColumnMap

variable {scope : Scope} {types : List Datatype} {column column' : Nat} {slot slot' : Slot}

theorem slotsAt_eq_replicate_width (scope : Scope) (slot : Slot) (type : Datatype) :
    slotsAt scope slot type = List.replicate (scope.width type) slot := by
  induction type with
  | compound members ih =>
    rw [slotsAt, slotsUnder_eq_flatMap, Scope.width, Scope.leafTypes_compound]
    apply flatMap_eq_replicate
    intro m hm
    exact ih m (List.mem_filter.mp hm).1
  | _ => simp only [slotsAt, Scope.width, Scope.leafTypes, List.length_singleton,
      List.replicate_one]

/-- The slots of the members with their numbers, one copy for each column of the group. -/
def groups (scope : Scope) (types : List Datatype) : List Slot :=
  types.zipIdx.flatMap fun (type, member) =>
    List.replicate (scope.width type) ⟨member, scope.offset types member⟩

theorem walk_slots (scope : Scope) (first start : Nat) (types : List Datatype) :
    (walk scope first start types).slots = types.zipIdx.flatMap fun (type, member) =>
      List.replicate (scope.width type) ⟨first + member, start + scope.offset types member⟩ := by
  induction types generalizing first start with
  | nil => rfl
  | cons type rest ih =>
    simp only [walk, slotsAt_eq_replicate_width, List.length_replicate, ih,
      List.zipIdx_cons', List.flatMap_cons, List.flatMap_map, Prod.map_fst, Prod.map_snd, id_eq,
      Scope.offset_zero, Scope.offset_cons_succ, Nat.add_assoc, Nat.add_comm 1, Nat.add_zero]

theorem walk_memberCount (scope : Scope) (first start : Nat) (types : List Datatype) :
    (walk scope first start types).memberCount = first + types.length := by
  induction types generalizing first start with
  | nil => rfl
  | cons type rest ih =>
    rw [walk, List.length_cons, Nat.add_comm rest.length, ← Nat.add_assoc]
    exact ih _ _

theorem build_slots (scope : Scope) (types : List Datatype) :
    (build scope types).slots = groups scope types := by
  simp only [build, walk_slots, groups, Nat.zero_add]

/-- A column has the slot of the member whose group it lies in. -/
theorem walk_getElem?_iff {first start : Nat} :
    (walk scope first start types).slots[column]? = some slot ↔
      ∃ member type, types[member]? = some type ∧
        slot = ⟨first + member, start + scope.offset types member⟩ ∧
        scope.offset types member ≤ column ∧
        column < scope.offset types member + scope.width type := by
  induction types generalizing first start column with
  | nil => simp [walk]
  | cons head rest ih =>
    rw [walk, slotsAt_eq_replicate_width, List.length_replicate]
    -- Behind the columns of the first member the others begin one number and one group further on.
    by_cases hhead : column < scope.width head
    · rw [List.getElem?_append_left (by simpa using hhead), List.getElem?_replicate,
        if_pos hhead]
      constructor
      · rintro ⟨⟩
        exact ⟨0, head, rfl, by simp, by simp, by simpa using hhead⟩
      · rintro ⟨member, type, htype, rfl, hle, hlt⟩
        cases member with
        | zero => simp
        | succ member =>
          rw [Scope.offset_cons_succ] at hle
          omega
    · rw [List.getElem?_append_right (by simpa using hhead), List.length_replicate, ih]
      constructor
      · rintro ⟨member, type, htype, rfl, hle, hlt⟩
        rw [Nat.add_assoc, Nat.add_assoc, Nat.add_comm 1]
        refine ⟨member + 1, type, htype, ?_⟩
        rw [Scope.offset_cons_succ]
        exact ⟨rfl, by omega, by omega⟩
      · rintro ⟨member, type, htype, rfl, hle, hlt⟩
        cases member with
        | zero =>
          cases htype
          simp at hlt
          omega
        | succ member =>
          rw [Scope.offset_cons_succ] at hle hlt ⊢
          refine ⟨member, type, htype, ?_, by omega, by omega⟩
          rw [Nat.add_assoc, Nat.add_assoc, Nat.add_comm 1]

theorem build_slot?_iff : (build scope types).slot? column = some slot ↔
    ∃ type, types[slot.member]? = some type ∧ slot.start = scope.offset types slot.member ∧
      slot.start ≤ column ∧ column < slot.start + scope.width type := by
  rw [slot?, build, walk_getElem?_iff]
  constructor
  · rintro ⟨member, type, htype, rfl, hle, hlt⟩
    rw [Nat.zero_add, Nat.zero_add]
    exact ⟨type, htype, rfl, hle, hlt⟩
  · rintro ⟨type, htype, hstart, hle, hlt⟩
    rw [hstart] at hle hlt
    refine ⟨slot.member, type, htype, ?_, hle, hlt⟩
    rw [Nat.zero_add, Nat.zero_add, ← hstart]

/-- The columns of a list of members are those of the groups, in order. -/
structure IsGrouped (scope : Scope) (types : List Datatype) (m : ColumnMap) : Prop where
  slots : m.slots = groups scope types
  /-- Members without a column count too. -/
  memberCount : m.memberCount = types.length
  hidden : ∀ member type, types[member]? = some type → (scope.width type = 0 ↔
    ∀ column slot, m.slot? column = some slot → slot.member ≠ member)
  ordered : ∀ column column' slot slot', column ≤ column' → m.slot? column = some slot →
    m.slot? column' = some slot' → slot.member ≤ slot'.member
  /-- The start of a group is the least column of its member. -/
  least : ∀ column slot, m.slot? column = some slot →
    (∃ first, m.slot? slot.start = some first ∧ first.member = slot.member) ∧
      ∀ column' slot', m.slot? column' = some slot' → slot'.member = slot.member →
        slot.start ≤ column'
  relative : ∀ column slot, m.slot? column = some slot → ∃ type,
    types[slot.member]? = some type ∧ slot.start ≤ column ∧
      m.relative? column = some (column - slot.start) ∧ column - slot.start < scope.width type

theorem build_isGrouped (scope : Scope) (types : List Datatype) :
    (build scope types).IsGrouped scope types where
  slots := build_slots scope types
  memberCount := by rw [build, walk_memberCount, Nat.zero_add]
  hidden member type htype := by
    constructor
    · rintro hwidth column slot hslot rfl
      rcases build_slot?_iff.mp hslot with ⟨_, hfound, -, hle, hlt⟩
      rw [htype] at hfound
      cases hfound
      omega
    · intro hnone
      refine Nat.eq_zero_of_not_pos fun hpos => ?_
      have hslot : (build scope types).slot? (scope.offset types member) =
          some ⟨member, scope.offset types member⟩ :=
        build_slot?_iff.mpr ⟨type, htype, rfl, Nat.le_refl _, Nat.lt_add_of_pos_right hpos⟩
      exact hnone _ _ hslot rfl
  ordered column column' slot slot' hcolumns hslot hslot' := by
    rcases build_slot?_iff.mp hslot with ⟨_, -, hstart, hle, -⟩
    rcases build_slot?_iff.mp hslot' with ⟨_, htype', hstart', -, hlt'⟩
    refine Nat.le_of_not_lt fun hbefore => ?_
    have hends : scope.offset types slot'.member + _ ≤ scope.offset types slot.member :=
      Scope.offset_add_width_le htype' hbefore
    omega
  least column slot hslot := by
    rcases build_slot?_iff.mp hslot with ⟨type, htype, hstart, hle, hlt⟩
    refine ⟨⟨slot, build_slot?_iff.mpr ⟨type, htype, hstart, Nat.le_refl _, by omega⟩, rfl⟩, ?_⟩
    intro column' slot' hslot' hmember
    rcases build_slot?_iff.mp hslot' with ⟨_, -, hstart', hle', -⟩
    rw [hstart, ← hmember, ← hstart']
    exact hle'
  relative column slot hslot := by
    rcases build_slot?_iff.mp hslot with ⟨type, htype, -, hle, hlt⟩
    refine ⟨type, htype, hle, ?_, by omega⟩
    rw [relative?, hslot, Option.map_some]

end ColumnMap

theorem Editor.columns_build_eq_width {scope : Scope} {type : Datatype}
    (h : 0 < scope.width type) : (build scope type).columns = scope.width type := by
  cases hcompound : type.isCompound with
  | false =>
    rw [scope.width_of_isCompound_eq_false hcompound, build_leaf hcompound]
    cases type with
    | compound members => cases hcompound
    | sequence base =>
      rw [build]
      cases base.stringLength? <;> rfl
    | _ => simp only [build, columns]
  | true =>
    cases type with
    | compound members =>
      rw [Scope.width, scope.leafTypes_compound_eq_kept "", List.length_map,
        leavesUnder_filter] at h ⊢
      exact columns_build (List.length_pos_iff.mp h)
    | _ => cases hcompound

/-- Every column number of a compound has a member, and lies within the columns of its editor. -/
theorem Editor.memberAt?_ofCompound {scope : Scope} {members : List (Member Datatype)} {e : Editor}
    (h : ofCompound scope members = .ok e) (column : Nat) :
    let map := ColumnMap.build scope ((scope.visible members).map (·.type))
    ∃ slot m, map.slot? (column % map.size) = some slot ∧
      (scope.visible members)[slot.member]? = some m ∧
      e.memberAt? column = some (build scope m.type, column % map.size - slot.start) ∧
      column % map.size - slot.start < (build scope m.type).columns := by
  intro map
  rw [ofCompound] at h
  split at h
  · cases h
  · rename_i hempty
    cases h
    have hslots : map.slots ≠ [] := fun hnil => hempty (List.isEmpty_iff.mpr hnil)
    obtain ⟨slot, hslot⟩ : ∃ slot, map.slot? (column % map.size) = some slot :=
      exists_getElem?_mod hslots column
    rcases ColumnMap.build_slot?_iff.mp hslot with ⟨type, htype, -, hle, hlt⟩
    rw [List.getElem?_map, Option.map_eq_some_iff] at htype
    rcases htype with ⟨m, hm, rfl⟩
    have hrelative : column % map.size - slot.start < scope.width m.type := by omega
    have hplace : map.locate? column = some (slot.member, column % map.size - slot.start) := by
      simp only [ColumnMap.locate?, hslot, Option.map_some]
    refine ⟨slot, m, hslot, hm, ?_, ?_⟩
    · rw [memberAt?, hplace, Option.bind_some, buildVisible_eq_map, List.getElem?_map, hm]
      rfl
    · rwa [columns_build_eq_width (Nat.zero_lt_of_lt hrelative)]

/-- The columns of a list of members are the groups of their visible leaves, a member that is no
compound being its own leaf. A compound has an editor of its own as soon as a leaf of it is visible,
and then each column number leads to a column of one member's editor. -/
theorem ColumnMap.build_groups (scope : Scope) (types : List Datatype) :
    (build scope types).IsGrouped scope types ∧
    (∀ type, type.isCompound = false → scope.width type = 1) ∧
    (∀ group members, scope.width (.compound members) =
      ((Datatype.leavesUnder group members).filter scope.keeps).length) ∧
    ∀ members,
      ((∃ e, Editor.ofCompound scope members = .ok e) ↔
        ∃ leaf ∈ Datatype.leavesUnder "" members, scope.keeps leaf = true) ∧
      ∀ e, Editor.ofCompound scope members = .ok e → ∀ column,
        let map := build scope ((scope.visible members).map (·.type))
        ∃ slot m, map.slot? (column % map.size) = some slot ∧
          (scope.visible members)[slot.member]? = some m ∧
          e.memberAt? column = some (.build scope m.type, column % map.size - slot.start) ∧
          column % map.size - slot.start < (Editor.build scope m.type).columns := by
  refine ⟨build_isGrouped scope types, fun type => scope.width_of_isCompound_eq_false, ?_, ?_⟩
  · intro group members
    rw [Scope.width, scope.leafTypes_compound_eq_kept group, List.length_map]
  · intro members
    refine ⟨?_, fun e he column => Editor.memberAt?_ofCompound he column⟩
    rw [Editor.ofCompound_eq scope "", ← leavesUnder_filter]
    by_cases h : (Datatype.leavesUnder "" members).filter scope.keeps = []
    · rw [if_pos h]
      rw [List.filter_eq_nil_iff] at h
      constructor
      · rintro ⟨e, he⟩
        cases he
      · rintro ⟨leaf, hleaf, hkept⟩
        exact absurd hkept (h leaf hleaf)
    · rw [if_neg h]
      obtain ⟨leaf, hleaf⟩ := List.exists_mem_of_ne_nil _ h
      exact ⟨fun _ => ⟨leaf, List.mem_filter.mp hleaf⟩, fun _ => ⟨_, rfl⟩⟩

def groupedMembers : List (Member Datatype) :=
  let byte : Datatype := .scalar (.integer ⟨1, false⟩)
  [⟨"first", 0, byte⟩, ⟨"none", 1, .compound []⟩,
    ⟨"pair", 2, .compound [⟨"x", 3, byte⟩, ⟨"y", 4, byte⟩]⟩, ⟨"last", 5, byte⟩]

/-- The seventh column is the third of the second repetition, in which the pair stands second. -/
theorem ColumnMap.build_groups_pair :
    (build .all (groupedMembers.map (·.type))).slots = [⟨0, 0⟩, ⟨2, 1⟩, ⟨2, 1⟩, ⟨3, 3⟩] ∧
    ∃ e m, Editor.ofCompound .all groupedMembers = .ok e ∧ groupedMembers[2]? = some m ∧
      e.memberAt? 6 = some (.build .all m.type, 1) := by
  obtain ⟨hgrouped, -, -, hcompounds⟩ := build_groups .all (groupedMembers.map (·.type))
  obtain ⟨hopens, hcolumns⟩ := hcompounds groupedMembers
  obtain ⟨e, he⟩ := hopens.mpr ⟨⟨"first", 0, .scalar (.integer ⟨1, false⟩)⟩, .head _, rfl⟩
  have hslots : (build .all (groupedMembers.map (·.type))).slots =
      [⟨0, 0⟩, ⟨2, 1⟩, ⟨2, 1⟩, ⟨3, 3⟩] := by
    rw [hgrouped.slots]
    decide
  obtain ⟨slot, m, hslot, hm, hplace, -⟩ := hcolumns e he 6
  have hvisible : Scope.all.visible groupedMembers = groupedMembers := rfl
  rw [hvisible, slot?, size, hslots] at hslot
  rw [hvisible, size, hslots] at hplace
  rw [hvisible] at hm
  obtain rfl := Option.some.inj hslot
  exact ⟨hslots, e, m, he, hm, hplace⟩

end DatasetGrid
