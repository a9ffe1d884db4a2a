import DatasetGrid.Proofs.ConverterCalls
import DatasetGrid.Proofs.Induction

/-! # What the display options touch

The number format is for floating-point members, the converter for enumerations. A datatype without
the one shows every cell alike under all formats; a datatype without the other shows it alike under
all converters, and asks none of them. The cell need not be a value of the datatype: numbers that
turn up elsewhere are shown plainly.
-/
namespace DatasetGrid

namespace Datatype

mutual

def scalars : Datatype → List Scalar
  | .scalar type => [type]
  | .array base _ | .sequence base => base.scalars
  | .compound members => scalarsUnder members

def scalarsUnder : List (Member Datatype) → List Scalar
  | [] => []
  | member :: rest => member.type.scalars ++ scalarsUnder rest

end

theorem scalarsUnder_eq_flatMap (members : List (Member Datatype)) :
    scalarsUnder members = members.flatMap fun m => m.type.scalars := by
  induction members with
  | nil => rfl
  | cons m rest ih => simp [scalarsUnder, ih]

end Datatype

theorem Editor.scalars_build_subset (scope : Scope) (type : Datatype) :
    (build scope type).scalars ⊆ type.scalars := by
  induction type generalizing scope with
  | scalar type => exact List.Subset.refl _
  | array base dims ih => exact ih .all
  | sequence base ih =>
    rw [build]
    split
    · exact List.nil_subset _
    · exact ih .all
  | compound members ih =>
    simp only [build]
    split
    · exact List.nil_subset _
    · intro type htype
      rw [scalars, scalarsOf_eq_flatMap, buildVisible_eq_map, List.flatMap_map] at htype
      obtain ⟨m, hm, hscalar⟩ := List.mem_flatMap.mp htype
      have hmember : m ∈ members := (List.mem_filter.mp hm).1
      rw [Datatype.scalars, Datatype.scalarsUnder_eq_flatMap]
      exact List.mem_flatMap.mpr ⟨m, hmember, ih m hmember scope hscalar⟩

def sameAction {σ : Type} : ActionRelation σ σ :=
  fun _ act act' => act = act'

theorem sameAction_isCongruence {σ : Type} : (sameAction : ActionRelation σ σ).IsCongruence where
  pure _ := rfl
  bind {_ _ act act' next next'} hact hnext := by
    have hrest : next = next' := funext hnext
    rw [sameAction, hact, hrest]

/-- Both actions give one result and leave their states alone. -/
def sameIdle {σ τ : Type} : ActionRelation σ τ :=
  fun _ act act' => ∃ a, act = pure a ∧ act' = pure a

theorem sameIdle_isCongruence {σ τ : Type} : (sameIdle : ActionRelation σ τ).IsCongruence where
  pure a := ⟨a, rfl, rfl⟩
  bind {_ _ act act' next next'} hact hnext := by
    obtain ⟨a, rfl, rfl⟩ := hact
    obtain ⟨b, hb, hb'⟩ := hnext a
    exact ⟨b, hb, hb'⟩

namespace Scalar

variable {σ τ : Type} {type : Scalar}

theorem render_format (h : ∀ size, type ≠ .float size) (names : Option (Converter σ))
    (format other : Number.NumberFormat) (value : Cell) :
    type.render ⟨format, names⟩ value = type.render ⟨other, names⟩ value := by
  cases type with
  | float size => exact absurd rfl (h size)
  | _ => rfl

/-- Only enumerations ask the converter. -/
theorem render_names (h : ∀ base members, type ≠ .enumeration base members)
    (names : Option (Converter σ)) (others : Option (Converter τ)) (format : Number.NumberFormat)
    (value : Cell) :
    sameIdle String (type.render ⟨format, names⟩ value) (type.render ⟨format, others⟩ value) := by
  cases type with
  | enumeration base members => exact absurd rfl (h base members)
  | _ => exact ⟨_, rfl, rfl⟩

end Scalar

namespace Editor

variable {σ τ : Type} {e : Editor}

theorem render_format (h : ∀ size, .float size ∉ e.scalars) (names : Option (Converter σ))
    (format other : Number.NumberFormat) (column : Nat) (value : Cell) :
    e.render ⟨format, names⟩ column value = e.render ⟨other, names⟩ column value := by
  apply sameAction_isCongruence.render_of_scalars
  intro type htype value
  apply Scalar.render_format
  rintro size rfl
  exact h size htype

theorem render_names (h : ∀ base members, .enumeration base members ∉ e.scalars)
    (names : Option (Converter σ)) (others : Option (Converter τ)) (format : Number.NumberFormat)
    (column : Nat) (value : Cell) :
    sameIdle String (e.render ⟨format, names⟩ column value)
      (e.render ⟨format, others⟩ column value) := by
  apply sameIdle_isCongruence.render_of_scalars
  intro type htype value
  apply Scalar.render_names
  rintro base members rfl
  exact h base members htype

/-- Whatever the cell, a datatype without floating-point numbers shows it under every format by the
same text and the same calls of the converter, and a datatype without enumerations shows it under
every converter by the same text and no call at all. -/
theorem build_render_options (scope : Scope) (type : Datatype) (column : Nat) (value : Cell) :
    ((∀ size, .float size ∉ type.scalars) →
      ∀ {σ : Type} (names : Option (Converter σ)) (format other : Number.NumberFormat),
        (build scope type).render ⟨format, names⟩ column value =
          (build scope type).render ⟨other, names⟩ column value) ∧
    ((∀ base members, .enumeration base members ∉ type.scalars) →
      ∀ format : Number.NumberFormat, ∃ text,
        (∀ {σ : Type} (names : Option (Converter σ)) (state : σ),
          ((build scope type).render ⟨format, names⟩ column value).run state = (text, state)) ∧
        ∀ {σ : Type} (c : Converter σ) (state : σ) (log : List (Converter.Step σ)),
          ((build scope type).render ⟨format, some c.traced⟩ column value).run (state, log) =
            (text, state, log)) := by
  have hsubset := scalars_build_subset scope type
  constructor
  · intro hfloat σ names format other
    exact render_format (fun size hsize => hfloat size (hsubset hsize)) names format other column
      value
  · intro henum format
    have hbuilt : ∀ base members, .enumeration base members ∉ (build scope type).scalars :=
      fun base members hmember => henum base members (hsubset hmember)
    -- The text is that of the display without a converter.
    have hidle (σ : Type) (names : Option (Converter σ)) :=
      render_names hbuilt Display.plain.names names format column value
    obtain ⟨text, hplain, -⟩ := hidle Unit none
    have hrun : ∀ {σ : Type} (names : Option (Converter σ)) (state : σ),
        ((build scope type).render ⟨format, names⟩ column value).run state = (text, state) := by
      intro σ names state
      obtain ⟨shown, hshown, hsame⟩ := hidle σ names
      obtain rfl : text = shown := congrArg (fun act => (act.run ()).1) (hplain.symm.trans hshown)
      rw [hsame]
      rfl
    exact ⟨text, hrun, fun c state log => hrun (some c.traced) (state, log)⟩

/-- A switch with the readings behind it, none of them floating-point. -/
def switchType : Datatype :=
  .compound [⟨"id", 1, .scalar (.integer ⟨2, false⟩)⟩,
    ⟨"state", 2, .scalar (.enumeration ⟨1, false⟩ [⟨"off", 0⟩, ⟨"on", 1⟩])⟩,
    ⟨"readings", 3, .array (.scalar (.integer ⟨4, true⟩)) [2]⟩]

def switchCell : Cell :=
  .compound [.int 1, .array [.real ⟨0x4004000000000000⟩, .int (-7)], .real ⟨0x3FD0000000000000⟩]

def traceType : Datatype :=
  .sequence (.compound [⟨"time", 1, .scalar (.float 8)⟩, ⟨"mark", 2, .scalar (.char true)⟩])

def traceCell : Cell :=
  .array [.compound [.real ⟨0x4097700000000000⟩, .int 65]]

/-- Floating-point numbers in other members, and behind the last one, show plainly under every
format; without an enumeration no type is opened. -/
theorem build_render_options_mixed :
    (∀ size, .float size ∉ switchType.scalars) ∧
    (∀ table, ((build (.only [2, 3]) switchType).render
        ⟨.scientific 2, some MemberTable.converter⟩ 0 switchCell).run table =
      ((build (.only [2, 3]) switchType).render
        ⟨.plain, some MemberTable.converter⟩ 0 switchCell).run table) ∧
    (∀ base members, .enumeration base members ∉ traceType.scalars) ∧
    ((build .all traceType).render ⟨.scientific 1, some MemberTable.converter.traced⟩ 0
      traceCell).run (.empty, []) = ("([1.5e3, A])", .empty, []) := by
  have hfloat : ∀ size, .float size ∉ switchType.scalars := by
    simp [switchType, Datatype.scalars, Datatype.scalarsUnder]
  have henum : ∀ base members, .enumeration base members ∉ traceType.scalars := by
    simp [traceType, Datatype.scalars, Datatype.scalarsUnder]
  obtain ⟨hformat, -⟩ := build_render_options (.only [2, 3]) switchType 0 switchCell
  obtain ⟨-, hnames⟩ := build_render_options .all traceType 0 traceCell
  obtain ⟨text, hrun, htraced⟩ := hnames henum (.scientific 1)
  have hshown : (((build .all traceType).render ⟨.scientific 1, none⟩ 0 traceCell).run ()).1 =
      "([1.5e3, A])" := by
    decide +kernel
  obtain rfl : text = "([1.5e3, A])" := (congrArg Prod.fst (hrun none ())).symm.trans hshown
  refine ⟨hfloat, fun table => ?_, henum, htraced MemberTable.converter .empty []⟩
  rw [hformat hfloat (some MemberTable.converter) (.scientific 2) .plain]

end Editor

end DatasetGrid
