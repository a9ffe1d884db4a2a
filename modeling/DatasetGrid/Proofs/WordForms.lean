import DatasetGrid.Proofs.SignExtension
import DatasetGrid.Proofs.SteadyText

/-! # The two forms of unsigned words

An unsigned word of eight bytes is stored as an unsigned number or as the signed number of the same
bits. Integers and references show both forms alike, and so do enumerations shown by value. With
names, an enumeration shows them alike unless one of its members names a word past the signed range:
the signed form is then shown by the name and the unsigned one by its number.
-/
namespace DatasetGrid

open Text

namespace Scalar

/-- The scalars whose values are unsigned words of eight bytes. -/
def isWide : Scalar → Bool
  | .integer type | .enumeration type _ => type = ⟨8, false⟩
  | .reference size _ => size = 8
  | _ => false

def unsignedForm (type : Scalar) : Cell → Cell
  | .int n => if type.isWide then .uint n.toUInt64 else .int n
  | value => value

/-- A member names a word past the signed range, and names it by more than its number. -/
def namesHighWord : Scalar → Bool
  | .enumeration base members =>
    base = ⟨8, false⟩ && members.any fun m =>
      m.value.toInt < 0 && members.find? (·.value = m.value) = some m &&
        m.name ≠ .ofList (decimal m.value.toUInt64.toNat)
  | _ => false

theorem unsignedForm_toInt64 {type : Scalar} (h : type.isWide = true) (n : UInt64) :
    type.unsignedForm (.int n.toInt64) = type.unsignedForm (.uint n) := by
  rw [unsignedForm, if_pos h, UInt64.toUInt64_toInt64]
  rfl

theorem unsignedForm_unsignedForm (type : Scalar) (value : Cell) :
    type.unsignedForm (type.unsignedForm value) = type.unsignedForm value := by
  cases value with
  | int n =>
    -- Only scalars of eight unsigned bytes have words in two forms.
    by_cases hwide : type.isWide = true
    · simp only [unsignedForm, if_pos hwide]
    · simp only [unsignedForm, if_neg hwide]
  | _ => rfl

theorem namesHighWord_iff {members : List EnumMember} :
    (enumeration ⟨8, false⟩ members).namesHighWord = true ↔
      ∃ n m, n.toInt < 0 ∧ members.find? (·.value = n) = some m ∧
        m.name ≠ .ofList (decimal n.toUInt64.toNat) := by
  simp only [namesHighWord, Bool.and_eq_true, List.any_eq_true, decide_eq_true_eq, true_and]
  constructor
  · rintro ⟨m, -, ⟨hneg, hfind⟩, hname⟩
    exact ⟨m.value, m, hneg, hfind, hname⟩
  · rintro ⟨n, m, hneg, hfind, hname⟩
    have hfound := List.find?_some hfind
    obtain rfl : m.value = n := of_decide_eq_true hfound
    exact ⟨m, List.mem_of_find?_eq_some hfind, ⟨hneg, hfind⟩, hname⟩

end Scalar

theorem lowBytes_eight (n : Int64) : lowBytes 8 n = n.toUInt64 := by
  have hlow := toNat_lowBytes (show 8 ∈ [1, 2, 4, 8] by decide) (n := n)
  have hword := toNat_toUInt64 n
  apply UInt64.toNat_inj.mp
  omega

theorem integerText_forms (n : Int64) :
    integerText ⟨8, false⟩ (.int n) = integerText ⟨8, false⟩ (.uint n.toUInt64) := by
  have hlt := n.toInt_lt
  rw [integerText_lowBytes (show 8 ∈ [1, 2, 4, 8] by decide) (by omega), lowBytes_eight]
  rfl

/-- Below the middle of the words both forms look up the same member, above it only one does. -/
theorem enumerationKey?_toUInt64 (n : Int64) :
    enumerationKey? (.uint n.toUInt64) = if n.toInt < 0 then none else some n := by
  have hword := toNat_toUInt64 n
  have hlt := n.toInt_lt
  have hle := n.le_toInt
  rw [enumerationKey?]
  by_cases hneg : n.toInt < 0
  · rw [if_pos hneg, if_neg (by omega)]
  · rw [if_neg hneg, if_pos (by omega)]
    rfl

namespace Scalar

variable {σ : Type} {d : Display σ} {type : Scalar}

/-- Only enumerations can tell the two forms apart. -/
theorem render_unsignedForm (hd : d.IsSteady)
    (henum : ∀ members n, type = .enumeration ⟨8, false⟩ members →
      sameResult String (enumerationText d.names ⟨8, false⟩ members (.uint n.toUInt64))
        (enumerationText d.names ⟨8, false⟩ members (.int n)))
    (value : Cell) :
    sameResult String (type.render d (type.unsignedForm value)) (type.render d value) := by
  have hsteady := sameResult_isCongruence.scalar_render rfl (steady_enumerationText hd) type value
  cases value with
  | int n =>
    rw [unsignedForm]
    by_cases hwide : type.isWide = true
    · rw [if_pos hwide]
      cases type with
      | integer type =>
        obtain rfl : type = ⟨8, false⟩ := of_decide_eq_true hwide
        intro _ _
        exact (integerText_forms n).symm
      | enumeration base members =>
        obtain rfl : base = ⟨8, false⟩ := of_decide_eq_true hwide
        exact henum members n rfl
      | reference size kind => exact fun _ _ => rfl
      | _ => cases hwide
    · rw [if_neg hwide]
      exact hsteady
  | _ => exact hsteady

theorem render_unsignedForm_plain (hd : d.names = none) (value : Cell) :
    sameResult String (type.render d (type.unsignedForm value)) (type.render d value) := by
  apply render_unsignedForm
  · intro c hc
    rw [hd] at hc
    cases hc
  · intro members n _ _ _
    rw [hd]
    exact (integerText_forms n).symm

theorem enumerationText_forms (members : List EnumMember) (n : Int64) (t other : MemberTable) :
    ((enumerationText (some MemberTable.converter) ⟨8, false⟩ members (.int n)).run t).1 =
      ((members.find? (·.value = n)).map (·.name)).getD (.ofList (decimal n.toUInt64.toNat)) ∧
    ((enumerationText (some MemberTable.converter) ⟨8, false⟩ members (.uint n.toUInt64)).run
        other).1 =
      if n.toInt < 0 then .ofList (decimal n.toUInt64.toNat)
      else
        ((members.find? (·.value = n)).map (·.name)).getD (.ofList (decimal n.toUInt64.toNat)) := by
  constructor
  · rw [MemberTable.enumerationText_eq, integerText_forms]
    rfl
  · rw [MemberTable.enumerationText_eq, MemberTable.name?, enumerationKey?_toUInt64]
    by_cases hneg : n.toInt < 0
    · rw [if_pos hneg, if_pos hneg]
      rfl
    · rw [if_neg hneg, if_neg hneg]
      rfl

theorem render_unsignedForm_named {d : Display MemberTable}
    (hd : d.names = some MemberTable.converter) (h : type.namesHighWord = false) (value : Cell) :
    sameResult String (type.render d (type.unsignedForm value)) (type.render d value) := by
  apply render_unsignedForm
  · intro c hc
    rw [hd] at hc
    cases hc
    exact MemberTable.converter_isSteady
  · rintro members n rfl state other
    obtain ⟨hsigned, hunsigned⟩ := enumerationText_forms members n other state
    rw [hd, hsigned, hunsigned]
    by_cases hneg : n.toInt < 0
    · rw [if_pos hneg]
      cases hfind : members.find? (·.value = n) with
      | none => rfl
      | some m =>
        by_contra hname
        have hnames := namesHighWord_iff.mpr ⟨n, m, hneg, hfind, fun heq => hname heq.symm⟩
        rw [h] at hnames
        cases hnames
    · rw [if_neg hneg]

/-- A name for a word past the signed range shows in one form only. -/
theorem exists_forms_differ {d : Display MemberTable} (hd : d.names = some MemberTable.converter)
    (h : type.namesHighWord = true) :
    ∃ value, ∀ state, ((type.render d (type.unsignedForm value)).run state).1 ≠
      ((type.render d value).run state).1 := by
  cases type with
  | enumeration base members =>
    obtain rfl : base = ⟨8, false⟩ := of_decide_eq_true (Bool.and_eq_true_iff.mp h).1
    obtain ⟨n, m, hneg, hfind, hname⟩ := namesHighWord_iff.mp h
    refine ⟨.int n, fun state => ?_⟩
    obtain ⟨hsigned, hunsigned⟩ := enumerationText_forms members n state state
    rw [if_pos hneg] at hunsigned
    rw [hfind] at hsigned
    rw [unsignedForm, if_pos (by rfl), render, render, hd, hsigned, hunsigned]
    exact hname.symm
  | _ => cases h

end Scalar

namespace Editor

mutual

/-- The cell of a column, with all words of eight bytes in it in their unsigned form. -/
def unsignedForm : Editor → Nat → Cell → Cell
  | .scalar type, _, value => type.unsignedForm value
  | .array _ _ element, _, .array items | .sequence _ element, _, .array items =>
    .array (items.map fun item => element.unsignedForm 0 item)
  | .compound _ map editors, column, value =>
    match value with
    | .compound items => .compound (unsignedForms editors items)
    | value =>
      match map.locate? column with
      | some (member, relative) => unsignedFormAt editors member relative value
      | none => value
  | _, _, value => value

def unsignedForms : List Editor → List Cell → List Cell
  | editor :: editors, item :: items => editor.unsignedForm 0 item :: unsignedForms editors items
  | _, items => items

def unsignedFormAt : List Editor → Nat → Nat → Cell → Cell
  | [], _, _, value => value
  | editor :: _, 0, column, value => editor.unsignedForm column value
  | _ :: editors, member + 1, column, value => unsignedFormAt editors member column value

end

theorem unsignedFormAt_eq (editors : List Editor) (member column : Nat) (value : Cell) :
    unsignedFormAt editors member column value =
      (editors[member]?.map fun e => e.unsignedForm column value).getD value := by
  induction editors generalizing member with
  | nil => rfl
  | cons e editors ih =>
    cases member with
    | zero => rfl
    | succ member => exact ih member

theorem unsignedForm_compound_leaf {members : List (Member Datatype)} {map : ColumnMap}
    {editors : List Editor} {column : Nat} {value : Cell} (hvalue : value.isCompound = false) :
    (Editor.compound members map editors).unsignedForm column value =
      match map.locate? column with
      | some (member, relative) => unsignedFormAt editors member relative value
      | none => value := by
  cases value with
  | compound items => cases hvalue
  | _ => simp only [unsignedForm]

theorem isCompound_unsignedForm (e : Editor) (column : Nat) (value : Cell) :
    (e.unsignedForm column value).isCompound = value.isCompound := by
  induction e generalizing column value with
  | scalar type =>
    rw [unsignedForm]
    cases value with
    | int n =>
      rw [Scalar.unsignedForm]
      split <;> rfl
    | _ => rfl
  | compound members map editors ih =>
    by_cases hvalue : value.isCompound = true
    · cases value with
      | compound items => rfl
      | _ => cases hvalue
    · rw [unsignedForm_compound_leaf (Bool.eq_false_iff.mpr hvalue)]
      split
      · rename_i member relative _
        rw [unsignedFormAt_eq]
        cases hmember : editors[member]? with
        | none => rfl
        | some e => exact ih e (List.mem_of_getElem? hmember) _ _
      · rfl
  | _ => cases value <;> rfl

/-- Two cells of a column that differ in the forms of their words only have one text. -/
def ShowsFormsAlike {σ : Type} (d : Display σ) (e : Editor) : Prop :=
  ∀ column value other, e.unsignedForm column value = e.unsignedForm column other →
    ∀ state, ((e.render d column value).run state).1 = ((e.render d column other).run state).1

section Render

variable {σ : Type} {d : Display σ}

/-- The unsigned forms show as the cells do, in the parts of a cell as far as editors reach. -/
theorem renderMembers_unsignedForms {editors : List Editor}
    (h : ∀ e ∈ editors, ∀ column value,
      sameResult String (e.render d column (e.unsignedForm column value)) (e.render d column value))
    (items : List Cell) :
    sameResult (List String) (renderMembers d editors (unsignedForms editors items))
      (renderMembers d editors items) := by
  induction items generalizing editors with
  | nil =>
    rw [unsignedForms]
    · simp only [renderMembers]
      exact fun _ _ => rfl
    · simp
  | cons item items ih =>
    cases editors with
    | nil =>
      rw [unsignedForms]
      · simp only [renderMembers]
        exact fun _ _ => rfl
      · simp
    | cons e editors =>
      rw [unsignedForms, renderMembers, renderMembers]
      have hrest := ih fun e he => h e (List.mem_cons_of_mem _ he)
      exact sameResult_isCongruence.bind (h e List.mem_cons_self 0 item)
        fun _ => sameResult_isCongruence.bind hrest fun _ => sameResult_isCongruence.pure _

theorem renderAt_unsignedFormAt {editors : List Editor}
    (h : ∀ e ∈ editors, ∀ column value,
      sameResult String (e.render d column (e.unsignedForm column value)) (e.render d column value))
    (member column : Nat) (value : Cell) :
    sameResult String
      (renderAt d editors member column (unsignedFormAt editors member column value))
      (renderAt d editors member column value) := by
  induction editors generalizing member with
  | nil => exact fun _ _ => rfl
  | cons e editors ih =>
    cases member with
    | zero =>
      rw [unsignedFormAt, renderAt, renderAt]
      exact h e List.mem_cons_self column value
    | succ member =>
      rw [unsignedFormAt, renderAt, renderAt]
      exact ih (fun e he => h e (List.mem_cons_of_mem _ he)) member

theorem listText_unsignedForm {element : Editor}
    (h : ∀ item, sameResult String (element.render d 0 (element.unsignedForm 0 item))
      (element.render d 0 item)) (packed : Option Nat) (items : List Cell) :
    sameResult String
      (listText packed (fun item => element.render d 0 item)
        (.array (items.map fun item => element.unsignedForm 0 item)))
      (listText packed (fun item => element.render d 0 item) (.array items)) := by
  simp only [listText, List.mapM_map]
  exact sameResult_isCongruence.bind (sameResult_isCongruence.mapM h items)
    fun _ => sameResult_isCongruence.pure _

/-- Where no scalar tells the forms apart, no editor does. -/
theorem render_unsignedForm (hd : d.IsSteady) {e : Editor}
    (h : ∀ type ∈ e.scalars, ∀ value,
      sameResult String (type.render d (type.unsignedForm value)) (type.render d value))
    (column : Nat) (value : Cell) :
    sameResult String (e.render d column (e.unsignedForm column value))
      (e.render d column value) := by
  induction e generalizing column value with
  | scalar type =>
    rw [unsignedForm, render, render]
    exact h type (List.mem_singleton_self type) value
  | array base dims element ih =>
    cases value with
    | array items =>
      rw [unsignedForm, render, render]
      exact listText_unsignedForm (ih h 0) _ items
    | _ => exact steady_render hd _ column _
  | sequence base element ih =>
    cases value with
    | array items =>
      rw [unsignedForm, render, render]
      exact sameResult_isCongruence.bind (listText_unsignedForm (ih h 0) _ items)
        fun _ => sameResult_isCongruence.pure _
    | _ => exact steady_render hd _ column _
  | compound members map editors ih =>
    have hmembers : ∀ e ∈ editors, ∀ column value,
        sameResult String (e.render d column (e.unsignedForm column value))
          (e.render d column value) := by
      intro e he
      apply ih e he
      intro type htype
      exact h type (mem_scalars_compound he htype)
    -- A compound cell shows part by part, any other by the member of its column.
    by_cases hvalue : value.isCompound = true
    · cases value with
      | compound items =>
        rw [unsignedForm, render, render]
        exact sameResult_isCongruence.bind (renderMembers_unsignedForms hmembers items)
          fun _ => sameResult_isCongruence.pure _
      | _ => cases hvalue
    · have hleaf : value.isCompound = false := Bool.eq_false_iff.mpr hvalue
      have hform := (Editor.compound members map editors).isCompound_unsignedForm column value
      rw [unsignedForm_compound_leaf hleaf] at hform ⊢
      cases hplace : map.locate? column with
      | none => exact steady_render hd _ column value
      | some place =>
        rw [hplace] at hform
        rw [render_compound_at hplace (hform.trans hleaf), render_compound_at hplace hleaf]
        exact renderAt_unsignedFormAt hmembers _ _ value
  | varString base => exact steady_render hd _ column value
  | refusing type => exact steady_render hd _ column value

end Render

section Reach

variable {σ : Type} {d : Display σ}

theorem intercalate_concat_inj {sep : List Char} {xs : List (List Char)} {x y : List Char}
    (h : sep.intercalate (xs ++ [x]) = sep.intercalate (xs ++ [y])) : x = y := by
  induction xs with
  | nil => simpa using h
  | cons a rest ih =>
    rw [List.cons_append, List.cons_append, List.intercalate_cons_of_ne_nil (by simp),
      List.intercalate_cons_of_ne_nil (by simp)] at h
    exact ih (List.append_cancel_left h)

theorem brackets_concat_inj {texts : List String} {x y : String}
    (h : "[" ++ ", ".intercalate (texts ++ [x]) ++ "]" =
      "[" ++ ", ".intercalate (texts ++ [y]) ++ "]") : x = y := by
  rw [String.append_left_inj, String.append_right_inj, ← String.toList_inj,
    String.toList_intercalate, String.toList_intercalate, List.map_append, List.map_append] at h
  exact String.toList_inj.mp (intercalate_concat_inj h)

def partBehind (before : List Editor) (item : Cell) : List Cell :=
  before.map (fun _ => .null) ++ [item]

theorem unsignedForms_partBehind (before after : List Editor) (e : Editor) (item : Cell) :
    unsignedForms (before ++ e :: after) (partBehind before item) =
      unsignedForms before (before.map fun _ => .null) ++ [e.unsignedForm 0 item] := by
  induction before with
  | nil => simp [partBehind, unsignedForms]
  | cons b before ih =>
    rw [partBehind, List.map_cons, List.cons_append, List.cons_append, unsignedForms,
      unsignedForms, ← partBehind, ih, List.cons_append]

/-- The empty parts come first; the part behind them is shown from the state that they leave. -/
theorem renderMembers_partBehind (before after : List Editor) (e : Editor) (state : σ) :
    ∃ texts left, ∀ item,
      ((renderMembers d (before ++ e :: after) (partBehind before item)).run state).1 =
        texts ++ [((e.render d 0 item).run left).1] := by
  induction before generalizing state with
  | nil =>
    refine ⟨[], state, fun item => ?_⟩
    simp only [partBehind, List.map_nil, List.nil_append, renderMembers]
    rfl
  | cons b before ih =>
    rcases ih ((b.render d 0 .null).run state).2 with ⟨texts, left, htexts⟩
    refine ⟨((b.render d 0 .null).run state).1 :: texts, left, fun item => ?_⟩
    rw [partBehind, List.map_cons, List.cons_append, List.cons_append, renderMembers,
      List.cons_append, ← htexts item]
    rfl

theorem listText_singleton (packed : Option Nat) (element : Cell → StateM σ String) (item : Cell)
    (state : σ) :
    ((listText packed element (.array [item])).run state).1 = ((element item).run state).1 := by
  simp [listText]

/-- Each scalar of an editor is shown by some cell, in a text that gives the scalar's away. -/
theorem exists_shown (hd : d.IsSteady) {e : Editor} {type : Scalar} (h : type ∈ e.scalars) :
    ∃ inside : Cell → Cell,
      (∀ value other, type.unsignedForm value = type.unsignedForm other →
        e.unsignedForm 0 (inside value) = e.unsignedForm 0 (inside other)) ∧
      ∀ value other state, ((e.render d 0 (inside value)).run state).1 =
          ((e.render d 0 (inside other)).run state).1 →
        ((type.render d value).run state).1 = ((type.render d other).run state).1 := by
  induction e with
  | scalar type' =>
    obtain rfl : type = type' := List.mem_singleton.mp h
    exact ⟨id, fun _ _ => id, fun _ _ _ => id⟩
  | array base dims element ih =>
    rcases ih h with ⟨inside, hform, htext⟩
    refine ⟨fun value => .array [inside value], ?_, ?_⟩
    · intro value other hsame
      simp only [unsignedForm, List.map_cons, List.map_nil, hform value other hsame]
    · intro value other state hsame
      apply htext value other state
      rw [render, render, listText_singleton, listText_singleton] at hsame
      exact hsame
  | sequence base element ih =>
    rcases ih h with ⟨inside, hform, htext⟩
    refine ⟨fun value => .array [inside value], ?_, ?_⟩
    · intro value other hsame
      simp only [unsignedForm, List.map_cons, List.map_nil, hform value other hsame]
    · intro value other state hsame
      have hparens : "(" ++ ((element.render d 0 (inside value)).run state).1 ++ ")" =
          "(" ++ ((element.render d 0 (inside other)).run state).1 ++ ")" := by
        rw [← listText_singleton base.packedSize?, ← listText_singleton base.packedSize?]
        exact hsame
      rw [String.append_left_inj, String.append_right_inj] at hparens
      exact htext value other state hparens
  | compound members map editors ih =>
    rw [scalars, scalarsOf_eq_flatMap] at h
    rcases List.mem_flatMap.mp h with ⟨e, he, htype⟩
    rcases ih e he htype with ⟨inside, hform, htext⟩
    obtain ⟨before, after, rfl⟩ := List.append_of_mem he
    refine ⟨fun value => .compound (partBehind before (inside value)), ?_, ?_⟩
    · intro value other hsame
      simp only [unsignedForm, unsignedForms_partBehind, hform value other hsame]
    · intro value other state hsame
      rcases renderMembers_partBehind before after e state with ⟨texts, left, htexts⟩
      have hparts :
          "[" ++ ", ".intercalate (texts ++ [((e.render d 0 (inside value)).run left).1]) ++ "]" =
            "[" ++ ", ".intercalate (texts ++ [((e.render d 0 (inside other)).run left).1]) ++
              "]" := by
        rw [← htexts, ← htexts]
        exact hsame
      -- The parts in front leave another state, but the text is the same from every state.
      apply htext value other state
      rw [steady_render hd e 0 _ state left, steady_render hd e 0 _ state left]
      exact brackets_concat_inj hparts
  | varString base => cases h
  | refusing type' => cases h

end Reach

theorem showsFormsAlike_of_scalars {σ : Type} {d : Display σ} (hd : d.IsSteady) {e : Editor}
    (h : ∀ type ∈ e.scalars, ∀ value,
      sameResult String (type.render d (type.unsignedForm value)) (type.render d value)) :
    e.ShowsFormsAlike d := by
  intro column value other hsame state
  have hvalue := render_unsignedForm hd h column value state state
  have hother := render_unsignedForm hd h column other state state
  rw [← hvalue, hsame, hother]

/-- Whatever the cell, its text does not depend on the forms of its words when enumerations are
shown by value. With names it does not either, exactly when no enumeration in the editor has a name
for a word past the signed range. -/
theorem showsFormsAlike_iff (e : Editor) (format : Number.NumberFormat) :
    (∀ (type : Scalar) (n : UInt64), type.isWide = true →
      type.unsignedForm (.int n.toInt64) = type.unsignedForm (.uint n)) ∧
    (∀ σ : Type, e.ShowsFormsAlike (⟨format, none⟩ : Display σ)) ∧
    (e.ShowsFormsAlike ⟨format, some MemberTable.converter⟩ ↔
      ∀ type ∈ e.scalars, type.namesHighWord = false) := by
  refine ⟨fun type n h => Scalar.unsignedForm_toInt64 h n, fun σ => ?_, ?_⟩
  · have hsteady : (⟨format, none⟩ : Display σ).IsSteady := fun c hc => by cases hc
    exact showsFormsAlike_of_scalars hsteady fun type _ value =>
      Scalar.render_unsignedForm_plain rfl value
  · have hsteady : Display.IsSteady ⟨format, some MemberTable.converter⟩ := by
      intro c hc
      cases hc
      exact MemberTable.converter_isSteady
    constructor
    · intro halike type htype
      by_contra hnames
      obtain ⟨value, hdiffer⟩ := Scalar.exists_forms_differ (d := ⟨format, _⟩) rfl
        (Bool.not_eq_false _ ▸ hnames)
      obtain ⟨inside, hform, htext⟩ := exists_shown hsteady htype
      have hsame := halike 0 _ _ (hform _ _ (type.unsignedForm_unsignedForm value)) .empty
      exact hdiffer .empty (htext _ _ _ hsame)
    · intro hnames
      exact showsFormsAlike_of_scalars hsteady fun type htype value =>
        Scalar.render_unsignedForm_named rfl (hnames type htype) value

def logType : Datatype :=
  .sequence (.compound [
    ⟨"time", 1, .scalar (.integer ⟨8, false⟩)⟩,
    ⟨"before", 2, .array (.scalar (.reference 8 .object)) [1]⟩,
    ⟨"state", 3, .scalar (.enumeration ⟨8, false⟩ [⟨"done", 0⟩, ⟨"18446744073709551615", -1⟩])⟩])

/-- A name that is the number of its word is no other text. -/
theorem showsFormsAlike_iff_log :
    (∀ type ∈ (build .all logType).scalars, type.namesHighWord = false) ∧
    ∀ table, (((build .all logType).render ⟨.plain, some MemberTable.converter⟩ 0
        (.array [.compound [.int (-2), .array [.uint 7], .int (-1)]])).run table).1 =
      (((build .all logType).render ⟨.plain, some MemberTable.converter⟩ 0
        (.array [.compound [.uint 18446744073709551614, .array [.int 7],
          .uint 18446744073709551615]])).run table).1 := by
  have hnames : ∀ type ∈ (build .all logType).scalars, type.namesHighWord = false := by
    decide +kernel
  obtain ⟨-, -, hnamed⟩ := showsFormsAlike_iff (build .all logType) .plain
  exact ⟨hnames, hnamed.mpr hnames 0 _ _ (by rfl)⟩

/-- A mask of options, with a name for all of them at once. -/
def maskType : Scalar :=
  .enumeration ⟨8, false⟩ [⟨"ONE", 1⟩, ⟨"ALL", -1⟩]

/-- The mask of all options is shown by name in its signed form only. -/
theorem maskType_forms_differ :
    maskType.isWide = true ∧
    (((Editor.scalar maskType).render ⟨.plain, some MemberTable.converter⟩ 0
      (.int (18446744073709551615 : UInt64).toInt64)).run .empty).1 = "ALL" ∧
    (((Editor.scalar maskType).render ⟨.plain, some MemberTable.converter⟩ 0
      (.uint 18446744073709551615)).run .empty).1 = "18446744073709551615" ∧
    ¬ (Editor.scalar maskType).ShowsFormsAlike ⟨.plain, some MemberTable.converter⟩ := by
  have hsigned : (((Editor.scalar maskType).render ⟨.plain, some MemberTable.converter⟩ 0
      (.int (18446744073709551615 : UInt64).toInt64)).run .empty).1 = "ALL" := by
    decide +kernel
  have hunsigned : (((Editor.scalar maskType).render ⟨.plain, some MemberTable.converter⟩ 0
      (.uint 18446744073709551615)).run .empty).1 = "18446744073709551615" := by
    decide +kernel
  refine ⟨rfl, hsigned, hunsigned, fun halike => ?_⟩
  have hsame := halike 0 (.int (18446744073709551615 : UInt64).toInt64)
    (.uint 18446744073709551615) (by rfl) .empty
  rw [hsigned, hunsigned] at hsame
  revert hsame
  decide

end Editor

end DatasetGrid
