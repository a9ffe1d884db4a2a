import DatasetGrid.Proofs.Induction
import DatasetGrid.Table.Basic

/-! # Two renderings of one cell

With other options, or with another converter for names, a cell is shown by the same steps. What
relates the texts of the scalars at the leaves in two renderings, and is kept by returning a value
and by doing one thing after another, relates the whole renderings.
-/
namespace DatasetGrid

namespace Editor

mutual

def scalars : Editor → List Scalar
  | .scalar type => [type]
  | .array _ _ element | .sequence _ element => element.scalars
  | .compound _ _ editors => scalarsOf editors
  | .varString _ | .refusing _ => []

def scalarsOf : List Editor → List Scalar
  | [] => []
  | editor :: editors => editor.scalars ++ scalarsOf editors

end

theorem scalarsOf_eq_flatMap (editors : List Editor) :
    scalarsOf editors = editors.flatMap scalars := by
  induction editors with
  | nil => rfl
  | cons e rest ih => rw [scalarsOf, ih, List.flatMap_cons]

theorem mem_scalars_compound {members : List (Member Datatype)} {map : ColumnMap}
    {editors : List Editor} {e : Editor} {type : Scalar} (he : e ∈ editors)
    (htype : type ∈ e.scalars) : type ∈ (Editor.compound members map editors).scalars := by
  rw [scalars, scalarsOf_eq_flatMap]
  exact List.mem_flatMap.mpr ⟨e, he, htype⟩

end Editor

theorem run_bind {σ α β : Type} (act : StateM σ α) (next : α → StateM σ β) (state : σ) :
    (act >>= next).run state = (next (act.run state).1).run (act.run state).2 := rfl

/-- A relation between actions on two states, for results of any type. -/
abbrev ActionRelation (σ τ : Type) := ∀ α : Type, StateM σ α → StateM τ α → Prop

/-- Returning one value and doing related things one after another are related. -/
structure ActionRelation.IsCongruence {σ τ : Type} (R : ActionRelation σ τ) : Prop where
  pure : ∀ {α : Type} (a : α), R α (Pure.pure a) (Pure.pure a)
  bind : ∀ {α β : Type} {act : StateM σ α} {act' : StateM τ α} {next : α → StateM σ β}
    {next' : α → StateM τ β}, R α act act' → (∀ a, R β (next a) (next' a)) →
      R β (act >>= next) (act' >>= next')

namespace ActionRelation.IsCongruence

variable {σ τ α β : Type} {R : ActionRelation σ τ} {d : Display σ} {d' : Display τ}

theorem map (h : R.IsCongruence) {act : StateM σ α} {act' : StateM τ α} (hact : R α act act')
    (f : α → β) : R β (f <$> act) (f <$> act') :=
  h.bind hact fun a => h.pure (f a)

theorem mapM (h : R.IsCongruence) {f : α → StateM σ β} {f' : α → StateM τ β}
    (hf : ∀ a, R β (f a) (f' a)) (xs : List α) : R (List β) (xs.mapM f) (xs.mapM f') := by
  induction xs with
  | nil => exact h.pure []
  | cons x rest ih =>
    rw [List.mapM_cons, List.mapM_cons]
    exact h.bind (hf x) fun _ => h.bind ih fun _ => h.pure _

theorem listText (h : R.IsCongruence) {element : Cell → StateM σ String}
    {element' : Cell → StateM τ String} (helement : ∀ item, R String (element item) (element' item))
    (packed : Option Nat) (value : Cell) :
    R String (listText packed element value) (listText packed element' value) := by
  rw [listText.eq_def, listText.eq_def]
  split
  · exact h.bind (h.mapM helement _) fun _ => h.pure _
  · exact h.bind (h.mapM (fun _ => helement _) _) fun _ => h.pure _
  · exact h.pure _

theorem enumeration (h : R.IsCongruence) {c : Converter σ} {c' : Converter τ}
    (hname : ∀ type key, R _ (c.nameOfValue type key) (c'.nameOfValue type key))
    (base : IntegerType) (members : List EnumMember) (value : Cell) :
    R String (enumerationText (some c) base members value)
      (enumerationText (some c') base members value) := by
  cases hkey : enumerationKey? value with
  | none =>
    simp only [enumerationText, hkey]
    exact h.pure _
  | some key =>
    simp only [enumerationText, hkey]
    apply h.bind (hname _ key)
    intro answer
    cases answer <;> exact h.pure _

theorem scalar_render (h : R.IsCongruence) (hformat : d.format = d'.format)
    (hnames : ∀ base members value, R String (enumerationText d.names base members value)
      (enumerationText d'.names base members value)) (type : Scalar) (value : Cell) :
    R String (type.render d value) (type.render d' value) := by
  cases type with
  | enumeration base members => exact hnames base members value
  | float size =>
    rw [Scalar.render, Scalar.render, hformat]
    exact h.pure _
  | _ => exact h.pure _

section Members

variable {editors : List Editor}

theorem renderMembers (h : R.IsCongruence)
    (heditors : ∀ e ∈ editors, ∀ column value,
      R String (e.render d column value) (e.render d' column value)) (items : List Cell) :
    R (List String) (Editor.renderMembers d editors items)
      (Editor.renderMembers d' editors items) := by
  induction items generalizing editors with
  | nil => simpa only [Editor.renderMembers] using h.pure []
  | cons item items ih =>
    cases editors with
    | nil => simpa only [Editor.renderMembers] using h.pure _
    | cons e editors =>
      rw [Editor.renderMembers, Editor.renderMembers]
      have hrest := ih fun e he => heditors e (List.mem_cons_of_mem _ he)
      exact h.bind (heditors e List.mem_cons_self 0 item) fun _ => h.bind hrest fun _ => h.pure _

theorem renderAt (h : R.IsCongruence)
    (heditors : ∀ e ∈ editors, ∀ column value,
      R String (e.render d column value) (e.render d' column value))
    (member column : Nat) (value : Cell) :
    R String (Editor.renderAt d editors member column value)
      (Editor.renderAt d' editors member column value) := by
  induction editors generalizing member with
  | nil => simpa only [Editor.renderAt] using h.pure _
  | cons e editors ih =>
    cases member with
    | zero =>
      rw [Editor.renderAt, Editor.renderAt]
      exact heditors e List.mem_cons_self column value
    | succ member =>
      rw [Editor.renderAt, Editor.renderAt]
      exact ih (fun e he => heditors e (List.mem_cons_of_mem _ he)) member

end Members

/-- Whatever relates the texts of the scalars at the leaves relates the texts of all cells. -/
theorem render_of_scalars (h : R.IsCongruence) {e : Editor}
    (hscalars : ∀ type ∈ e.scalars, ∀ value,
      R String (type.render d value) (type.render d' value)) (column : Nat) (value : Cell) :
    R String (e.render d column value) (e.render d' column value) := by
  induction e generalizing column value with
  | scalar type =>
    rw [Editor.render, Editor.render]
    exact hscalars type (List.mem_singleton_self type) value
  | varString base => simpa only [Editor.render] using h.pure _
  | array base dims element ih =>
    rw [Editor.render, Editor.render]
    exact h.listText (ih hscalars 0) _ value
  | sequence base element ih =>
    rw [Editor.render, Editor.render]
    exact h.bind (h.listText (ih hscalars 0) _ value) fun _ => h.pure _
  | compound members map editors ih =>
    have hmembers : ∀ e ∈ editors, ∀ column value,
        R String (e.render d column value) (e.render d' column value) :=
      fun e he => ih e he fun type htype => hscalars type (Editor.mem_scalars_compound he htype)
    cases value with
    | compound items =>
      rw [Editor.render, Editor.render]
      exact h.bind (h.renderMembers hmembers items) fun _ => h.pure _
    | _ =>
      simp only [Editor.render]
      split
      · exact h.renderAt hmembers _ _ _
      · exact h.pure _
  | refusing type => simpa only [Editor.render] using h.pure _

/-- Only enumerations can tell two displays of one format apart. -/
theorem render (h : R.IsCongruence) (hformat : d.format = d'.format)
    (hnames : ∀ base members value, R String (enumerationText d.names base members value)
      (enumerationText d'.names base members value)) (e : Editor) (column : Nat) (value : Cell) :
    R String (e.render d column value) (e.render d' column value) :=
  h.render_of_scalars (fun type _ => h.scalar_render hformat hnames type) column value

theorem displayText {κ : Type} [Source κ] {R : ActionRelation σ σ} (h : R.IsCongruence)
    {t : Table σ}
    (hnames : ∀ base members value, R String
      (enumerationText t.display.names base members value)
      (enumerationText t.display.names base members value)) (source : κ) (row column : Nat) :
    R _ (t.displayText source row column) (t.displayText source row column) := by
  rw [Table.displayText]
  split
  · split
    · exact h.map (h.render rfl hnames _ _ _) some
    · exact h.pure _
  · exact h.pure _

end ActionRelation.IsCongruence

end DatasetGrid
