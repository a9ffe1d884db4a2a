import DatasetGrid.Proofs.EnumNames
import DatasetGrid.Proofs.Rendering

/-! # Texts that do not depend on a converter's state

Showing a cell may open types of the converter for names and so change its state. When the name of
a value does not depend on that state, no text does.
-/
namespace DatasetGrid

def Steady {σ α : Type} (act : StateM σ α) : Prop :=
  ∀ state other, (act.run state).1 = (act.run other).1

/-- The results are the same, whatever the states. -/
def sameResult {σ τ : Type} : ActionRelation σ τ :=
  fun _ act act' => ∀ state other, (act.run state).1 = (act'.run other).1

theorem sameResult_isCongruence {σ τ : Type} :
    (sameResult : ActionRelation σ τ).IsCongruence where
  pure _ _ _ := rfl
  bind hact hnext state other := by
    rw [run_bind, run_bind, hact state other]
    exact hnext _ _ _

namespace Steady

variable {σ α β : Type} {act : StateM σ α}

theorem pure (a : α) : Steady (Pure.pure a : StateM σ α) :=
  fun _ _ => rfl

theorem bind (h : Steady act) {next : α → StateM σ β} (hnext : ∀ a, Steady (next a)) :
    Steady (act >>= next) :=
  sameResult_isCongruence.bind h hnext

end Steady

def Converter.IsSteady {σ : Type} (c : Converter σ) : Prop :=
  ∀ base members key, Steady (c.nameOfValue (.scalar (.enumeration base members)) key)

def Display.IsSteady {σ : Type} (d : Display σ) : Prop :=
  ∀ c, d.names = some c → c.IsSteady

theorem MemberTable.converter_isSteady : MemberTable.converter.IsSteady := by
  intro base members key state other
  rw [nameOfValue_eq, nameOfValue_eq]

variable {σ : Type} {d : Display σ}

theorem steady_enumerationText {names : Option (Converter σ)}
    (h : ∀ c, names = some c → c.IsSteady) (base : IntegerType) (members : List EnumMember)
    (value : Cell) : Steady (enumerationText names base members value) := by
  rw [enumerationText.eq_def]
  split
  · rename_i c key _
    apply (h c rfl base members key).bind
    intro answer
    split <;> exact .pure _
  · exact .pure _

/-- A cell shows the same text from every state of the converter. -/
theorem Editor.steady_render (h : d.IsSteady) (e : Editor) (column : Nat) (value : Cell) :
    Steady (e.render d column value) :=
  sameResult_isCongruence.render rfl (steady_enumerationText h) e column value

end DatasetGrid
