import DatasetGrid.Editor.Edit
import DatasetGrid.Proofs.Induction

/-! # Checking and reading agree

A text is accepted exactly when it can be read, and both refuse it for the same innermost fault.
Checks say where in a list of tokens the fault lies and readers wrap it in elements, so only the
innermost faults can be compared.
-/
namespace DatasetGrid

/-- A check and a reader that both succeed, or fail with the same innermost fault. -/
def Agree {α β : Type} : Except Fault α → Except Fault β → Prop
  | .ok _, .ok _ => True
  | .error f, .error g => f.root = g.root
  | _, _ => False

def AgreePlaced {α β : Type} (check : Except PlacedFault α) (parse : Except Fault β) : Prop :=
  Agree (check.mapError (·.2)) parse

section Agree
variable {α β γ δ : Type} {check : Except Fault α} {parse : Except Fault β}

theorem Agree.refl (check : Except Fault α) : Agree check check := by
  cases check with
  | ok a => exact trivial
  | error f => exact rfl

theorem Agree.map (h : Agree check parse) (g : β → γ) : Agree check (parse.map g) := by
  cases check <;> cases parse <;> exact h

theorem Agree.map_left (h : Agree check parse) (g : α → γ) : Agree (check.map g) parse := by
  cases check <;> cases parse <;> exact h

theorem Agree.mapError_right (h : Agree check parse) {wrap : Fault → Fault}
    (hwrap : ∀ f, (wrap f).root = f.root) : Agree check (parse.mapError wrap) := by
  cases check <;> cases parse
  · exact h.trans (hwrap _).symm
  all_goals exact h

theorem Agree.bind (h : Agree check parse) {next : α → Except Fault γ} {read : β → Except Fault δ}
    (hnext : ∀ a b, Agree (next a) (read b)) : Agree (check >>= next) (parse >>= read) := by
  cases check with
  | ok a =>
    cases parse with
    | ok b => exact hnext a b
    | error g => cases h
  | error f =>
    cases parse with
    | ok b => cases h
    | error g => exact h

end Agree

theorem mapError_bind {ε ε' α β : Type} (x : Except ε α) (next : α → Except ε β) (g : ε → ε') :
    (x >>= next).mapError g = x.mapError g >>= fun a => (next a).mapError g := by
  cases x <;> rfl

section AgreePlaced
variable {α β γ δ : Type} {check : Except PlacedFault α} {parse : Except Fault β}

theorem AgreePlaced.bind (h : AgreePlaced check parse) {next : α → Except PlacedFault γ}
    {read : β → Except Fault δ} (hnext : ∀ a b, AgreePlaced (next a) (read b)) :
    AgreePlaced (check >>= next) (parse >>= read) := by
  rw [AgreePlaced, mapError_bind]
  exact Agree.bind h hnext

theorem AgreePlaced.map (h : AgreePlaced check parse) (g : β → γ) :
    AgreePlaced check (parse.map g) :=
  Agree.map h g

theorem AgreePlaced.shift (h : AgreePlaced check parse) (offset : Nat) :
    AgreePlaced (check.mapError (·.shift offset)) parse := by
  cases check <;> exact h

theorem AgreePlaced.element_right (h : AgreePlaced check parse) (index : Nat) :
    AgreePlaced check (parse.mapError (.element index ·)) :=
  Agree.mapError_right h fun _ => rfl

theorem agreePlaced_atStart {check : Except Fault α} (h : Agree check parse) :
    AgreePlaced (check.mapError .atStart) parse := by
  cases check <;> exact h

theorem AgreePlaced.toElement (h : AgreePlaced check parse) :
    Agree (check.mapError fun f => Fault.element f.1 f.2) parse := by
  cases check <;> cases parse <;> exact h

end AgreePlaced

theorem Scalar.check_agree_parse (s : Scalar) (text : String) :
    Agree (s.check text) (s.parse text) := by
  cases s with
  | string length => exact (Agree.refl (checkString length text)).map _
  | _ => exact (Agree.refl _).map_left _

section Lists
variable {check : List String → Except PlacedFault Unit} {parse : List String → Except Fault Cell}

/-- Element after element, the first that one side refuses is the first that the other refuses. -/
theorem checkEach_agree_parseEach (h : ∀ tokens, AgreePlaced (check tokens) (parse tokens))
    (width start : Nat) (chunks : List (List String)) :
    AgreePlaced (checkEach check width start chunks) (parseEach parse width start chunks) := by
  induction chunks generalizing start with
  | nil => exact trivial
  | cons chunk rest ih =>
    rw [checkEach, parseEach]
    apply AgreePlaced.bind (((h chunk).shift start).element_right start)
    intro _ item
    exact (ih (start + width)).map (item :: ·)

theorem checkList_agree_parseList (h : ∀ tokens, AgreePlaced (check tokens) (parse tokens))
    (expected : Option Nat) (width : Nat) (tokens : List String) :
    Agree (checkList expected width check tokens) (parseList expected width parse tokens) := by
  rw [checkList, parseList]
  apply Agree.bind (Agree.refl _)
  intro _ _
  exact ((checkEach_agree_parseEach h width 0 (chunks width tokens)).map Cell.array).toElement

end Lists

namespace Editor

theorem checkMembers_agree_parseMembers {editors : List Editor}
    (h : ∀ e ∈ editors, ∀ tokens, AgreePlaced (e.checkElement tokens) (e.parseElement tokens))
    (total found offset : Nat) (rest : List String) :
    AgreePlaced (checkMembers total found offset editors rest)
      (parseMembers total found offset editors rest) := by
  induction editors generalizing offset rest with
  | nil =>
    rw [checkMembers, parseMembers]
    exact agreePlaced_atStart ((Agree.refl (checkExactly offset found)).map fun _ => [])
  | cons e editors ih =>
    rw [checkMembers, parseMembers]
    by_cases hshort : rest.length < e.tokens
    · rw [if_pos hshort, if_pos hshort]
      exact rfl
    · rw [if_neg hshort, if_neg hshort]
      apply AgreePlaced.bind ((h e List.mem_cons_self _).shift offset)
      intro _ item
      exact (ih (fun e he => h e (List.mem_cons_of_mem _ he)) _ _).map (item :: ·)

theorem checkElement_agree_parseElement (e : Editor) (tokens : List String) :
    AgreePlaced (e.checkElement tokens) (e.parseElement tokens) := by
  induction e generalizing tokens with
  | scalar type =>
    rw [checkElement, parseElement]
    apply AgreePlaced.bind (agreePlaced_atStart (Agree.refl _))
    intro _ _
    exact agreePlaced_atStart (type.check_agree_parse _)
  | varString base =>
    rw [checkElement, parseElement]
    exact agreePlaced_atStart ((Agree.refl (checkExactly 1 tokens.length)).map _)
  | array base dims element ih =>
    rw [checkElement, parseElement, parseList]
    apply AgreePlaced.bind (agreePlaced_atStart (Agree.refl _))
    intro _ _
    exact (checkEach_agree_parseEach ih element.width 0 _).map Cell.array
  | sequence base element ih =>
    rcases tokens with _ | ⟨token, _ | ⟨other, rest⟩⟩
    · exact rfl
    · rw [checkElement, parseElement]
      exact agreePlaced_atStart (checkList_agree_parseList ih none element.width _)
    · exact rfl
  | compound members map editors ih =>
    rw [checkElement, parseElement]
    exact (checkMembers_agree_parseMembers ih _ _ 0 tokens).map Cell.compound
  | refusing type =>
    rw [checkElement, parseElement]
    apply AgreePlaced.bind (agreePlaced_atStart (Agree.refl _))
    intro _ _
    exact rfl

theorem checkAt_agree_parseAt {editors : List Editor}
    (h : ∀ e ∈ editors, ∀ column text, Agree (e.check column text) (e.parse column text))
    (member column : Nat) (text : String) :
    Agree (checkAt editors member column text) (parseAt editors member column text) := by
  induction editors generalizing member with
  | nil => exact rfl
  | cons e editors ih =>
    cases member with
    | zero =>
      rw [checkAt, parseAt]
      exact h e List.mem_cons_self column text
    | succ member =>
      rw [checkAt, parseAt]
      exact ih (fun e he => h e (List.mem_cons_of_mem _ he)) member

theorem check_agree_parse (e : Editor) (column : Nat) (text : String) :
    Agree (e.check column text) (e.parse column text) := by
  induction e generalizing column text with
  | scalar type =>
    rw [check, parse]
    exact type.check_agree_parse text
  | varString base => exact trivial
  | array base dims element _ =>
    rw [check, parse]
    exact checkList_agree_parseList element.checkElement_agree_parseElement _ _ _
  | sequence base element _ =>
    rw [check, parse]
    exact checkList_agree_parseList element.checkElement_agree_parseElement _ _ _
  | compound members map editors ih =>
    rw [check, parse]
    cases map.locate? column with
    | none => exact rfl
    | some place => exact checkAt_agree_parseAt ih place.1 place.2 text
  | refusing type => exact rfl

theorem check_of_parse {e : Editor} {column : Nat} {text : String} {value : Cell}
    (h : e.parse column text = .ok value) : e.check column text = .ok () := by
  have hagree := e.check_agree_parse column text
  rw [h] at hagree
  cases hcheck : e.check column text with
  | ok _ => rfl
  | error cause =>
    rw [hcheck] at hagree
    cases hagree

theorem exists_parse_of_check {e : Editor} {column : Nat} {text : String}
    (h : e.check column text = .ok ()) : ∃ value, e.parse column text = .ok value := by
  have hagree := e.check_agree_parse column text
  rw [h] at hagree
  cases hparse : e.parse column text with
  | ok value => exact ⟨value, rfl⟩
  | error cause =>
    rw [hparse] at hagree
    cases hagree

/-- Whatever the datatype and the scope, an edit of a column and an element of a list are accepted
exactly when they can be read, and refused for the same innermost fault. -/
theorem build_check_agree (scope : Scope) (type : Datatype) :
    (∀ column text, Agree ((build scope type).check column text)
      ((build scope type).parse column text)) ∧
    ∀ tokens, AgreePlaced ((build scope type).checkElement tokens)
      ((build scope type).parseElement tokens) :=
  ⟨check_agree_parse _, checkElement_agree_parseElement _⟩

end Editor

end DatasetGrid
