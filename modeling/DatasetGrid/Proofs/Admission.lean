import DatasetGrid.Proofs.Build
import DatasetGrid.Proofs.Entries
import DatasetGrid.Proofs.NumberCells
import DatasetGrid.Scalar.Edit

/-! # Cells that edits give

A text that is read gives a cell of the shape of its datatype, down to the last element: no integer
leaves the range of its type on the way into a word, and lists and compounds get as many items as
they have elements and members. Each reader is read backwards, from the cell to what it has checked.
-/
namespace DatasetGrid

namespace Scalar

/-- The values of an enumeration's members are in its integer type. In eight unsigned bytes they
stand for bit patterns and may be any. -/
def hasFittingMembers : Scalar → Bool
  | .enumeration base members =>
    base = ⟨8, false⟩ || members.all fun m =>
      match base.range? with
      | some (min, max) => min ≤ m.value.toInt && m.value.toInt ≤ max
      | none => false
  | _ => true

end Scalar

namespace Datatype

mutual

def hasFittingMembers : Datatype → Bool
  | .scalar type => type.hasFittingMembers
  | .array base _ | .sequence base => base.hasFittingMembers
  | .compound members => haveFittingMembers members

def haveFittingMembers : List (Member Datatype) → Bool
  | [] => true
  | member :: members => member.type.hasFittingMembers && haveFittingMembers members

end

mutual

/-- A word can count the tokens of every array. Arrays of strings are not counted. -/
def isCountable : Datatype → Bool
  | .scalar _ => true
  | .array base dims => base.isCountable && (base.isString || base.isVarString ||
      decide (arrayOrder dims * (Editor.build .all base).width < wordCount))
  | .sequence base => base.isCountable
  | .compound members => areCountable members

def areCountable : List (Member Datatype) → Bool
  | [] => true
  | member :: members => member.type.isCountable && areCountable members

end

mutual

/-- The values that edits give, with the members in scope. They are those of the datatype, but an
array of strings may have any number of them. -/
def admits (scope : Scope) : Datatype → Cell → Bool
  | .scalar type, value => type.holds value
  | .array base dims, .array items =>
    (base.isString || base.isVarString || items.length = arrayOrder dims) &&
      items.all fun item => base.admits .all item
  | .sequence base, .array items => !base.isString && items.all fun item => base.admits .all item
  | .sequence base, .text _ => base.isString
  | .compound members, .compound items => admitsMembers scope members items
  | _, _ => false

def admitsMembers (scope : Scope) : List (Member Datatype) → List Cell → Bool
  | [], [] => true
  | [], _ :: _ => false
  | member :: members, items =>
    if scope.shows member then
      match items with
      | [] => false
      | item :: items => member.type.admits scope item && admitsMembers scope members items
    else admitsMembers scope members items

end

end Datatype

section Outcomes
variable {ε ε' α β : Type} {x : Except ε α}

theorem bind_eq_ok {next : α → Except ε β} {b : β} :
    x >>= next = .ok b ↔ ∃ a, x = .ok a ∧ next a = .ok b := by
  cases x with
  | error e => exact ⟨fun h => (by cases h), fun ⟨a, h, _⟩ => (by cases h)⟩
  | ok a =>
    refine ⟨fun h => ⟨a, rfl, h⟩, ?_⟩
    rintro ⟨_, ⟨⟩, hnext⟩
    exact hnext

theorem mapError_eq_ok {f : ε → ε'} {a : α} : x.mapError f = .ok a ↔ x = .ok a := by
  cases x with
  | error e => exact ⟨fun h => (by cases h), fun h => (by cases h)⟩
  | ok a => exact ⟨fun h => (by cases h; rfl), fun h => (by cases h; rfl)⟩

end Outcomes

section Lists

variable {parse : List String → Except Fault Cell} {width start : Nat} {items : List Cell}

theorem parseEach_eq_ok {chunks : List (List String)}
    (h : parseEach parse width start chunks = .ok items) :
    List.Forall₂ (fun chunk item => parse chunk = .ok item) chunks items := by
  induction chunks generalizing start items with
  | nil =>
    cases h
    exact .nil
  | cons chunk rest ih =>
    rw [parseEach] at h
    rcases bind_eq_ok.mp h with ⟨item, hitem, hrest⟩
    rcases bind_eq_ok.mp hrest with ⟨others, hothers, hitems⟩
    cases hitems
    exact .cons (mapError_eq_ok.mp hitem) (ih hothers)

theorem parseList_eq_ok {expected : Option Nat} {tokens : List String} {value : Cell}
    (h : parseList expected width parse tokens = .ok value) :
    ∃ items, value = .array items ∧ checkCount expected width tokens.length = .ok () ∧
      List.Forall₂ (fun chunk item => parse chunk = .ok item) (chunks width tokens) items := by
  rw [parseList] at h
  rcases bind_eq_ok.mp h with ⟨_, hcount, hread⟩
  rcases bind_eq_ok.mp hread with ⟨items, hitems, hvalue⟩
  cases hvalue
  exact ⟨items, rfl, hcount, parseEach_eq_ok hitems⟩

theorem length_chunks_of_checkCount {count : Nat} {tokens : List String} (hwidth : 0 < width)
    (h : checkCount (some (count * width)) width tokens.length = .ok ()) :
    (chunks width tokens).length = count := by
  rw [chunks_eq_pieces hwidth (checkExactly_eq_ok.mp h), length_pieces]

end Lists

namespace Editor

def ReadsElements (base : Datatype) : Prop :=
  ∀ {tokens value}, (build .all base).parseElement tokens = .ok value →
    base.admits .all value = true

variable {base : Datatype} {tokens : List String} {value : Cell}

theorem ReadsElements.all (h : ReadsElements base) {items : List Cell}
    {chunks : List (List String)}
    (hread : List.Forall₂ (fun chunk item => (build .all base).parseElement chunk = .ok item)
      chunks items) : (items.all fun item => base.admits .all item) = true := by
  rw [List.all_eq_true]
  intro item hitem
  rcases List.getElem_of_mem hitem with ⟨i, hi, rfl⟩
  exact h (hread.get (by rw [hread.length_eq]; exact hi) hi)

/-- An array has one item for each element, unless it is one of strings. -/
theorem ReadsElements.array (h : ReadsElements base) {dims : List Nat}
    (hcounts : (Datatype.array base dims).isCountable = true)
    (hread : parseList (expectedTokens? base dims (build .all base)) (build .all base).width
      (build .all base).parseElement tokens = .ok value) (scope : Scope) :
    (Datatype.array base dims).admits scope value = true := by
  rcases parseList_eq_ok hread with ⟨items, rfl, hcount, hitems⟩
  rw [Datatype.admits, h.all hitems, Bool.and_true]
  by_cases hstring : (base.isString || base.isVarString) = true
  · rw [hstring, Bool.true_or]
  · have hfits : arrayOrder dims * (build .all base).width < wordCount := by
      have hcountable := (Bool.and_eq_true_iff.mp hcounts).2
      exact of_decide_eq_true ((Bool.or_eq_true_iff.mp hcountable).resolve_left hstring)
    rw [expectedTokens?_of_lt (Bool.not_eq_true _ ▸ hstring) hfits] at hcount
    -- Elements without tokens still count as one token wide, so whole chunks are never lost.
    have hlength : items.length = arrayOrder dims := by
      rw [← hitems.length_eq, length_chunks_of_checkCount (build .all base).width_pos hcount]
    rw [decide_eq_true hlength, Bool.or_true]

theorem ReadsElements.sequence (h : ReadsElements base) (hbase : base.isString = false)
    (hread : parseList none (build .all base).width (build .all base).parseElement tokens =
      .ok value) (scope : Scope) : (Datatype.sequence base).admits scope value = true := by
  rcases parseList_eq_ok hread with ⟨items, rfl, -, hitems⟩
  rw [Datatype.admits, h.all hitems, hbase]
  rfl

end Editor

end DatasetGrid
