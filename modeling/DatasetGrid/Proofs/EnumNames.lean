import DatasetGrid.EnumNames.MemberTable
import DatasetGrid.Proofs.NumberCells
import DatasetGrid.Scalar.Edit

/-! # Names that converters give

A faithful converter names a value by a member that has it. A name that no numeral spells reads as
the value of its member, so that an enumeration cell reads back whether names are shown or not.
-/
namespace DatasetGrid

/-- A name given for a value is that of a member with the value. -/
def Converter.Faithful {σ : Type} (c : Converter σ) : Prop :=
  ∀ base members key state name,
    ((c.nameOfValue (.scalar (.enumeration base members)) key).run state).1 = .ok name →
      ∃ m ∈ members, m.name = name ∧ m.value = key

def Display.Faithful {σ : Type} (d : Display σ) : Prop :=
  ∀ c, d.names = some c → c.Faithful

theorem Converter.nameOfValue_opened {σ : Type} {c : Converter σ} {type : Datatype}
    {handle : Handle} {s opened : σ} (key : Int64)
    (h : (c.openType type).run s = (.ok handle, opened)) :
    (c.nameOfValue type key).run s =
      let named := (c.nameOf handle key).run opened
      (named.1, ((c.closeType handle).run named.2).2) := by
  simp only [nameOfValue, withOpen, StateT.run_bind, h]
  rfl

theorem Converter.nameOfValue_unopened {σ : Type} {c : Converter σ} {type : Datatype}
    {error : ConversionError} {s after : σ} (key : Int64)
    (h : (c.openType type).run s = (.error error, after)) :
    (c.nameOfValue type key).run s = (.error error, after) := by
  simp only [nameOfValue, withOpen, StateT.run_bind, h]
  rfl

namespace MemberTable

theorem openType_run (base : IntegerType) (members : List EnumMember) (t : MemberTable) :
    (openType (.scalar (.enumeration base members))).run t =
      (.ok ↑(t.issued + 1), ⟨t.issued + 1, (↑(t.issued + 1), members) :: t.live⟩) := rfl

theorem nameOf_run {t : MemberTable} {handle : Handle} {members : List EnumMember} (key : Int64)
    (h : t.live.lookup handle = some members) :
    (nameOf handle key).run t =
      (match members.find? (·.value = key) with
        | some m => .ok m.name
        | none => .error (.unknownValue key), t) := by
  simp only [nameOf, StateT.run_bind, StateT.run_get, pure_bind, h]
  cases members.find? (·.value = key) <;> rfl

/-- The table opened for one value answers for the members of the type at hand. -/
theorem nameOfValue_eq (base : IntegerType) (members : List EnumMember) (key : Int64)
    (t : MemberTable) :
    ((converter.nameOfValue (.scalar (.enumeration base members)) key).run t).1 =
      match members.find? (·.value = key) with
      | some m => .ok m.name
      | none => .error (.unknownValue key) := by
  have hhead : List.lookup (↑(t.issued + 1)) ((↑(t.issued + 1), members) :: t.live) =
      some members := List.lookup_cons_self
  have hopen : (converter.openType (.scalar (.enumeration base members))).run t =
      (.ok ↑(t.issued + 1), ⟨t.issued + 1, (↑(t.issued + 1), members) :: t.live⟩) :=
    openType_run base members t
  rw [Converter.nameOfValue_opened key hopen]
  have hname := nameOf_run (t := ⟨t.issued + 1, (↑(t.issued + 1), members) :: t.live⟩) key hhead
  exact congrArg Prod.fst hname

def name? (members : List EnumMember) (value : Cell) : Option String :=
  (enumerationKey? value).bind fun key => (members.find? (·.value = key)).map (·.name)

/-- Names are shown where the members have one, and numbers elsewhere. -/
theorem enumerationText_eq (base : IntegerType) (members : List EnumMember) (value : Cell)
    (t : MemberTable) :
    ((enumerationText (some converter) base members value).run t).1 =
      (name? members value).getD (integerText base value) := by
  cases hkey : enumerationKey? value with
  | none =>
    simp only [enumerationText, name?, hkey]
    rfl
  | some key =>
    have hname := nameOfValue_eq base members key t
    simp only [enumerationText, name?, hkey, StateT.run_bind, Option.bind_some]
    cases hrun : (converter.nameOfValue (.scalar (.enumeration base members)) key).run t with
    | mk answer after =>
      rw [hrun] at hname
      cases hfind : members.find? (·.value = key) with
      | none =>
        simp only [hfind] at hname
        cases hname
        rfl
      | some m =>
        simp only [hfind] at hname
        cases hname
        rfl

theorem converter_faithful : converter.Faithful := by
  intro base members key state name hname
  rw [nameOfValue_eq] at hname
  split at hname
  · rename_i m hfind
    cases hname
    have hvalue := List.find?_some hfind
    exact ⟨m, List.mem_of_find?_eq_some hfind, rfl, of_decide_eq_true hvalue⟩
  · cases hname

end MemberTable

theorem find?_name {members : List EnumMember} (hnames : (members.map (·.name)).Nodup)
    {m : EnumMember} (hm : m ∈ members) :
    members.find? (·.name.toList = m.name.toList) = some m := by
  induction members with
  | nil => cases hm
  | cons head rest ih =>
    rw [List.map_cons, List.nodup_cons] at hnames
    rcases List.mem_cons.mp hm with rfl | hm
    · exact List.find?_cons_of_pos (by simp)
    · have hne : head.name.toList ≠ m.name.toList := by
        intro hsame
        apply hnames.1
        rw [String.toList_inj.mp hsame]
        exact List.mem_map_of_mem hm
      rw [List.find?_cons_of_neg (by simpa using hne)]
      exact ih hnames.2 hm

section Reading

variable {base : IntegerType} {members : List EnumMember} {text : String}

/-- A member's name stands for the member, with or without blanks around it. -/
theorem parseEnumeration_name (hnames : (members.map (·.name)).Nodup) {m : EnumMember}
    (hm : m ∈ members) (htext : Text.trim text.toList = m.name.toList) :
    parseEnumeration base members text = .ok m.value.toInt := by
  rw [parseEnumeration, htext, find?_name hnames hm]

theorem parseEnumeration_number {value : Cell} (h : base.holds value = true)
    (hnone : ∀ m ∈ members, m.name ≠ integerText base value) :
    (parseEnumeration base members (integerText base value)).map (integerCell base.signed) =
      .ok value := by
  have hfind : members.find?
      (·.name.toList = Text.trim (integerText base value).toList) = none := by
    rw [List.find?_eq_none, trim_integerText h]
    intro m hm hname
    exact hnone m hm (String.toList_inj.mp (of_decide_eq_true hname))
  have hread := parseInteger_integerText "enum value" h
  rw [parseEnumeration, hfind]
  cases hnumber : parseInteger (integerText base value) base "enum value" with
  | error fault =>
    rw [hnumber] at hread
    cases hread
  | ok n =>
    rw [hnumber] at hread
    exact hread

end Reading

/-- An enumeration cell shows the numeral of its value, or the name of a member that has it. -/
theorem enumerationText_cases {σ : Type} {names : Option (Converter σ)} {base : IntegerType}
    {members : List EnumMember} {value : Cell} (hnames : ∀ c, names = some c → c.Faithful)
    (state : σ) :
    ((enumerationText names base members value).run state).1 = integerText base value ∨
      ∃ m ∈ members, enumerationKey? value = some m.value ∧
        ((enumerationText names base members value).run state).1 = m.name := by
  cases names with
  | none => exact .inl rfl
  | some c =>
    cases hkey : enumerationKey? value with
    | none =>
      left
      simp only [enumerationText, hkey]
      rfl
    | some key =>
      have hname := hnames c rfl base members key state
      simp only [enumerationText, hkey, StateT.run_bind]
      cases hrun : (c.nameOfValue (.scalar (.enumeration base members)) key).run state with
      | mk answer after =>
        rw [hrun] at hname
        cases answer with
        | error error => exact .inl rfl
        | ok name =>
          rcases hname name rfl with ⟨m, hm, rfl, rfl⟩
          exact .inr ⟨m, hm, rfl, rfl⟩

theorem integerCell_of_key {base : IntegerType} {value : Cell} {key : Int64}
    (h : base.holds value = true) (hkey : enumerationKey? value = some key) :
    integerCell base.signed key.toInt = value := by
  cases value with
  | int n =>
    cases hkey
    rw [integerCell, if_pos (IntegerType.signed_of_holds_int h), Int64.ofInt_toInt]
  | uint n =>
    simp only [enumerationKey?] at hkey
    split at hkey
    · rename_i hlt
      cases hkey
      rw [integerCell, IntegerType.unsigned_of_holds_uint h, toInt_toInt64 hlt, ofInt_toNat]
      rfl
    · cases hkey
  | _ => cases hkey

/-- An enumeration cell reads back from its text, by value or by name. -/
theorem parseEnumeration_enumerationText {σ : Type} {names : Option (Converter σ)}
    {base : IntegerType} {members : List EnumMember} {value : Cell}
    (hconverter : ∀ c, names = some c → c.Faithful)
    (htype : (Scalar.enumeration base members).isExact = true) (h : base.holds value = true)
    (state : σ) :
    let text := ((enumerationText names base members value).run state).1
    Token.isWord text.toList = true ∧
      (parseEnumeration base members text).map (integerCell base.signed) = .ok value := by
  simp only [Scalar.isExact, Bool.and_eq_true, decide_eq_true_eq, List.all_eq_true,
    Bool.not_eq_true'] at htype
  rcases htype with ⟨⟨-, hnames⟩, hwords⟩
  intro text
  rcases enumerationText_cases hconverter state with hshown | ⟨m, hm, hkey, hshown⟩
  · have htext : text = integerText base value := hshown
    rw [htext]
    refine ⟨isWord_integerText h, parseEnumeration_number h fun m hm hname => ?_⟩
    have hnumeral := (hwords m hm).2
    rw [hname, isNumeral_integerText h] at hnumeral
    cases hnumeral
  · have htext : text = m.name := hshown
    have hword := (hwords m hm).1
    rw [htext, parseEnumeration_name hnames hm (trim_of_isWord hword)]
    exact ⟨hword, congrArg Except.ok (integerCell_of_key h hkey)⟩

end DatasetGrid
