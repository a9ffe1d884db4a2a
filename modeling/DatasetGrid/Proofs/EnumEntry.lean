import DatasetGrid.Editor.Edit
import DatasetGrid.Editor.Render
import DatasetGrid.Proofs.EnumNames

/-! # Entering an enumeration value as it is shown

An edit is looked up among the names of the members before it is read as a number. So the number
that a cell shows is read as that number unless a member has it for its name, and as that member
otherwise. A name that a cell shows is read as its member, if no blanks stand at its ends: those do
not reach the look-up.
-/
namespace DatasetGrid

open Text

def EnumMember.stored (base : IntegerType) (m : EnumMember) : Cell :=
  integerCell base.signed m.value.toInt

/-- What becomes of a text that shows a value: a member with this name takes it, and where no other
value's member does, it is read as the value. -/
structure TakenAsShown (base : IntegerType) (members : List EnumMember) (value : Cell)
    (text : String) : Prop where
  named : ∀ m ∈ members, m.name = text →
    (Editor.scalar (.enumeration base members)).parse 0 text = .ok (m.stored base)
  unshared : (∀ m ∈ members, m.name = text → m.stored base = value) →
    (Editor.scalar (.enumeration base members)).parse 0 text = .ok value

section Shown

variable {base : IntegerType} {members : List EnumMember} {value : Cell} {text : String}

theorem parse_of_name (hnames : (members.map (·.name)).Nodup)
    (htrimmed : trim text.toList = text.toList) {m : EnumMember} (hm : m ∈ members)
    (hname : m.name = text) :
    (Editor.scalar (.enumeration base members)).parse 0 text = .ok (m.stored base) := by
  rw [Editor.parse, Scalar.parse,
    parseEnumeration_name hnames hm (htrimmed.trans (congrArg String.toList hname.symm))]
  rfl

theorem takenAsShown_number (hnames : (members.map (·.name)).Nodup) (h : base.holds value = true) :
    TakenAsShown base members value (integerText base value) where
  named _ := parse_of_name hnames (trim_integerText h)
  unshared hown := by
    by_cases hnone : ∀ m ∈ members, m.name ≠ integerText base value
    · exact parseEnumeration_number h hnone
    · simp only [ne_eq, not_forall, not_not] at hnone
      obtain ⟨m, hm, hname⟩ := hnone
      rw [parse_of_name hnames (trim_integerText h) hm hname, hown m hm hname]

theorem parse_of_name? (hnames : (members.map (·.name)).Nodup) (h : base.holds value = true)
    {name : String} (hname : MemberTable.name? members value = some name)
    (htrimmed : trim name.toList = name.toList) :
    (Editor.scalar (.enumeration base members)).parse 0 name = .ok value := by
  simp only [MemberTable.name?, Option.bind_eq_some_iff, Option.map_eq_some_iff] at hname
  obtain ⟨key, hkey, m, hfind, rfl⟩ := hname
  have hvalue := List.find?_some hfind
  obtain rfl : m.value = key := of_decide_eq_true hvalue
  rw [parse_of_name hnames htrimmed (List.mem_of_find?_eq_some hfind) rfl, EnumMember.stored,
    integerCell_of_key h hkey]

end Shown

/-- The number of a value is taken as the value where no other value's member has it for its name,
whether names are shown or not. A name that is shown is taken as the value, if no blanks stand at
its ends. -/
theorem enumeration_reenters {base : IntegerType} {members : List EnumMember}
    (hnames : (members.map (·.name)).Nodup) {value : Cell} (h : base.holds value = true)
    (format : Number.NumberFormat) :
    (∀ (σ : Type) (state : σ), TakenAsShown base members value
      (((Editor.scalar (.enumeration base members)).render ⟨format, none⟩ 0 value).run state).1) ∧
    ∀ table : MemberTable,
      let text := (((Editor.scalar (.enumeration base members)).render
        ⟨format, some MemberTable.converter⟩ 0 value).run table).1
      (MemberTable.name? members value = none → TakenAsShown base members value text) ∧
      ∀ name, MemberTable.name? members value = some name →
        text = name ∧ (trim name.toList = name.toList →
          (Editor.scalar (.enumeration base members)).parse 0 text = .ok value) := by
  refine ⟨fun σ state => takenAsShown_number hnames h, fun table => ?_⟩
  intro text
  have htext : text = (MemberTable.name? members value).getD (integerText base value) :=
    MemberTable.enumerationText_eq base members value table
  rw [htext]
  constructor
  · intro hnone
    rw [hnone]
    exact takenAsShown_number hnames h
  · intro name hname
    rw [hname]
    exact ⟨rfl, parse_of_name? hnames h hname⟩

/-- Levels of a tank, where the name of one is the number of another. -/
def tankLevels : List EnumMember :=
  [⟨"1", 0⟩, ⟨"full", 2⟩]

/-- The number without a member of its own is taken as the member it names. -/
theorem enumeration_reenters_tank :
    (Editor.scalar (.enumeration ⟨1, false⟩ tankLevels)).parse 0 "full" = .ok (.uint 2) ∧
    (Editor.scalar (.enumeration ⟨1, false⟩ tankLevels)).parse 0 "7" = .ok (.uint 7) ∧
    (Editor.scalar (.enumeration ⟨1, false⟩ tankLevels)).parse 0 "1" = .ok (.uint 0) := by
  have hnames : (tankLevels.map (·.name)).Nodup := by decide
  obtain ⟨-, hfull⟩ :=
    enumeration_reenters hnames (show IntegerType.holds ⟨1, false⟩ (.uint 2) = true by rfl) .plain
  obtain ⟨hseven, -⟩ :=
    enumeration_reenters hnames (show IntegerType.holds ⟨1, false⟩ (.uint 7) = true by rfl) .plain
  obtain ⟨hone, -⟩ :=
    enumeration_reenters hnames (show IntegerType.holds ⟨1, false⟩ (.uint 1) = true by rfl) .plain
  have hunnamed : ∀ m ∈ tankLevels, m.name ≠ "7" := by decide
  obtain ⟨-, hread⟩ := (hfull .empty).2 "full" (by rfl)
  refine ⟨hread (by decide), ?_, ?_⟩
  · exact (hseven Unit ()).unshared fun m hm hname => absurd hname (hunnamed m hm)
  · exact (hone Unit ()).named ⟨"1", 0⟩ List.mem_cons_self rfl

/-- Levels under careless names: one is a number, one starts with a blank. -/
def gaugeLevels : List EnumMember :=
  [⟨"1", 0⟩, ⟨" A", 2⟩]

/-- The number one is taken as the member of that name, and the name with the blank is not found. -/
theorem gaugeLevels_misread :
    (gaugeLevels.map (·.name)).Nodup ∧ (gaugeLevels.map (·.value)).Nodup ∧
    (∀ m ∈ gaugeLevels, 0 ≤ m.value.toInt ∧ m.value.toInt ≤ 255) ∧
    (((Editor.scalar (.enumeration ⟨1, false⟩ gaugeLevels)).render Display.plain 0
      (.uint 1)).run ()).1 = "1" ∧
    (Editor.scalar (.enumeration ⟨1, false⟩ gaugeLevels)).parse 0 "1" = .ok (.uint 0) ∧
    (((Editor.scalar (.enumeration ⟨1, false⟩ gaugeLevels)).render
      ⟨.plain, some MemberTable.converter⟩ 0 (.uint 2)).run .empty).1 = " A" ∧
    (Editor.scalar (.enumeration ⟨1, false⟩ gaugeLevels)).parse 0 " A" =
      .error (.unknownEnumValue " A") :=
  ⟨by decide, by decide, by decide, rfl, rfl, rfl, rfl⟩

end DatasetGrid
