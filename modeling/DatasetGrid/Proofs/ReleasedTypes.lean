import DatasetGrid.Proofs.Handles
import DatasetGrid.Proofs.TableSteps

/-! # Types that are opened to show a cell

To show a cell, a type is opened for each enumeration value that wants a name, asked once, and
closed, before another is opened. How closing ends is of no account to the text, and without a name
the text is that of the values. A member table so has the same types open before and after.
-/
namespace DatasetGrid

open Converter

namespace Converter

def Call.opens : Call → Bool
  | .opened _ (.ok _) => true
  | _ => false

def Call.givesName : Call → Bool
  | .named _ _ (.ok _) => true
  | _ => false

/-- Blocks of calls: an opening that fails, or one that succeeds with one look-up and one close of
its handle. -/
inductive Bracketed : List Call → Prop
  | nil : Bracketed []
  | unopened (type : Datatype) (error : ConversionError) {later : List Call} : Bracketed later →
      Bracketed (.opened type (.error error) :: later)
  | looked (type : Datatype) (handle : Handle) (value : Int64)
      (name : Except ConversionError String) (outcome : Except ConversionError Unit)
      {later : List Call} : Bracketed later →
        Bracketed (.opened type (.ok handle) :: .named handle value name ::
          .closed handle outcome :: later)

theorem Bracketed.append {past later : List Call} (h : Bracketed past) (hlater : Bracketed later) :
    Bracketed (past ++ later) := by
  induction h with
  | nil => exact hlater
  | unopened type error _ ih => exact .unopened type error ih
  | looked type handle value name outcome _ ih => exact .looked type handle value name outcome ih

/-- Without an opening that succeeds nothing is looked up. -/
theorem Bracketed.givesName_eq_false {past : List Call} (h : Bracketed past)
    (hopens : ∀ call ∈ past, call.opens = false) : ∀ call ∈ past, call.givesName = false := by
  induction h with
  | nil => simp
  | unopened type error _ ih =>
    intro call hcall
    rcases List.mem_cons.mp hcall with rfl | hcall
    · rfl
    · exact ih (fun call hcall => hopens call (List.mem_cons_of_mem _ hcall)) call hcall
  | looked type handle value name outcome _ ih =>
    have hopened := hopens _ List.mem_cons_self
    cases hopened

variable {σ τ : Type}

theorem Guarded.bracketed {type : Datatype} {key : Int64} {past : List Call}
    {answer : Except ConversionError (Except ConversionError String)}
    (h : Guarded type (fun handle calls name => calls = [.named handle key name]) past answer) :
    Bracketed past := by
  cases h with
  | unopened error => exact .unopened type error .nil
  | used handle outcome hinner =>
    cases hinner
    exact .looked type handle key _ outcome .nil

theorem Guarded.exists_error {type : Datatype} {key : Int64} {past : List Call}
    {answer : Except ConversionError (Except ConversionError String)}
    (h : Guarded type (fun handle calls name => calls = [.named handle key name]) past answer)
    (hnameless : ∀ call ∈ past, call.givesName = false) :
    ∃ error, answer.bind id = .error error := by
  cases h with
  | unopened error => exact ⟨error, rfl⟩
  | @used handle outcome inner name hinner =>
    cases hinner
    have hnamed := hnameless (.named handle key name) (by simp)
    cases name with
    | error error => exact ⟨error, rfl⟩
    | ok name => cases hnamed

/-- Two converters that answer alike from states that are alike, but for closing, whose answers
may differ. -/
structure AlikeButClosing (alike : σ → τ → Prop) (c : Converter σ) (c' : Converter τ) : Prop where
  openType : ∀ type state other, alike state other →
    ((c.openType type).run state).1 = ((c'.openType type).run other).1 ∧
      alike ((c.openType type).run state).2 ((c'.openType type).run other).2
  nameOf : ∀ handle value state other, alike state other →
    ((c.nameOf handle value).run state).1 = ((c'.nameOf handle value).run other).1 ∧
      alike ((c.nameOf handle value).run state).2 ((c'.nameOf handle value).run other).2
  closeType : ∀ handle state other, alike state other →
    alike ((c.closeType handle).run state).2 ((c'.closeType handle).run other).2

end Converter

section Relations

variable {σ τ : Type}

/-- From states that are alike the results are the same, and the states afterwards are alike. -/
def simulating (alike : σ → τ → Prop) : ActionRelation σ τ :=
  fun _ act act' => ∀ state other, alike state other →
    (act.run state).1 = (act'.run other).1 ∧ alike (act.run state).2 (act'.run other).2

theorem simulating_isCongruence (alike : σ → τ → Prop) : (simulating alike).IsCongruence where
  pure _ _ _ h := ⟨rfl, h⟩
  bind hact hnext state other h := by
    rcases hact state other h with ⟨hsame, halike⟩
    rw [run_bind, run_bind, hsame]
    exact hnext _ _ _ halike

theorem nameOfValue_simulating {alike : σ → τ → Prop} {c : Converter σ} {c' : Converter τ}
    (h : AlikeButClosing alike c c') (type : Datatype) (key : Int64) :
    simulating alike _ (c.nameOfValue type key) (c'.nameOfValue type key) := by
  intro state other hstates
  rcases h.openType type state other hstates with ⟨hanswer, hopened⟩
  cases hopen : (c.openType type).run state with
  | mk answer opened =>
    cases hopen' : (c'.openType type).run other with
    | mk answer' opened' =>
      rw [hopen, hopen'] at hanswer hopened
      cases hanswer
      cases answer with
      | error error =>
        rw [nameOfValue_unopened key hopen, nameOfValue_unopened key hopen']
        exact ⟨rfl, hopened⟩
      | ok handle =>
        rw [nameOfValue_opened key hopen, nameOfValue_opened key hopen']
        rcases h.nameOf handle key opened opened' hopened with ⟨hname, hnamed⟩
        exact ⟨hname, h.closeType handle _ _ hnamed⟩

/-- The result of the first action is that of the second, unless one of its calls gives a name. -/
def unlessNamed : ActionRelation (σ × List (Step σ)) τ :=
  fun _ act act' => ∀ state log other, ∃ steps, (act.run (state, log)).2.2 = log ++ steps ∧
    ((∀ call ∈ calls steps, call.givesName = false) →
      (act.run (state, log)).1 = (act'.run other).1)

theorem unlessNamed_isCongruence : (unlessNamed : ActionRelation (σ × _) τ).IsCongruence where
  pure _ _ log _ := ⟨[], (List.append_nil log).symm, fun _ => rfl⟩
  bind {_ _ act act' next next'} hact hnext state log other := by
    rcases hact state log other with ⟨steps, hlog, hsame⟩
    rcases hnext (act.run (state, log)).1 (act.run (state, log)).2.1 (log ++ steps)
      (act'.run other).2 with ⟨later, hlater, hnames⟩
    have hafter : (act.run (state, log)).2 = ((act.run (state, log)).2.1, log ++ steps) := by
      rw [← hlog]
    rw [← hafter] at hlater hnames
    refine ⟨steps ++ later, ?_, fun hnameless => ?_⟩
    · rw [run_bind, hlater, List.append_assoc]
    · rw [calls_append] at hnameless
      rw [run_bind, run_bind, hnames fun call hcall => hnameless call
        (List.mem_append_right _ hcall), hsame fun call hcall => hnameless call
        (List.mem_append_left _ hcall)]

theorem enumerationText_unlessNamed (c : Converter σ) (base : IntegerType)
    (members : List EnumMember) (value : Cell) :
    unlessNamed _ (enumerationText (some c.traced) base members value)
      (enumerationText (none : Option (Converter τ)) base members value) := by
  cases hkey : enumerationKey? value with
  | none =>
    simp only [enumerationText, hkey]
    exact unlessNamed_isCongruence.pure _
  | some key =>
    intro state log other
    rcases c.nameOfValue_recorded (.scalar (.enumeration base members)) key state log with
      ⟨steps, hrun, answer, hname, hcalls⟩
    simp only [enumerationText, hkey]
    refine ⟨steps, ?_, fun hnameless => ?_⟩
    · rw [run_bind, hrun]
      split <;> rfl
    · rcases hcalls.exists_error hnameless with ⟨error, herror⟩
      rw [run_bind, hrun, hname, herror]
      rfl

end Relations

namespace Editor

variable {σ : Type}

/-- The calls of a converter that showing a cell takes. -/
def callsOf (e : Editor) (format : Number.NumberFormat) (column : Nat) (value : Cell)
    (c : Converter σ) (state : σ) : List Call :=
  calls ((e.render ⟨format, some c.traced⟩ column value).run (state, [])).2.2

structure ReleasesTypes (e : Editor) (format : Number.NumberFormat) (column : Nat) (value : Cell)
    (c : Converter σ) (state : σ) : Prop where
  /-- The calls are those behind the text. -/
  traced : ((e.render ⟨format, some c.traced⟩ column value).run (state, [])).1 =
    ((e.render ⟨format, some c⟩ column value).run state).1 ∧
      ((e.render ⟨format, some c.traced⟩ column value).run (state, [])).2.1 =
        ((e.render ⟨format, some c⟩ column value).run state).2
  bracketed : Bracketed (e.callsOf format column value c state)
  /-- Nothing depends on how closing ends. -/
  closing : ∀ {τ : Type} (c' : Converter τ) (alike : σ → τ → Prop),
    AlikeButClosing alike c c' → ∀ other, alike state other →
      ((e.render ⟨format, some c'⟩ column value).run other).1 =
        ((e.render ⟨format, some c⟩ column value).run state).1
  /-- Where no type opens, or no name is found, the values show. -/
  fallback : (∀ call ∈ e.callsOf format column value c state, call.opens = false) ∨
    (∀ call ∈ e.callsOf format column value c state, call.givesName = false) →
      ((e.render ⟨format, some c⟩ column value).run state).1 =
        ((e.render ⟨format, (none : Option (Converter Unit))⟩ column value).run ()).1

theorem render_recording (e : Editor) (format : Number.NumberFormat) (column : Nat) (value : Cell)
    (c : Converter σ) : recording Bracketed _ (e.render ⟨format, some c⟩ column value)
      (e.render ⟨format, some c.traced⟩ column value) := by
  have hcongruence := recording_isCongruence (σ := σ) Bracketed.nil Bracketed.append
  refine hcongruence.render rfl (hcongruence.enumeration fun type key state log => ?_) e column
    value
  rcases c.nameOfValue_recorded type key state log with ⟨steps, hrun, answer, -, hcalls⟩
  exact ⟨steps, hrun, hcalls.bracketed⟩

theorem releasesTypes (e : Editor) (format : Number.NumberFormat) (column : Nat) (value : Cell)
    (c : Converter σ) (state : σ) : e.ReleasesTypes format column value c state := by
  rcases e.render_recording format column value c state [] with ⟨steps, hrun, hcalls⟩
  rw [List.nil_append] at hrun
  have hbracketed : Bracketed (e.callsOf format column value c state) := by
    rw [callsOf, hrun]
    exact hcalls
  refine ⟨by rw [hrun]; exact ⟨rfl, rfl⟩, hbracketed, ?_, ?_⟩
  · intro τ c' alike halike other hstates
    have hcongruence := simulating_isCongruence alike
    have hsame : simulating alike _ (e.render ⟨format, some c⟩ column value)
        (e.render ⟨format, some c'⟩ column value) :=
      hcongruence.render rfl (hcongruence.enumeration (nameOfValue_simulating halike)) e column
        value
    exact (hsame state other hstates).1.symm
  · intro hfailed
    have hnameless : ∀ call ∈ e.callsOf format column value c state, call.givesName = false := by
      rcases hfailed with hopens | hnameless
      · exact hbracketed.givesName_eq_false hopens
      · exact hnameless
    have hcongruence : (unlessNamed : ActionRelation (σ × List (Step σ)) Unit).IsCongruence :=
      unlessNamed_isCongruence
    have hplain : unlessNamed _ (e.render ⟨format, some c.traced⟩ column value)
        (e.render ⟨format, (none : Option (Converter Unit))⟩ column value) :=
      hcongruence.render rfl (enumerationText_unlessNamed c) e column value
    rcases hplain state [] () with ⟨added, hadded, hsame⟩
    rw [callsOf, hadded, List.nil_append] at hnameless
    rw [← hsame hnameless, hrun]

end Editor

namespace MemberTable

/-- A table that requests may lead to, with exactly these types open. -/
structure Holds (live : List (Handle × List EnumMember)) (t : MemberTable) : Prop where
  same : t.live = live
  reached : ∃ requests, ((askAll converter requests).run .empty).2 = t

theorem Holds.le_issued {live : List (Handle × List EnumMember)} {t : MemberTable}
    (h : Holds live t) {entry : Handle × List EnumMember} (hentry : entry ∈ t.live) :
    entry.1 ≤ t.issued := by
  rcases h.reached with ⟨requests, rfl⟩
  obtain ⟨steps, hrun, -⟩ := converter.askAll_recorded requests .empty []
  have htracks := (askAll_kept requests).tracks
  rw [hrun] at htracks
  have hopen := (htracks.live entry.1 entry.2).mp hentry
  exact (htracks.bounded _ (mem_issuedIn_of_openFor hopen)).2

/-- The type opened for one name is the only one closed again. -/
theorem nameOfValue_live {t : MemberTable} (h : ∀ entry ∈ t.live, entry.1 ≤ t.issued)
    (type : Datatype) (key : Int64) : ((converter.nameOfValue type key).run t).2.live = t.live := by
  by_cases htype : type.typeClass = .enum
  · rcases exists_of_typeClass_eq_enum htype with ⟨base, members, rfl⟩
    let opened : MemberTable := ⟨t.issued + 1, (↑(t.issued + 1), members) :: t.live⟩
    have hopen : (converter.openType (.scalar (.enumeration base members))).run t =
        (.ok ↑(t.issued + 1), opened) := openType_run base members t
    have hlookup : opened.live.lookup ↑(t.issued + 1) = some members := List.lookup_cons_self
    have hnamed : ((converter.nameOf ↑(t.issued + 1) key).run opened).2 = opened :=
      congrArg Prod.snd (nameOf_run key hlookup)
    have hclosed : ((converter.closeType ↑(t.issued + 1)).run opened).2 =
        { opened with live := opened.live.filter (·.1 ≠ ↑(t.issued + 1)) } :=
      congrArg Prod.snd (closeType_live hlookup)
    have hothers : ∀ entry ∈ t.live, entry.1 ≠ ↑(t.issued + 1) :=
      fun entry hentry => Int.ne_of_lt (Int.lt_add_one_of_le (h entry hentry))
    rw [nameOfValue_opened key hopen]
    dsimp only
    rw [hnamed, hclosed, List.filter_cons_of_neg (by simp), List.filter_eq_self]
    exact fun entry hentry => decide_eq_true (hothers entry hentry)
  · have hopen : (converter.openType type).run t = _ := openType_notEnum htype t
    rw [nameOfValue_unopened key hopen]

theorem nameOfValue_holds (live : List (Handle × List EnumMember)) (type : Datatype)
    (key : Int64) : keeping (Holds live) _ (converter.nameOfValue type key)
      (converter.nameOfValue type key) := by
  intro t h
  refine ⟨(nameOfValue_live (fun _ => h.le_issued) type key).trans h.same, ?_⟩
  rcases h.reached with ⟨requests, rfl⟩
  refine ⟨requests ++ [.nameOfValue type key], ?_⟩
  rw [askAll_append]
  rfl

theorem enumerationText_holds (live : List (Handle × List EnumMember))
    {names : Option (Converter MemberTable)} (h : ∀ c, names = some c → c = converter)
    (base : IntegerType) (members : List EnumMember) (value : Cell) :
    keeping (Holds live) _ (enumerationText names base members value)
      (enumerationText names base members value) := by
  have hcongruence := keeping_isCongruence (Holds live)
  cases names with
  | none => exact hcongruence.pure _
  | some c =>
    rw [h c rfl]
    exact hcongruence.enumeration (nameOfValue_holds live) base members value

theorem render_holds (live : List (Handle × List EnumMember)) {d : Display MemberTable}
    (h : ∀ c, d.names = some c → c = converter) (e : Editor) (column : Nat) (value : Cell) :
    keeping (Holds live) _ (e.render d column value) (e.render d column value) :=
  (keeping_isCongruence _).render rfl (enumerationText_holds live h) e column value

theorem displayText_holds {σ : Type} [Source σ] (live : List (Handle × List EnumMember))
    {t : Table MemberTable} (h : t.converter = converter) (source : σ) (row column : Nat) :
    keeping (Holds live) _ (t.displayText source row column)
      (t.displayText source row column) := by
  have hnames : ∀ c, t.display.names = some c → c = converter :=
    fun c hc => (Table.eq_converter hc).trans h
  exact (keeping_isCongruence _).displayText (enumerationText_holds live hnames) source row column

theorem setData_holds {σ : Type} [Source σ] {live : List (Handle × List EnumMember)}
    {t : Table MemberTable} (h : t.converter = converter) {s : TableState σ MemberTable}
    (hs : Holds live s.names) (row column : Nat) (text : String) :
    Holds live (t.setData s row column text).2.names := by
  rcases t.names_setData s row column text with hnames | hnames
  · rwa [hnames]
  · rw [hnames]
    exact displayText_holds live h s.source row column s.names hs

end MemberTable

/-- Showing a cell brackets its look-ups, whatever the converter does. So whatever a member table
has been asked, it has the same types open after a cell is shown, and after anything done to a
table that uses it. -/
theorem Editor.render_releases (e : Editor) (format : Number.NumberFormat) (column : Nat)
    (value : Cell) :
    (∀ {σ : Type} (c : Converter σ) (state : σ), e.ReleasesTypes format column value c state) ∧
    ∀ requests : List Request,
      let names := ((askAll MemberTable.converter requests).run .empty).2
      MemberTable.Holds names.live
        ((e.render ⟨format, some MemberTable.converter⟩ column value).run names).2 ∧
      ∀ {σ : Type} [Source σ] (source : σ) (dirty : Bool) (other : Table MemberTable),
        let t := { other with converter := MemberTable.converter }
        let s : TableState σ MemberTable := ⟨source, names, dirty⟩
        (∀ row column,
          MemberTable.Holds names.live ((t.displayText source row column).run names).2) ∧
        (∀ row column text,
          MemberTable.Holds names.live (t.setData s row column text).2.names) ∧
        MemberTable.Holds names.live (t.writeOut s).2.names := by
  refine ⟨fun c state => e.releasesTypes format column value c state, fun requests => ?_⟩
  intro names
  have hnames : MemberTable.Holds names.live names := ⟨rfl, requests, rfl⟩
  refine ⟨?_, fun source dirty other => ?_⟩
  · refine MemberTable.render_holds names.live ?_ e column value names hnames
    rintro c ⟨⟩
    rfl
  · intro t s
    refine ⟨fun row column => ?_, fun row column text => ?_, ?_⟩
    · exact MemberTable.displayText_holds names.live (t := t) rfl source row column names hnames
    · exact MemberTable.setData_holds (t := t) (s := s) rfl hnames row column text
    · rw [t.names_writeOut s]
      exact hnames

/-- Two colors side by side, the second without a name. -/
example :
    let color : Datatype := .scalar (.enumeration ⟨1, true⟩ [⟨"RED", 1⟩])
    (Editor.build .all (.array color [2])).callsOf .plain 0 (.array [.int 1, .int 5])
      MemberTable.converter .empty =
    [.opened color (.ok 1), .named 1 1 (.ok "RED"), .closed 1 (.ok ()),
      .opened color (.ok 2), .named 2 5 (.error (.unknownValue 5)), .closed 2 (.ok ())] := rfl

end DatasetGrid
