import DatasetGrid.Proofs.ConverterCalls
import DatasetGrid.Proofs.EnumNames

/-! # Handles of the member table

The calls of a member table make up its history. The history tells which handles are open, and for
which members: those given out, up to the first close of them. Whatever a table is asked, its
entries are the open handles, and each answer follows from the history before it. No handle is
given out twice, so a closed one stays closed.
-/
namespace DatasetGrid

open Converter

namespace MemberTable

def issuedIn (past : List Call) : List Handle :=
  past.filterMap fun
    | .opened _ (.ok handle) => some handle
    | _ => none

/-- The handle has been given out for the members, and not been closed since. -/
def OpenFor (past : List Call) (handle : Handle) (members : List EnumMember) : Prop :=
  ∃ earlier base later,
    past = earlier ++ .opened (.scalar (.enumeration base members)) (.ok handle) :: later ∧
      ∀ answer, .closed handle answer ∉ later

def IsOpen (past : List Call) (handle : Handle) : Prop :=
  ∃ members, OpenFor past handle members

/-- The calls that may come next, with their answers. -/
inductive Follows (past : List Call) : Call → Prop
  | opened (base : IntegerType) (members : List EnumMember) (handle : Handle) :
      handle ∉ issuedIn past →
        Follows past (.opened (.scalar (.enumeration base members)) (.ok handle))
  | notEnum (type : Datatype) : type.typeClass ≠ .enum →
      Follows past (.opened type (.error (.notEnum type.typeClass)))
  | named {handle : Handle} {members : List EnumMember} {value : Int64} {m : EnumMember} :
      OpenFor past handle members → members.find? (·.value = value) = some m →
        Follows past (.named handle value (.ok m.name))
  | unknown {handle : Handle} {members : List EnumMember} {value : Int64} :
      OpenFor past handle members → members.find? (·.value = value) = none →
        Follows past (.named handle value (.error (.unknownValue value)))
  | unnamed {handle : Handle} (value : Int64) : ¬ IsOpen past handle →
      Follows past (.named handle value (.error (.invalidHandle handle)))
  | closed {handle : Handle} : IsOpen past handle → Follows past (.closed handle (.ok ()))
  | unclosed {handle : Handle} : ¬ IsOpen past handle →
      Follows past (.closed handle (.error (.invalidHandle handle)))

section History

variable {past : List Call} {call : Call} {handle : Handle} {members : List EnumMember}

theorem concat_eq_split {α : Type} {xs past later : List α} {x y : α}
    (h : xs ++ [x] = past ++ y :: later) :
    (past = xs ∧ y = x ∧ later = []) ∨ ∃ rest, later = rest ++ [x] ∧ xs = past ++ y :: rest := by
  rcases List.eq_nil_or_concat later with rfl | ⟨rest, z, rfl⟩
  · rcases List.append_inj' h rfl with ⟨rfl, hlast⟩
    cases hlast
    exact .inl ⟨rfl, rfl, rfl⟩
  · rw [List.concat_eq_append, ← List.cons_append, ← List.append_assoc] at h
    rcases List.append_inj' h rfl with ⟨rfl, hlast⟩
    cases hlast
    exact .inr ⟨rest, List.concat_eq_append, rfl⟩

/-- One call opens a handle, another closes it, and all others leave it as it was. -/
theorem openFor_concat : OpenFor (past ++ [call]) handle members ↔
    (∃ base, call = .opened (.scalar (.enumeration base members)) (.ok handle)) ∨
      (OpenFor past handle members ∧ ∀ answer, call ≠ .closed handle answer) := by
  constructor
  · rintro ⟨earlier, base, later, hpast, hclosed⟩
    rcases concat_eq_split hpast with ⟨-, hcall, -⟩ | ⟨rest, rfl, rfl⟩
    · exact .inl ⟨base, hcall.symm⟩
    · refine .inr ⟨⟨earlier, base, rest, rfl, fun answer hin => ?_⟩, fun answer hcall => ?_⟩
      · exact hclosed answer (List.mem_append_left _ hin)
      · exact hclosed answer (by simp [hcall])
  · rintro (⟨base, rfl⟩ | ⟨⟨earlier, base, later, rfl, hclosed⟩, hcall⟩)
    · exact ⟨past, base, [], rfl, by simp⟩
    · refine ⟨earlier, base, later ++ [call], by simp, fun answer hin => ?_⟩
      rcases List.mem_append.mp hin with hin | hin
      · exact hclosed answer hin
      · exact hcall answer (List.mem_singleton.mp hin).symm

theorem issuedIn_append (past later : List Call) :
    issuedIn (past ++ later) = issuedIn past ++ issuedIn later :=
  List.filterMap_append

theorem mem_issuedIn_of_openFor (h : OpenFor past handle members) : handle ∈ issuedIn past := by
  rcases h with ⟨earlier, base, later, rfl, -⟩
  simp [issuedIn]

end History

/-- The table after a history: it has counted the openings and has the open handles. -/
structure Tracks (t : MemberTable) (past : List Call) : Prop where
  count : (issuedIn past).length = t.issued
  bounded : ∀ handle ∈ issuedIn past, 0 < handle ∧ handle ≤ t.issued
  live : ∀ handle members, (handle, members) ∈ t.live ↔ OpenFor past handle members
  nodup : (t.live.map (·.1)).Nodup

namespace Tracks

variable {t : MemberTable} {past : List Call} {call : Call} {handle : Handle}
  {members : List EnumMember}

theorem empty : Tracks MemberTable.empty [] := by
  constructor <;> simp [MemberTable.empty, issuedIn, OpenFor]

theorem isOpen_iff (h : Tracks t past) : IsOpen past handle ↔ handle ∈ t.live.map (·.1) := by
  simp [IsOpen, ← h.live]

/-- An entry of the table is found by its handle, since no other has the same. -/
theorem lookup_eq_some (h : Tracks t past) :
    t.live.lookup handle = some members ↔ OpenFor past handle members := by
  rw [← h.live, List.lookup_eq_some_iff]
  constructor
  · rintro ⟨before, after, hlive, -⟩
    simp [hlive]
  · intro hin
    rcases List.append_of_mem hin with ⟨before, after, hlive⟩
    have hnodup := h.nodup
    rw [hlive, List.map_append, List.nodup_append] at hnodup
    refine ⟨before, after, hlive, fun entry hentry => ?_⟩
    have hne := hnodup.2.2 entry.1 (List.mem_map_of_mem hentry) handle (by simp)
    simpa using Ne.symm hne

theorem lookup_eq_none (h : Tracks t past) :
    t.live.lookup handle = none ↔ ¬ IsOpen past handle := by
  simp [IsOpen, ← h.lookup_eq_some, Option.eq_none_iff_forall_ne_some]

theorem fresh (h : Tracks t past) : (↑(t.issued + 1) : Handle) ∉ issuedIn past := by
  intro hin
  have hle : ((t.issued + 1 : Nat) : Int) ≤ t.issued := (h.bounded _ hin).2
  omega

theorem idle (h : Tracks t past) (hopened : ∀ type handle, call ≠ .opened type (.ok handle))
    (hclosed : ∀ handle answer, IsOpen past handle → call ≠ .closed handle answer) :
    Tracks t (past ++ [call]) := by
  have hissued : issuedIn (past ++ [call]) = issuedIn past := by
    rw [issuedIn_append]
    cases call with
    | opened type answer =>
      cases answer with
      | error error => simp [issuedIn]
      | ok handle => exact absurd rfl (hopened type handle)
    | _ => simp [issuedIn]
  refine ⟨by rw [hissued, h.count], by rw [hissued]; exact h.bounded, fun handle members => ?_,
    h.nodup⟩
  rw [h.live, openFor_concat]
  constructor
  · exact fun hopen => .inr ⟨hopen, fun answer => hclosed handle answer ⟨members, hopen⟩⟩
  · rintro (⟨base, hcall⟩ | ⟨hopen, -⟩)
    · exact absurd hcall (hopened _ handle)
    · exact hopen

theorem opened (h : Tracks t past) (base : IntegerType) (members : List EnumMember) :
    Tracks ⟨t.issued + 1, (↑(t.issued + 1), members) :: t.live⟩
      (past ++ [.opened (.scalar (.enumeration base members)) (.ok ↑(t.issued + 1))]) := by
  refine ⟨?_, ?_, fun handle others => ?_, ?_⟩
  · rw [issuedIn_append, List.length_append, h.count]
    rfl
  · intro (handle : Int) hin
    change 0 < handle ∧ handle ≤ ((t.issued + 1 : Nat) : Int)
    rw [issuedIn_append, List.mem_append] at hin
    rcases hin with hin | hin
    · have hbounds : (0 : Int) < handle ∧ handle ≤ (t.issued : Int) := h.bounded handle hin
      omega
    · have hlast : handle = ((t.issued + 1 : Nat) : Int) := by simpa [issuedIn] using hin
      omega
  · rw [openFor_concat, List.mem_cons, h.live]
    simp [eq_comm, and_comm]
  · rw [List.map_cons, List.nodup_cons]
    refine ⟨fun hin => h.fresh ?_, h.nodup⟩
    rcases h.isOpen_iff.mpr hin with ⟨others, hopen⟩
    exact mem_issuedIn_of_openFor hopen

theorem closed (h : Tracks t past) (handle : Handle) (answer : Except ConversionError Unit) :
    Tracks { t with live := t.live.filter (·.1 ≠ handle) } (past ++ [.closed handle answer]) := by
  have hissued : issuedIn (past ++ [.closed handle answer]) = issuedIn past := by
    simp [issuedIn]
  refine ⟨by rw [hissued, h.count], by rw [hissued]; exact h.bounded, fun other members => ?_,
    h.nodup.sublist (List.filter_sublist.map _)⟩
  rw [openFor_concat, List.mem_filter, h.live, decide_eq_true_eq]
  constructor
  · rintro ⟨hopen, hother⟩
    exact .inr ⟨hopen, fun _ hcall => hother (Call.closed.inj hcall).1.symm⟩
  · rintro (⟨base, hcall⟩ | ⟨hopen, hclosed⟩)
    · cases hcall
    · exact ⟨hopen, fun hother => hclosed answer (congrArg (Call.closed · answer) hother.symm)⟩

end Tracks

end MemberTable

def Converter.Call.fails : Call → Bool
  | .opened _ (.error _) | .named _ _ (.error _) | .closed _ (.error _) => true
  | _ => false

/-- The call has nothing to do with the handle, or finds it invalid. -/
def Converter.Call.Refuses (handle : Handle) : Call → Prop
  | .opened _ answer => answer ≠ .ok handle
  | .named asked _ answer => asked = handle → answer = .error (.invalidHandle handle)
  | .closed asked answer => asked = handle → answer = .error (.invalidHandle handle)

namespace MemberTable

/-- A step that follows from the calls before it; it changes nothing by failing, and leaves as many
types open as there are open handles. -/
structure Sound (past : List Call) (step : Step MemberTable) : Prop where
  follows : Follows past step.call
  unchanged : step.call.fails = true → step.after = step.before
  counted : ∃ handles : List Handle, handles.Nodup ∧
    (∀ handle, handle ∈ handles ↔ IsOpen (past ++ [step.call]) handle) ∧
      step.after.openCount = handles.length

def AllSound (steps : List (Step MemberTable)) : Prop :=
  ∀ past step later, steps = past ++ step :: later → Sound (calls past) step

/-- What a traced table keeps: it is the table after the history, each step of which is sound. -/
structure Kept (s : MemberTable × List (Step MemberTable)) : Prop where
  tracks : Tracks s.1 (calls s.2)
  sound : AllSound s.2

section Services

variable {t : MemberTable} {past : List Call} {log : List (Step MemberTable)} {handle : Handle}

theorem Kept.add {after : MemberTable} {call : Call} (h : Kept (t, log))
    (hfollows : Follows (calls log) call) (hfails : call.fails = true → after = t)
    (htracks : Tracks after (calls log ++ [call])) : Kept (after, log ++ [⟨call, t, after⟩]) := by
  refine ⟨by simpa [calls] using htracks, fun past step later hsplit => ?_⟩
  rcases concat_eq_split hsplit with ⟨rfl, rfl, -⟩ | ⟨rest, -, hpast⟩
  · exact ⟨hfollows, hfails, after.live.map (·.1), htracks.nodup,
      fun _ => htracks.isOpen_iff.symm, by simp [openCount]⟩
  · exact h.sound past step rest hpast

theorem exists_of_typeClass_eq_enum {type : Datatype} (h : type.typeClass = .enum) :
    ∃ base members, type = .scalar (.enumeration base members) := by
  cases type with
  | scalar type =>
    cases type with
    | enumeration base members => exact ⟨base, members, rfl⟩
    | _ => cases h
  | _ => cases h

theorem openType_notEnum {type : Datatype} (h : type.typeClass ≠ .enum) (t : MemberTable) :
    (openType type).run t = (.error (.notEnum type.typeClass), t) := by
  cases type with
  | scalar type =>
    cases type with
    | enumeration base members => exact absurd rfl h
    | _ => rfl
  | _ => rfl

theorem nameOf_gone (h : t.live.lookup handle = none) (value : Int64) :
    (nameOf handle value).run t = (.error (.invalidHandle handle), t) := by
  simp only [nameOf, StateT.run_bind, StateT.run_get, pure_bind, h]
  rfl

theorem closeType_gone (h : t.live.lookup handle = none) :
    (closeType handle).run t = (.error (.invalidHandle handle), t) := by
  simp only [closeType, StateT.run_bind, StateT.run_get, pure_bind, h]
  rfl

theorem closeType_live {members : List EnumMember} (h : t.live.lookup handle = some members) :
    (closeType handle).run t = (.ok (), { t with live := t.live.filter (·.1 ≠ handle) }) := by
  simp only [closeType, StateT.run_bind, StateT.run_get, pure_bind, h]
  rfl

theorem openType_keeps (type : Datatype) :
    keeping Kept _ (converter.traced.openType type) (converter.traced.openType type) := by
  rintro ⟨t, log⟩ h
  change Kept ((record (openType type) (.opened type)).run (t, log)).2
  rw [record_run]
  by_cases htype : type.typeClass = .enum
  · rcases exists_of_typeClass_eq_enum htype with ⟨base, members, rfl⟩
    rw [openType_run]
    exact h.add (.opened base members _ h.tracks.fresh) (by rintro ⟨⟩)
      (h.tracks.opened base members)
  · rw [openType_notEnum htype]
    exact h.add (.notEnum type htype) (fun _ => rfl) (h.tracks.idle (by simp) (by simp))

theorem nameOf_keeps (handle : Handle) (value : Int64) :
    keeping Kept _ (converter.traced.nameOf handle value)
      (converter.traced.nameOf handle value) := by
  rintro ⟨t, log⟩ h
  change Kept ((record (nameOf handle value) (.named handle value)).run (t, log)).2
  rw [record_run]
  have hidle (answer : Except ConversionError String) :
      Tracks t (calls log ++ [.named handle value answer]) := h.tracks.idle (by simp) (by simp)
  cases hlookup : t.live.lookup handle with
  | none =>
    rw [nameOf_gone hlookup]
    exact h.add (.unnamed value (h.tracks.lookup_eq_none.mp hlookup)) (fun _ => rfl) (hidle _)
  | some members =>
    have hopen := h.tracks.lookup_eq_some.mp hlookup
    rw [nameOf_run value hlookup]
    cases hfind : members.find? (·.value = value) with
    | none => exact h.add (.unknown hopen hfind) (fun _ => rfl) (hidle _)
    | some m => exact h.add (.named hopen hfind) (fun _ => rfl) (hidle _)

theorem closeType_keeps (handle : Handle) :
    keeping Kept _ (converter.traced.closeType handle) (converter.traced.closeType handle) := by
  rintro ⟨t, log⟩ h
  change Kept ((record (closeType handle) (.closed handle)).run (t, log)).2
  rw [record_run]
  cases hlookup : t.live.lookup handle with
  | none =>
    have hgone := h.tracks.lookup_eq_none.mp hlookup
    rw [closeType_gone hlookup]
    refine h.add (.unclosed hgone) (fun _ => rfl) (h.tracks.idle (by simp) ?_)
    rintro other answer hopen hcall
    exact hgone ((Call.closed.inj hcall).1 ▸ hopen)
  | some members =>
    rw [closeType_live hlookup]
    exact h.add (.closed ⟨members, h.tracks.lookup_eq_some.mp hlookup⟩) (by rintro ⟨⟩)
      (h.tracks.closed handle _)

theorem converter_keeps : Related (keeping Kept) converter.traced converter.traced :=
  ⟨openType_keeps, nameOf_keeps, closeType_keeps⟩

end Services

theorem askAll_kept (requests : List Request) :
    Kept ((askAll converter.traced requests).run (empty, [])).2 := by
  refine (keeping_isCongruence Kept).askAll converter_keeps requests _ ⟨.empty, ?_⟩
  intro past step later hsplit
  simp at hsplit

theorem Follows.not_isOpen {past : List Call} {call : Call} {handle : Handle}
    (h : Follows past call) (hissued : handle ∈ issuedIn past) (hclosed : ¬ IsOpen past handle) :
    ¬ IsOpen (past ++ [call]) handle := by
  rintro ⟨members, hopen⟩
  rcases openFor_concat.mp hopen with ⟨base, rfl⟩ | ⟨hopen, -⟩
  · cases h with
    | opened _ _ _ hfresh => exact hfresh hissued
  · exact hclosed ⟨members, hopen⟩

theorem Follows.refuses {past : List Call} {call : Call} {handle : Handle}
    (h : Follows past call) (hissued : handle ∈ issuedIn past) (hclosed : ¬ IsOpen past handle) :
    call.Refuses handle := by
  cases h with
  | opened base members other hfresh =>
    rintro ⟨⟩
    exact hfresh hissued
  | notEnum type hclass => rintro ⟨⟩
  | named hopen hfind =>
    rintro rfl
    exact absurd ⟨_, hopen⟩ hclosed
  | unknown hopen hfind =>
    rintro rfl
    exact absurd ⟨_, hopen⟩ hclosed
  | unnamed value hgone =>
    rintro rfl
    rfl
  | closed hopen =>
    rintro rfl
    exact absurd hopen hclosed
  | unclosed hgone =>
    rintro rfl
    rfl

theorem AllSound.refuses_gone {past later : List (Step MemberTable)} {handle : Handle}
    (h : AllSound (past ++ later)) (hissued : handle ∈ issuedIn (calls past))
    (hgone : ¬ IsOpen (calls past) handle) : ∀ s ∈ later, s.call.Refuses handle := by
  -- Each step joins the history of the next, where the handle is still issued and not open.
  induction later generalizing past with
  | nil => simp
  | cons s rest ih =>
    have hfollows := (h past s rest rfl).follows
    have hlast : calls (past ++ [s]) = calls past ++ [s.call] := calls_append past [s]
    intro other hother
    rcases List.mem_cons.mp hother with rfl | hother
    · exact hfollows.refuses hissued hgone
    · have hsound : AllSound ((past ++ [s]) ++ rest) := by simpa using h
      refine ih hsound ?_ ?_ other hother
      · rw [hlast, issuedIn_append]
        exact List.mem_append_left _ hissued
      · rw [hlast]
        exact hfollows.not_isOpen hissued hgone

/-- No call after the close of a handle finds it again. -/
theorem AllSound.refuses_closed {past later : List (Step MemberTable)} {step : Step MemberTable}
    (h : AllSound (past ++ step :: later)) {handle : Handle}
    {answer : Except ConversionError Unit} (hissued : handle ∈ issuedIn (calls past))
    (hclose : step.call = .closed handle answer) : ∀ s ∈ later, s.call.Refuses handle := by
  have hlast : calls (past ++ [step]) = calls past ++ [.closed handle answer] := by
    rw [calls_append, ← hclose]
    rfl
  have hsound : AllSound ((past ++ [step]) ++ later) := by simpa using h
  refine hsound.refuses_gone ?_ ?_
  · rw [hlast, issuedIn_append]
    exact List.mem_append_left _ hissued
  · rw [hlast]
    rintro ⟨members, hopen⟩
    rcases openFor_concat.mp hopen with ⟨base, hcall⟩ | ⟨-, hother⟩
    · cases hcall
    · exact hother answer rfl

/-- Whatever a table is asked, every reply is told by the calls of its request, and every call
follows from the history of those before it: an opening gives a handle never given out before, an
open handle answers for its members, and any other is found invalid. A closed handle is not found
again, and handles are numbered by the openings. -/
theorem askAll_keeps_handles (requests : List Request) :
    let run := (askAll converter.traced requests).run (empty, [])
    let steps := run.2.2
    run.1 = ((askAll converter requests).run empty).1 ∧
    run.2.1 = ((askAll converter requests).run empty).2 ∧
    Request.TakeAll requests (calls steps) run.1 ∧
    (∀ past step later, steps = past ++ step :: later →
      Sound (calls past) step ∧
      ∀ handle answer, step.call = .closed handle answer → handle ∈ issuedIn (calls past) →
        ∀ s ∈ later, s.call.Refuses handle) ∧
    ∀ handle ∈ issuedIn (calls steps),
      0 < handle ∧ handle ≤ (issuedIn (calls steps)).length := by
  intro run steps
  have hkept : Kept run.2 := askAll_kept requests
  obtain ⟨added, hrun, htakes⟩ := converter.askAll_recorded requests empty []
  have hreplies : run.1 = ((askAll converter requests).run empty).1 := congrArg Prod.fst hrun
  have hafter : run.2 = (((askAll converter requests).run empty).2, added) := congrArg Prod.snd hrun
  refine ⟨hreplies, by rw [hafter], ?_, fun past step later hsplit => ?_, ?_⟩
  · have hsteps : steps = added := congrArg Prod.snd hafter
    rwa [hsteps, hreplies]
  · refine ⟨hkept.sound past step later hsplit, fun handle answer hclose hissued => ?_⟩
    have hsound : AllSound (past ++ step :: later) := hsplit ▸ hkept.sound
    exact hsound.refuses_closed hissued hclose
  · rw [hkept.tracks.count]
    exact hkept.tracks.bounded

/-- A type that is closed by hand while it is open: its second close finds no handle, and neither
does a look-up after the first. The guard answers with what was answered inside. -/
example :
    let colors : Datatype := .scalar (.enumeration ⟨1, true⟩ [⟨"RED", 1⟩, ⟨"BLUE", 2⟩])
    let run := (askAll converter.traced [.withOpen colors fun handle =>
      [.nameOf handle 2, .closeType handle, .nameOf handle 2]]).run (empty, [])
    run.1 = [.guarded (.ok [.named (.ok "BLUE"), .closed (.ok ()),
      .named (.error (.invalidHandle 1))])] ∧
    calls run.2.2 = [.opened colors (.ok 1), .named 1 2 (.ok "BLUE"), .closed 1 (.ok ()),
      .named 1 2 (.error (.invalidHandle 1)), .closed 1 (.error (.invalidHandle 1))] :=
  ⟨rfl, rfl⟩

end MemberTable

end DatasetGrid
