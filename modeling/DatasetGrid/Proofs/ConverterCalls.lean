import DatasetGrid.EnumNames.MemberTable
import DatasetGrid.Proofs.Rendering

/-! # Calls of a converter

A traced converter answers like the one behind it and keeps a record of its calls. Requests are
what a user of a converter may do with it: call its services, ask for one name, or do several
things while a type is open. What holds of the three services, and is kept by doing one thing after
another, holds of all requests. Each reply is told by the calls that its request takes.
-/
namespace DatasetGrid

namespace Converter

variable {σ τ α : Type}

inductive Call
  | opened (type : Datatype) (answer : Except ConversionError Handle)
  | named (handle : Handle) (value : Int64) (answer : Except ConversionError String)
  | closed (handle : Handle) (answer : Except ConversionError Unit)

/-- A call, with the state of the converter before and after it. -/
structure Step (σ : Type) where
  call : Call
  before : σ
  after : σ

def calls (steps : List (Step σ)) : List Call :=
  steps.map (·.call)

@[simp] theorem calls_append (steps later : List (Step σ)) :
    calls (steps ++ later) = calls steps ++ calls later :=
  List.map_append

/-- What is done, with a record of it at the end of the log. -/
def record (act : StateM σ α) (call : α → Call) : StateM (σ × List (Step σ)) α := do
  let (before, log) ← get
  let (answer, after) := act.run before
  set (after, log ++ [⟨call answer, before, after⟩])
  return answer

theorem record_run (act : StateM σ α) (call : α → Call) (state : σ) (log : List (Step σ)) :
    (record act call).run (state, log) =
      ((act.run state).1, (act.run state).2,
        log ++ [⟨call (act.run state).1, state, (act.run state).2⟩]) := rfl

def traced (c : Converter σ) : Converter (σ × List (Step σ)) where
  openType type := record (c.openType type) (.opened type)
  nameOf handle value := record (c.nameOf handle value) (.named handle value)
  closeType handle := record (c.closeType handle) (.closed handle)

/-- What a user of a converter may do. What is done while a type is open may use its handle, close
it, and open more. -/
inductive Request
  | openType (type : Datatype)
  | nameOf (handle : Handle) (value : Int64)
  | closeType (handle : Handle)
  | nameOfValue (type : Datatype) (value : Int64)
  | withOpen (type : Datatype) (body : Handle → List Request)

@[induction_eliminator]
theorem Request.induction {motive : Request → Prop}
    (openType : ∀ type, motive (.openType type))
    (nameOf : ∀ handle value, motive (.nameOf handle value))
    (closeType : ∀ handle, motive (.closeType handle))
    (nameOfValue : ∀ type value, motive (.nameOfValue type value))
    (withOpen : ∀ type body, (∀ handle, ∀ r ∈ body handle, motive r) →
      motive (.withOpen type body))
    (request : Request) : motive request := by
  refine @Request.rec motive (fun requests => ∀ r ∈ requests, motive r)
    openType nameOf closeType nameOfValue withOpen ?_ ?_ request
  · intro r hr
    cases hr
  · intro head rest hhead hrest r hr
    rcases List.mem_cons.mp hr with rfl | hr
    · exact hhead
    · exact hrest r hr

/-- What a request is answered with. While a type is open each request has a reply of its own. -/
inductive Reply
  | opened (answer : Except ConversionError Handle)
  | named (answer : Except ConversionError String)
  | closed (answer : Except ConversionError Unit)
  | guarded (answer : Except ConversionError (List Reply))

mutual

def ask (c : Converter σ) : Request → StateM σ Reply
  | .openType type => .opened <$> c.openType type
  | .nameOf handle value => .named <$> c.nameOf handle value
  | .closeType handle => .closed <$> c.closeType handle
  | .nameOfValue type value => .named <$> c.nameOfValue type value
  | .withOpen type body => .guarded <$> c.withOpen type fun handle => askAll c (body handle)

def askAll (c : Converter σ) : List Request → StateM σ (List Reply)
  | [] => pure []
  | request :: rest => do
    let reply ← ask c request
    let replies ← askAll c rest
    return reply :: replies

end

structure Related (R : ActionRelation σ τ) (c : Converter σ) (c' : Converter τ) : Prop where
  openType : ∀ type, R _ (c.openType type) (c'.openType type)
  nameOf : ∀ handle value, R _ (c.nameOf handle value) (c'.nameOf handle value)
  closeType : ∀ handle, R _ (c.closeType handle) (c'.closeType handle)

end Converter

namespace ActionRelation.IsCongruence

open Converter

variable {σ τ α : Type} {R : ActionRelation σ τ} {c : Converter σ} {c' : Converter τ}

theorem withOpen (h : R.IsCongruence) (hc : Related R c c') (type : Datatype)
    {use : Handle → StateM σ α} {use' : Handle → StateM τ α}
    (huse : ∀ handle, R α (use handle) (use' handle)) :
    R _ (c.withOpen type use) (c'.withOpen type use') := by
  apply h.bind (hc.openType type)
  intro answer
  cases answer with
  | error error => exact h.pure _
  | ok handle =>
    exact h.bind (huse handle) fun _ => h.bind (hc.closeType handle) fun _ => h.pure _

theorem nameOfValue (h : R.IsCongruence) (hc : Related R c c') (type : Datatype) (key : Int64) :
    R _ (c.nameOfValue type key) (c'.nameOfValue type key) := by
  apply h.bind (h.withOpen hc type (hc.nameOf · key))
  intro answer
  cases answer <;> exact h.pure _

theorem askAll_of_mem (h : R.IsCongruence) {requests : List Request}
    (hask : ∀ r ∈ requests, R Reply (ask c r) (ask c' r)) :
    R (List Reply) (askAll c requests) (askAll c' requests) := by
  induction requests with
  | nil => simpa only [askAll] using h.pure []
  | cons r rest ih =>
    have hrest := ih fun r hr => hask r (List.mem_cons_of_mem _ hr)
    rw [askAll, askAll]
    exact h.bind (hask r List.mem_cons_self) fun _ => h.bind hrest fun _ => h.pure _

theorem ask (h : R.IsCongruence) (hc : Related R c c') (request : Request) :
    R Reply (ask c request) (ask c' request) := by
  induction request with
  | openType type => simpa only [Converter.ask] using h.map (hc.openType type) Reply.opened
  | nameOf handle value =>
    simpa only [Converter.ask] using h.map (hc.nameOf handle value) Reply.named
  | closeType handle => simpa only [Converter.ask] using h.map (hc.closeType handle) Reply.closed
  | nameOfValue type value =>
    simpa only [Converter.ask] using h.map (h.nameOfValue hc type value) Reply.named
  | withOpen type body ih =>
    have hbody := h.withOpen hc type fun handle => h.askAll_of_mem (ih handle)
    simpa only [Converter.ask] using h.map hbody Reply.guarded

/-- What relates the services relates whatever they are asked. -/
theorem askAll (h : R.IsCongruence) (hc : Related R c c') (requests : List Request) :
    R (List Reply) (askAll c requests) (askAll c' requests) :=
  h.askAll_of_mem fun r _ => h.ask hc r

end ActionRelation.IsCongruence

/-- The first action keeps an invariant of its state. -/
def keeping {σ : Type} (I : σ → Prop) : ActionRelation σ σ :=
  fun _ act _ => ∀ state, I state → I (act.run state).2

theorem keeping_isCongruence {σ : Type} (I : σ → Prop) : (keeping I).IsCongruence where
  pure _ _ h := h
  bind hact hnext state h := hnext _ _ (hact state h)

namespace Converter

variable {σ α β : Type} {act : StateM σ α} {recorded : StateM (σ × List (Step σ)) α}

/-- The second action does what the first does and adds calls to the log, which tell the result. -/
def Recorded (P : List Call → α → Prop) (act : StateM σ α)
    (recorded : StateM (σ × List (Step σ)) α) : Prop :=
  ∀ state log, ∃ steps,
    recorded.run (state, log) = ((act.run state).1, (act.run state).2, log ++ steps) ∧
      P (calls steps) (act.run state).1

theorem recorded_pure {P : List Call → α → Prop} {a : α} (h : P [] a) :
    Recorded P (pure a : StateM σ α) (pure a) :=
  fun _ log => ⟨[], by rw [List.append_nil]; rfl, h⟩

theorem recorded_record (act : StateM σ α) (call : α → Call) :
    Recorded (fun calls answer => calls = [call answer]) act (record act call) :=
  fun _ _ => ⟨_, record_run .., rfl⟩

theorem Recorded.bind {P : List Call → α → Prop} {Q : List Call → β → Prop}
    {next : α → StateM σ β} {next' : α → StateM (σ × List (Step σ)) β}
    (hact : Recorded P act recorded)
    (hnext : ∀ a past, P past a →
      Recorded (fun later b => Q (past ++ later) b) (next a) (next' a)) :
    Recorded Q (act >>= next) (recorded >>= next') := by
  intro state log
  rcases hact state log with ⟨steps, hrun, hsteps⟩
  rcases hnext _ _ hsteps (act.run state).2 (log ++ steps) with ⟨later, hlater, hcalls⟩
  refine ⟨steps ++ later, ?_, ?_⟩
  · rw [run_bind, run_bind, hrun, hlater, List.append_assoc]
  · rw [calls_append]
    exact hcalls

theorem Recorded.map {P : List Call → α → Prop} {Q : List Call → β → Prop} {f : α → β}
    (h : Recorded P act recorded) (hf : ∀ calls a, P calls a → Q calls (f a)) :
    Recorded Q (f <$> act) (f <$> recorded) := by
  rw [map_eq_pure_bind, map_eq_pure_bind]
  apply h.bind
  intro a past hpast
  apply recorded_pure
  rw [List.append_nil]
  exact hf past a hpast

/-- The calls made around the use of an open type, with the answer: its handle is the one closed,
and the use is not begun where the type cannot be opened. -/
inductive Guarded (type : Datatype) (P : Handle → List Call → α → Prop) :
    List Call → Except ConversionError α → Prop
  | unopened (error : ConversionError) :
      Guarded type P [.opened type (.error error)] (.error error)
  | used (handle : Handle) (outcome : Except ConversionError Unit) {inner : List Call}
      {answer : α} : P handle inner answer →
        Guarded type P (.opened type (.ok handle) :: (inner ++ [.closed handle outcome]))
          (.ok answer)

theorem withOpen_recorded (c : Converter σ) (type : Datatype)
    {P : Handle → List Call → α → Prop} {use : Handle → StateM σ α}
    {use' : Handle → StateM (σ × List (Step σ)) α}
    (huse : ∀ handle, Recorded (P handle) (use handle) (use' handle)) :
    Recorded (Guarded type P) (c.withOpen type use) (c.traced.withOpen type use') := by
  apply (recorded_record (c.openType type) (.opened type)).bind
  rintro answer _ rfl
  cases answer with
  | error error => exact recorded_pure (.unopened error)
  | ok handle =>
    apply (huse handle).bind
    intro result inner hinner
    -- Whatever closing answers, the result of the use is returned.
    apply (recorded_record (c.closeType handle) (.closed handle)).bind
    rintro outcome _ rfl
    apply recorded_pure
    exact .used handle outcome hinner

theorem nameOfValue_recorded (c : Converter σ) (type : Datatype) (value : Int64) :
    Recorded (fun calls name => ∃ answer, name = answer.bind id ∧
        Guarded type (fun handle calls name => calls = [.named handle value name]) calls answer)
      (c.nameOfValue type value) (c.traced.nameOfValue type value) := by
  apply (c.withOpen_recorded type fun handle => recorded_record _ (.named handle value)).bind
  intro answer past hpast
  cases answer with
  | error error => exact recorded_pure ⟨_, rfl, by rwa [List.append_nil]⟩
  | ok name => exact recorded_pure ⟨_, rfl, by rwa [List.append_nil]⟩

mutual

/-- The calls that a request takes, with its reply. -/
def Request.Takes : Request → List Call → Reply → Prop
  | .openType type, calls, reply =>
    ∃ answer, calls = [.opened type answer] ∧ reply = .opened answer
  | .nameOf handle value, calls, reply =>
    ∃ answer, calls = [.named handle value answer] ∧ reply = .named answer
  | .closeType handle, calls, reply =>
    ∃ answer, calls = [.closed handle answer] ∧ reply = .closed answer
  | .nameOfValue type value, calls, reply =>
    ∃ answer, reply = .named (answer.bind id) ∧
      Guarded type (fun handle calls name => calls = [.named handle value name]) calls answer
  | .withOpen type body, calls, reply =>
    ∃ answer, reply = .guarded answer ∧
      Guarded type (fun handle => TakeAll (body handle)) calls answer

def Request.TakeAll : List Request → List Call → List Reply → Prop
  | [], calls, replies => calls = [] ∧ replies = []
  | request :: rest, calls, replies =>
    ∃ past later reply others, calls = past ++ later ∧ replies = reply :: others ∧
      Takes request past reply ∧ TakeAll rest later others

end

variable (c : Converter σ)

theorem askAll_recorded_of_mem {requests : List Request}
    (hask : ∀ r ∈ requests, Recorded r.Takes (ask c r) (ask c.traced r)) :
    Recorded (Request.TakeAll requests) (askAll c requests) (askAll c.traced requests) := by
  induction requests with
  | nil => exact recorded_pure ⟨rfl, rfl⟩
  | cons r rest ih =>
    have hrest := ih fun r hr => hask r (List.mem_cons_of_mem _ hr)
    rw [askAll, askAll]
    apply (hask r List.mem_cons_self).bind
    intro reply past hpast
    apply hrest.bind
    intro replies later hlater
    apply recorded_pure
    rw [List.append_nil]
    exact ⟨past, later, reply, replies, rfl, rfl, hpast, hlater⟩

/-- A traced converter does what the one behind it does, and the calls that it records are those
of the request. -/
theorem ask_recorded (request : Request) :
    Recorded request.Takes (ask c request) (ask c.traced request) := by
  induction request with
  | openType type =>
    rw [ask, ask]
    exact (recorded_record (c.openType type) _).map fun _ answer h => ⟨answer, h, rfl⟩
  | nameOf handle value =>
    rw [ask, ask]
    exact (recorded_record (c.nameOf handle value) _).map fun _ answer h => ⟨answer, h, rfl⟩
  | closeType handle =>
    rw [ask, ask]
    exact (recorded_record (c.closeType handle) _).map fun _ answer h => ⟨answer, h, rfl⟩
  | nameOfValue type value =>
    rw [ask, ask]
    apply (c.nameOfValue_recorded type value).map
    rintro calls _ ⟨answer, rfl, hcalls⟩
    exact ⟨answer, rfl, hcalls⟩
  | withOpen type body ih =>
    rw [ask, ask]
    apply (c.withOpen_recorded type fun handle => c.askAll_recorded_of_mem (ih handle)).map
    exact fun calls answer h => ⟨answer, rfl, h⟩

theorem askAll_recorded (requests : List Request) :
    Recorded (Request.TakeAll requests) (askAll c requests) (askAll c.traced requests) :=
  c.askAll_recorded_of_mem fun r _ => c.ask_recorded r

theorem askAll_append (requests later : List Request) (state : σ) :
    ((askAll c (requests ++ later)).run state).2 =
      ((askAll c later).run ((askAll c requests).run state).2).2 := by
  induction requests generalizing state with
  | nil => rfl
  | cons r rest ih =>
    simp only [List.cons_append, askAll, run_bind]
    exact ih _

end Converter

/-- The second action does what the first does and adds to the log, calls of some kind. -/
def recording {σ : Type} (P : List Converter.Call → Prop) :
    ActionRelation σ (σ × List (Converter.Step σ)) :=
  fun _ act recorded => Converter.Recorded (fun calls _ => P calls) act recorded

theorem recording_isCongruence {σ : Type} {P : List Converter.Call → Prop} (hnil : P [])
    (happend : ∀ {calls later}, P calls → P later → P (calls ++ later)) :
    (recording P : ActionRelation σ _).IsCongruence where
  pure _ := Converter.recorded_pure hnil
  bind hact hnext := by
    apply Converter.Recorded.bind hact
    intro a past hpast state log
    rcases hnext a state log with ⟨later, hrun, hlater⟩
    exact ⟨later, hrun, happend hpast hlater⟩

end DatasetGrid
