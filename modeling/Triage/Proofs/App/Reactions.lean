import Triage.App.Update
import Triage.Proofs.App.Desk

/-! What the application does when it is told something, case by case, and how it goes on from there for a whole run.
Later modules look at these cases and never at the steps again. -/

namespace Triage.App

open Dispatch
open Script (Machine Eval Outcome evaluate evaluate_confined)

inductive Stimulus where
  | start
  | event (e : Event)

structure Moment where
  now : Instant
  index : Index.Client

def during (app : App) (m : Moment) : App :=
  { app with machine := { app.machine with host := { app.machine.host with now := m.now, index := m.index } } }

def react (app : App) : Stimulus → Option App
  | .start => app.start
  | .event e => app.update e

def run (app : App) : List (Moment × Stimulus) → Option App
  | [] => some app
  | (m, s) :: rest => ((app.during m).react s).bind (run · rest)

theorem run_keeps {P : App → Prop} (hstep : ∀ app m s app', P app → (app.during m).react s = some app' → P app')
    {app app' : App} {told : List (Moment × Stimulus)} (hP : P app) (h : app.run told = some app') : P app' := by
  induction told generalizing app with
  | nil =>
    obtain rfl := Option.some.inj h
    exact hP
  | cons first rest ih =>
    obtain ⟨next, hnext, hrest⟩ := Option.bind_eq_some_iff.mp h
    exact ih (hstep app first.1 first.2 next hP hnext) hrest

theorem run_append (app : App) (told more : List (Moment × Stimulus)) :
    app.run (told ++ more) = (app.run told).bind (run · more) := by
  induction told generalizing app with
  | nil => rfl
  | cons first rest ih =>
    rw [List.cons_append, run, run, Option.bind_assoc]
    exact congrArg _ (funext ih)

theorem foldl_relates {R : App → App → Prop} (hrefl : ∀ app, R app app)
    (htrans : ∀ {a₁ a₂ a₃}, R a₁ a₂ → R a₂ a₃ → R a₁ a₃) (hleaf : ∀ app c, R app (app.executeLeaf c)) (app : App)
    (leaves : List Command) : R app (leaves.foldl executeLeaf app) := by
  induction leaves generalizing app with
  | nil => exact hrefl app
  | cons c rest ih => exact htrans (hleaf app c) (ih (app.executeLeaf c))

theorem execute_relates {R : App → App → Prop} (hrefl : ∀ app, R app app)
    (htrans : ∀ {a₁ a₂ a₃}, R a₁ a₂ → R a₂ a₃ → R a₁ a₃) (hleaf : ∀ app c, R app (app.executeLeaf c)) (app : App)
    (cs : List Command) : R app (app.execute cs) := foldl_relates hrefl htrans hleaf app (Command.leavesOf cs)

def SameScript (app app' : App) : Prop :=
  app'.machine.heap = app.machine.heap ∧ app'.machine.session = app.machine.session

theorem execute_sameScript (app : App) (cs : List Command) : app.SameScript (app.execute cs) := by
  refine execute_relates (fun _ => ⟨rfl, rfl⟩) (fun h₁ h₂ => ⟨h₂.1.trans h₁.1, h₂.2.trans h₁.2⟩)
    (fun app c => ?_) app cs
  cases c <;> exact ⟨rfl, rfl⟩

theorem defaultKey_sameScript (app : App) (name : String) : app.SameScript (app.defaultKey name) := by
  unfold defaultKey
  split <;> exact ⟨rfl, rfl⟩

theorem SameScript.sound {app app' : App} (h : app.SameScript app') (hm : app.machine.Sound) : app'.machine.Sound := by
  refine ⟨h.2 ▸ hm.session, h.2 ▸ hm.settled, h.1 ▸ hm.objects, ?_⟩
  rw [h.1, h.2]
  exact hm.prompts

structure Served (app : App) (e : Dispatch.Entry) (cs : List Command) (m : Machine Desk) : Prop where
  sound : m.Sound
  answers : Answers (e.prepare app.machine.session) cs m.session
  serves : app.machine.host.Serves m.host

theorem served_of_enter {app : App} (hm : app.machine.Sound) {e : Dispatch.Entry} {cs : List Command}
    {m : Machine Desk} (h : enter app.machine (fun self => e.commands self) = some (cs, m)) : Served app e cs m := by
  obtain ⟨hsound, hanswers⟩ := enter_eq_some h (Dispatch.Entry.answers (evaluate_confined fuel) e hm)
  exact ⟨hsound, hanswers, Desk.serves_of_reaches (enter_reaches h (e.commands_driven (evaluate_confined fuel)))⟩

theorem served_of_dispatch {app app' : App} (hm : app.machine.Sound) {e : Dispatch.Entry}
    (h : app.dispatch (fun self => e.commands self) = some app') :
    ∃ cs m, Served app e cs m ∧ app' = execute { app with machine := m } cs := by
  obtain ⟨⟨cs, m⟩, henter, rfl⟩ := Option.map_eq_some_iff.mp h
  exact ⟨cs, m, served_of_enter hm henter, rfl⟩

def recordInput (app : App) (text : String) : App :=
  match app.prompt? with
  | some p => app.withState { app.state with history := app.state.history.add p.label text, draft := none }
  | none => app

def closeInput (app : App) : App :=
  let session := Dispatch.Entry.closing app.machine.session .cancel
  let closed := { app with machine := { app.machine with session } }
  match app.prompt? with
  | some p => closed.resetRecall p.label
  | none => closed

/-- All that the application may do when it is told something. -/
inductive Follows (app : App) : Stimulus → App → Prop
  | started {cs m} : Served app .startup cs m → Follows app .start ((execute { app with machine := m } cs).search 0)
  | handled {name cs m} :
    Served app (.key name) cs m → Follows app (.event (.key name)) (execute { app with machine := m } cs)
  | unhandled {name m} :
    Served app (.key name) [] m → Follows app (.event (.key name)) (defaultKey { app with machine := m } name)
  | submitted {text cs m} : Served (app.recordInput text) (.submit text) cs m →
    Follows app (.event (.submit text)) (execute { app.recordInput text with machine := m } cs)
  | cancelled : Follows app (.event .cancel) app.closeInput
  | wentBack : Follows app (.event .historyPrevious) app.historyPrevious
  | wentForward : Follows app (.event .historyNext) app.historyNext
  | inputClosed : Follows app (.event .inputClosed) { app with isRunning := false }
  | searchFinished (query result row) :
    Follows app (.event (.searchFinished query result row)) (app.searchFinished query result row)
  | spawnFinished {result cs m} : Served app (.finished result) cs m →
    Follows app (.event (.spawnFinished result)) (execute { app with machine := m } cs)

theorem follows_key {app app' : App} (hm : app.machine.Sound) {name : String} (h : app.key name = some app') :
    app.Follows (.event (.key name)) app' := by
  obtain ⟨⟨answer, m⟩, henter, rfl⟩ := Option.map_eq_some_iff.mp h
  have hserved : Served app (.key name) answer.commands m := by
    refine served_of_enter hm (enter_eq_some_iff.mpr ?_)
    rw [Dispatch.Entry.commands, Eval.bind_apply, enter_eq_some_iff.mp henter]
    rfl
  cases answer with
  | handled cs => exact .handled hserved
  | unhandled => exact .unhandled hserved

theorem follows_of_react {app app' : App} (hm : app.machine.Sound) {s : Stimulus} (h : app.react s = some app') :
    app.Follows s app' := by
  cases s with
  | start =>
    obtain ⟨executed, hdispatch, rfl⟩ := Option.map_eq_some_iff.mp h
    obtain ⟨cs, m, hserved, rfl⟩ := served_of_dispatch (e := .startup) hm hdispatch
    exact .started hserved
  | event e =>
    cases e with
    | key name => exact follows_key hm h
    | submit text =>
      have hrecorded : (app.recordInput text).machine.Sound := by
        unfold recordInput
        split <;> exact (hm.withHost _).sound
      obtain ⟨cs, m, hserved, rfl⟩ := served_of_dispatch (e := .submit text) hrecorded h
      exact .submitted hserved
    | cancel =>
      obtain ⟨⟨closed, m⟩, henter, rfl⟩ := Option.map_eq_some_iff.mp h
      rw [enter_eq_some_iff, cancelInput_eq] at henter
      obtain ⟨rfl, rfl⟩ := Outcome.done.inj henter
      exact .cancelled
    | historyPrevious =>
      obtain rfl := Option.some.inj h
      exact .wentBack
    | historyNext =>
      obtain rfl := Option.some.inj h
      exact .wentForward
    | inputClosed =>
      obtain rfl := Option.some.inj h
      exact .inputClosed
    | searchFinished query result row =>
      obtain rfl := Option.some.inj h
      exact .searchFinished query result row
    | spawnFinished result =>
      obtain ⟨cs, m, hserved, rfl⟩ := served_of_dispatch (e := .finished result) hm h
      exact .spawnFinished hserved

def quiet : Moment := ⟨0, { run := fun _ => .ok {} }⟩

theorem created_of_bind {β : Type} {queries : List SearchQuery} {index : Index.Client} {script : Script.Source}
    {now : Instant} {clock : Clock} {f : App → Option β} {b : β}
    (h : ((create queries index script now clock).bind fun made => made.toOption.bind f) = some b) :
    ∃ app, create queries index script now clock = some (.ok app) ∧ f app = some b := by
  obtain ⟨made, hmade, hb⟩ := Option.bind_eq_some_iff.mp h
  cases made with
  | error e => cases hb
  | ok app => exact ⟨app, hmade, hb⟩

theorem served_of_create {queries : List SearchQuery} {index : Index.Client} {script : Script.Source} {now : Instant}
    {clock : Clock} {app : App} (h : create queries index script now clock = some (.ok app)) :
    app.machine.Sound ∧ Desk.Serves { state := { queries := .ofSaved queries }, index, now, clock } app.machine.host ∧
      app.searches = [] := by
  obtain ⟨⟨outcome, m⟩, hload, hmade⟩ := Option.map_eq_some_iff.mp h
  cases outcome with
  | error e => cases hmade
  | ok =>
    obtain rfl := Except.ok.inj hmade
    exact ⟨(load_extends hload).1, Desk.serves_of_reaches (load_reaches hload), rfl⟩

theorem Served.execute_sound {app : App} {e : Dispatch.Entry} {cs : List Command} {m : Machine Desk}
    (h : Served app e cs m) : (execute { app with machine := m } cs).machine.Sound :=
  (execute_sameScript _ cs).sound h.sound

theorem Follows.sound {app app' : App} {s : Stimulus} (h : app.Follows s app') (hm : app.machine.Sound) :
    app'.machine.Sound := by
  cases h with
  | started hserved => exact (hserved.execute_sound.withHost _).sound
  | handled hserved | submitted hserved | spawnFinished hserved => exact hserved.execute_sound
  | unhandled hserved => exact (defaultKey_sameScript _ _).sound hserved.sound
  | cancelled =>
    have hclosed := Dispatch.Entry.closing_sound .cancel hm
    unfold closeInput
    cases app.prompt? <;> exact (hclosed.withHost _).sound
  | inputClosed => exact hm
  | wentBack =>
    unfold historyPrevious
    split <;> exact (hm.withHost _).sound
  | wentForward =>
    unfold historyNext
    split <;> exact (hm.withHost _).sound
  | searchFinished query result row =>
    unfold App.searchFinished
    split
    · cases result <;> exact (hm.withHost _).sound
    · exact hm

theorem during_sound {app : App} (hm : app.machine.Sound) (m : Moment) : (app.during m).machine.Sound :=
  (hm.withHost _).sound

theorem run_sound {app app' : App} {told : List (Moment × Stimulus)} (hm : app.machine.Sound)
    (h : app.run told = some app') : app'.machine.Sound := by
  refine run_keeps (P := fun app => app.machine.Sound) (fun app m s app' hm hreact => ?_) hm h
  have hduring := during_sound hm m
  exact (follows_of_react hduring hreact).sound hduring

end Triage.App
