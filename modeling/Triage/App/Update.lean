import Triage.App.State
import Triage.Dispatch

/-! The application: how it executes commands and handles events. -/

namespace Triage

structure Search where
  query : String
  row : Nat
  deriving DecidableEq, Repr

inductive Event where
  /-- A key by its name, such as `q`, `ctrl+r` or `tab`. -/
  | key (name : String)
  | submit (text : String)
  | cancel
  | historyPrevious
  | historyNext
  | inputClosed
  | searchFinished (query : String) (result : Except String (List Thread)) (row : Nat)
  | spawnFinished (result : SpawnResult)

structure App where
  machine : Script.Machine App.Desk
  isRunning : Bool := true
  /-- Searches that were started, in order. -/
  searches : List Search := []
  /-- Spawn requests that were handed over, in order. -/
  spawns : List SpawnRequest := []

namespace App

def state (app : App) : State := app.machine.host.state

def withState (app : App) (s : State) : App :=
  { app with machine := { app.machine with host := { app.machine.host with state := s } } }

def prompt? (app : App) : Option Prompt := app.machine.session.prompts.top?

def atTime (app : App) (now : Instant) : App :=
  { app with machine := { app.machine with host := { app.machine.host with now } } }

def search (app : App) (row : Nat) : App :=
  { app with searches := app.searches ++ [⟨app.state.queries.current.text, row⟩] }

def withQueries (app : App) (q : Queries) : App := app.withState { app.state with queries := q }

def withMessages (app : App) (l : Listing) : App := app.withState { app.state with messages := l }

def resetRecall (app : App) (label : String) : App :=
  app.withState { app.state with history := app.state.history.reset label, draft := none }

def executeLeaf (app : App) (c : Command) : App :=
  match c with
  | .quit => { app with isRunning := false }
  | .refresh => app.search app.state.messages.selected
  | .newQuery text => (app.withQueries (app.state.queries.addText text)).search 0
  | .nextQuery => (app.withQueries app.state.queries.selectNext).search 0
  | .previousQuery => (app.withQueries app.state.queries.selectPrevious).search 0
  | .toggleMarks => app.withMessages (app.state.messages.toggle app.state.messages.selected)
  | .invertMarks => app.withMessages app.state.messages.invert
  | .clearMarks => app.withMessages app.state.messages.clearMarks
  | .openInput label _ _ => app.resetRecall label
  | .setStatus text => app.withState { app.state with status := app.state.status.set text }
  | .spawn request => { app with spawns := app.spawns ++ [request] }
  | .batch _ => app

def execute (app : App) (cs : List Command) : App := (Command.leavesOf cs).foldl executeLeaf app

def dispatch (app : App) (entry : Script.Recur Desk → Script.Eval Desk (List Command)) : Option App :=
  (Dispatch.enter app.machine entry).map fun (cs, machine) => { app with machine }.execute cs

def upLine : String := "\x1b[A"

def downLine : String := "\x1b[B"

/-- What a line of input means. Without a prompt it names a key. With one it is submitted, save that arrows walk the
history, and that an empty line submits the draft or, without one, closes the prompt. -/
def lineEvent (app : App) (line : String) : Event :=
  if app.prompt?.isNone then .key (Text.trim line)
  else if line = upLine then .historyPrevious
  else if line = downLine then .historyNext
  else if line = "" then app.state.draft.elim .cancel .submit
  else .submit line

def defaultKey (app : App) (name : String) : App :=
  let l := app.state.messages
  match name with
  | "j" | "down" => app.withMessages (l.move 1)
  | "k" | "up" => app.withMessages (l.move (-1))
  | "g" | "home" => app.withMessages (l.select 0).2
  | "G" | "end" => app.withMessages (l.select (l.count - 1)).2
  | "ctrl+c" => { app with isRunning := false }
  | _ => app

def key (app : App) (name : String) : Option App :=
  (Dispatch.enter app.machine (Dispatch.onKey · name)).map fun (answer, machine) =>
    let app := { app with machine }
    match answer with
    | .handled cs => app.execute cs
    | .unhandled => app.defaultKey name

def submit (app : App) (text : String) : Option App :=
  let noted := match app.prompt? with
    | some p => app.withState { app.state with history := app.state.history.add p.label text, draft := none }
    | none => app
  noted.dispatch (Dispatch.submitInput · text)

def cancel (app : App) : Option App :=
  (Dispatch.enter app.machine fun _ => Dispatch.cancelInput).map fun (closed, machine) =>
    let app := { app with machine }
    match closed with
    | some p => app.resetRecall p.label
    | none => app

/-- At the oldest entry the draft stays as it is. -/
def historyPrevious (app : App) : App :=
  match app.prompt? with
  | some p =>
    let (entry, history) := app.state.history.previous p.label
    app.withState { app.state with history, draft := entry.or app.state.draft }
  | none => app

def historyNext (app : App) : App :=
  match app.prompt? with
  | some p =>
    let (draft, history) := app.state.history.next p.label
    app.withState { app.state with history, draft }
  | none => app

def load (l : Listing) (threads : List Thread) (row : Nat) : Listing :=
  let l := l.setThreads threads
  (l.select (min row (l.count - 1))).2

/-- A result counts only while its query is the current one. -/
def searchFinished (app : App) (query : String) (result : Except String (List Thread)) (row : Nat) : App :=
  if app.state.queries.current.text = query then
    match result with
    | .ok threads => app.withMessages (load app.state.messages threads row)
    | .error message =>
      { app with machine := { app.machine with host := app.machine.host.notifyError message } }
  else app

def update (app : App) (e : Event) : Option App :=
  match e with
  | .key name => app.key name
  | .submit text => app.submit text
  | .cancel => app.cancel
  | .historyPrevious => some app.historyPrevious
  | .historyNext => some app.historyNext
  | .inputClosed => some { app with isRunning := false }
  | .searchFinished query result row => some (app.searchFinished query result row)
  | .spawnFinished result => app.dispatch (Dispatch.onSpawnResult · result)

def start (app : App) : Option App := (app.dispatch Dispatch.onStartup).map (·.search 0)

def create (queries : List SearchQuery) (index : Index.Client) (script : Script.Source) (now : Instant)
    (clock : Clock := {}) : Option (Except Error App) :=
  let desk : Desk := { state := { queries := .ofSaved queries }, index, now, clock }
  (Dispatch.load desk script).map fun (outcome, machine) => outcome.map fun () => { machine }

def outcomeOf (index : Index.Client) (s : Search) : Event :=
  .searchFinished s.query ((index.search s.query).mapError Error.message) s.row

end App
end Triage
