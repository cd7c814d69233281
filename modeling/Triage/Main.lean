import Triage.Console
import Triage.Program.Spawn

/-! The command line: files, the environment, the clock and the terminal. -/

namespace Triage

def readEntry (path : String) : IO Entry := do
  try
    let bytes ← IO.FS.readBinFile path
    return .file bytes.toList
  catch
    | .permissionDenied .. => return .missing .permissionDenied
    | .inappropriateType .. => return .directory
    | _ => return .missing .notFound

def readFiles (paths : List String) : IO Files := do
  let entries ← paths.mapM fun path => return (path, ← readEntry path)
  return fun path => (entries.lookup path).getD (.missing .notFound)

def readEnvironment : IO Environment :=
  return { home := (← IO.getEnv "HOME").getD "", configHome := ← IO.getEnv "XDG_CONFIG_HOME" }

def filesFor (env : Environment) (o : Console.Options) : IO Files :=
  readFiles (o.settings.toList ++ o.script.toList ++ env.settingsPath :: env.scriptPaths)

/-- The clock counts from an unknown day, so that no message is one of today. -/
def readClock : IO Instant := return (← IO.monoNanosNow)

def clock : Clock := { second := 1000000000 }

/-- The index program is not started from here: every call of it fails. -/
def indexOf (program : String) : Index.Client := { program, run := fun _ => .error .notFound }

def nextEvent (app : App) (input : IO.FS.Stream) : IO (App × Option Event) := do
  match app.searches, app.spawns with
  | s :: rest, _ => return ({ app with searches := rest }, some (App.outcomeOf app.machine.host.index s))
  | [], r :: rest => return ({ app with spawns := rest }, (Program.run r).map .spawnFinished)
  | [], [] =>
    let line ← input.getLine
    return (app, some (Console.eventOf app (if line.isEmpty then none else (Text.lines line).head?)))

partial def serve (rows : Nat) (input output : IO.FS.Stream) (app : App) : IO Unit := do
  output.putStr (Console.draw app rows)
  output.flush
  if app.isRunning then
    let (app, event) ← nextEvent (app.atTime (← readClock)) input
    match event.bind app.update with
    | some app => serve rows input output app
    | none => pure ()

def makeLog (path : String) : IO (Except Console.StartError Unit) := do
  let parent := FileTree.parent path
  try
    if parent != "" then IO.FS.createDirAll parent
  catch _ => return .error (.logDirectory parent)
  try
    IO.FS.writeFile path ""
    return .ok ()
  catch _ => return .error (.logFile path)

def fail (e : Console.StartError) : IO UInt32 := do
  (← IO.getStderr).putStrLn ("Error: " ++ e.message)
  return 1

end Triage

open Triage in
def main (args : List String) : IO UInt32 := do
  match Console.Options.parse? args with
  | none =>
    (← IO.getStderr).putStrLn "usage: triage [--config FILE] [--log-file FILE] [--settings FILE]"
    return 2
  | some options =>
    let logged ← match options.logFile with
      | some path => makeLog path
      | none => pure (.ok ())
    match logged with
    | .error e => fail e
    | .ok () =>
      let env ← readEnvironment
      match Console.start (← filesFor env options) env options indexOf (← readClock) clock with
      | none => return 1
      | some (.error e) => fail e
      | some (.ok (app, settings)) =>
        serve settings.rows (← IO.getStdin) (← IO.getStdout) app
        return 0
