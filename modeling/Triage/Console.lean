import Triage.App.Screen
import Triage.App.Update
import Triage.Files.Tree
import Triage.Locations
import Triage.Settings

/-! The application at a terminal: its options, how it starts, and the screens it writes while it reads lines. -/

namespace Triage.Console

structure Options where
  script : Option String := none
  logFile : Option String := none
  settings : Option String := none
  deriving DecidableEq, Repr

inductive OptionName where
  | script
  | logFile
  | settings
  deriving DecidableEq, Repr

def OptionName.long? : String → Option OptionName
  | "config" => some .script
  | "log-file" => some .logFile
  | "settings" => some .settings
  | _ => none

def OptionName.short? : Char → Option OptionName
  | 'c' => some .script
  | 'l' => some .logFile
  | 's' => some .settings
  | _ => none

namespace Options

def get? (o : Options) : OptionName → Option String
  | .script => o.script
  | .logFile => o.logFile
  | .settings => o.settings

/-- No option may come twice. -/
def set? (o : Options) (name : OptionName) (path : String) : Option Options :=
  if (o.get? name).isSome then none
  else some <| match name with
    | .script => { o with script := some path }
    | .logFile => { o with logFile := some path }
    | .settings => { o with settings := some path }

def split? (argument : String) : Option (OptionName × Option String) :=
  match argument.toList with
  | '-' :: '-' :: rest =>
    match rest.span (· != '=') with
    | (name, '=' :: path) => (OptionName.long? (.ofList name)).map (·, some (.ofList path))
    | (name, _) => (OptionName.long? (.ofList name)).map (·, none)
  | ['-', c] => (OptionName.short? c).map (·, none)
  | '-' :: c :: '=' :: path => (OptionName.short? c).map (·, some (.ofList path))
  | '-' :: c :: path => (OptionName.short? c).map (·, some (.ofList path))
  | _ => none

def isFileName (argument : String) : Bool := argument == "-" || !argument.startsWith "-"

def parseFrom (o : Options) : List String → Option Options
  | [] => some o
  | argument :: rest =>
    match split? argument, rest with
    | some (name, some path), rest => (o.set? name path).bind (parseFrom · rest)
    | some (name, none), path :: rest => if isFileName path then (o.set? name path).bind (parseFrom · rest) else none
    | _, _ => none

def parse? (arguments : List String) : Option Options := parseFrom {} arguments

end Options

inductive StartError where
  | logDirectory (path : String)
  | logFile (path : String)
  | settings (cause : SettingsError)
  | source (cause : Error)
  | script (cause : Error)

def StartError.message : StartError → String
  | .logDirectory path => "cannot create " ++ path
  | .logFile path => "cannot open log file " ++ path
  | .settings cause => cause.message
  | .source cause => cause.message
  | .script _ => "cannot start the script"

def openLog (root : FileTree) (path : String) : Except StartError FileTree :=
  let parent := FileTree.parent path
  match (if parent = "" then some root else root.makeDirectory parent) with
  | none => .error (.logDirectory parent)
  | some root =>
    match root.writeFile path [] with
    | none => .error (.logFile path)
    | some root => .ok root

/-- Without saved queries there is still the inbox. -/
def start (files : Files) (env : Environment) (o : Options) (index : String → Index.Client) (now : Instant)
    (clock : Clock := {}) : Option (Except StartError (App × Settings)) :=
  match Settings.load files o.settings env.settingsPath with
  | .error cause => some (.error (.settings cause))
  | .ok settings =>
    let client := index settings.program
    let saved := match client.savedQueries with
      | .ok saved => saved
      | .error _ => []
    match Script.Source.locate files env o.script with
    | .error cause => some (.error (.source cause))
    | .ok source =>
      match App.create saved client source now clock with
      | none => none
      | some (.error cause) => some (.error (.script cause))
      | some (.ok app) => app.start.map fun app => .ok (app, settings)

def draw (app : App) (rows : Nat) : String :=
  let desk := app.machine.host
  let screen := App.Screen.render app.state app.prompt? rows desk.now desk.clock
  if app.prompt?.isNone && !screen.endsWith "\n" then screen ++ "\n" else screen

def eventOf (app : App) : Option String → Event
  | some line => app.lineEvent line
  | none => .inputClosed

def screens (rows : Nat) (app : App) : List String → Option (List String)
  | [] =>
    if app.isRunning then (app.update (eventOf app none)).map fun app => [draw app rows] else some []
  | line :: rest =>
    if app.isRunning then
      (app.update (eventOf app (some line))).bind fun app => (screens rows app rest).map (draw app rows :: ·)
    else some []

end Triage.Console
