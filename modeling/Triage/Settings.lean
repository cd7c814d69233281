import Triage.Files
import Triage.Json.Record

/-! Settings that outlast a session. -/

namespace Triage

structure Settings where
  /-- The mail index program. -/
  program : String := "notmuch"
  /-- How many spawned programs may run at once. -/
  spawnLimit : Option Nat := none
  /-- How many message rows the screen shows. -/
  rows : Nat := 20
  deriving DecidableEq, Repr, Inhabited

inductive SettingsError where
  | missing (path : String)
  | unreadable (path : String)
  | invalid (path : String) (fault : JsonFault)
  deriving DecidableEq, Repr

def SettingsError.message : SettingsError → String
  | .missing path => "settings file " ++ path ++ " does not exist"
  | .unreadable path => "cannot read " ++ path
  | .invalid path _ => "invalid settings in " ++ path

namespace Settings

structure Partial where
  program : Option String := none
  spawnLimit : Option (Option Nat) := none
  rows : Option Nat := none

def members : List (Json.Member Partial) :=
  [{ name := "notmuch_binary", isGiven := (·.program.isSome),
     read := fun _ s => return { s with program := some (← Json.text) } },
   { name := "max_concurrent_spawns", isGiven := (·.spawnLimit.isSome),
     read := fun _ s => return { s with spawnLimit := some (← Json.optional Json.unsigned64) } },
   { name := "list_rows", isGiven := (·.rows.isSome),
     read := fun _ s => return { s with rows := some (← Json.unsigned64) } }]

def Partial.complete (s : Partial) : Settings :=
  let d : Settings := {}
  { program := s.program.getD d.program, spawnLimit := s.spawnLimit.getD d.spawnLimit, rows := s.rows.getD d.rows }

def decode (text : String) : Except JsonFault Settings :=
  (Json.document (Json.record members {} Json.depthLimit) (Text.Utf8.encode text)).map Partial.complete

def read (files : Files) (path : String) : Except SettingsError Settings :=
  match files.readText path with
  | .error _ => .error (.unreadable path)
  | .ok text => (decode text).mapError (.invalid path)

/-- The file asked for has to be there. The usual one may be missing, which leaves the defaults. -/
def load (files : Files) (asked : Option String) (usual : String) : Except SettingsError Settings :=
  match asked with
  | some path => if files.isThere path then read files path else .error (.missing path)
  | none => if files.isThere usual then read files usual else .ok {}

end Settings
end Triage
