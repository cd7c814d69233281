import Triage.Files
import Triage.Script.Source

/-! Where the configuration is looked for. -/

namespace Triage

structure Environment where
  home : String
  /-- The directory for all configuration, where one is set. -/
  configHome : Option String := none

namespace Environment

def configDirectory (env : Environment) : String :=
  match env.configHome with
  | some d => if d.startsWith "/" then d else Files.join env.home ".config"
  | none => Files.join env.home ".config"

def ownFile (directory name : String) : String := Files.join (Files.join directory "glance") name

def settingsPath (env : Environment) : String := ownFile env.configDirectory "settings.json"

/-- Where a script may be, the best place first. A relative directory is tried here as well, though it is no
configuration directory. -/
def scriptPaths (env : Environment) : List String :=
  let usual := ownFile env.configDirectory "init.lua"
  match env.configHome with
  | none => [usual]
  | some d =>
    let own := ownFile d "init.lua"
    if d = "" ∨ own = usual then [usual] else [own, usual]

end Environment

namespace Script.Source

def read (files : Files) (path : String) : Except Error Source :=
  match files.readText path with
  | .ok text => .ok { name := path, text }
  | .error cause => .error (.config (.script path cause))

def locate (files : Files) (env : Environment) (asked : Option String) : Except Error Source :=
  match asked with
  | some path => read files path
  | none =>
    match env.scriptPaths.find? files.isFile with
    | some path => read files path
    | none => .ok .default

end Script.Source
end Triage
