import Triage.Files.Tree
import Triage.Program.Tool

/-! The system on which programs run, as far as it is known here: where they stand, and what is no program. -/

namespace Triage.Program.System

def programs : List String := ["cat", "echo", "false", "head", "kill", "printf", "sh", "sleep", "tail", "tr", "true"]

def files (names : List String) : FileTree := .directory (names.map (·, .file []))

def root : FileTree :=
  .directory
    [("bin", files programs), ("dev", files ["null", "zero"]), ("etc", files ["group", "hosts", "passwd"]),
     ("home", .directory []), ("root", .directory []), ("tmp", .directory []),
     ("usr", .directory [("bin", files programs), ("lib", .directory [])]), ("var", .directory [])]

def searchPath : List String := ["/usr/bin", "/bin"]

def programAt (path : String) : Except IoError String :=
  match root.entryAt path with
  | .missing cause => .error cause
  | .directory => .error .permissionDenied
  | .file _ =>
    let names := FileTree.plainNames path
    if names.dropLast.getLast? == some "bin" then .ok (names.getLast?.getD "") else .error .permissionDenied

/-- The most bytes that the name of a file can have. -/
def nameLimit : Nat := 255

def find (name : String) : Except IoError String :=
  if name = "" then .error .notFound
  else if (FileTree.components name).any (nameLimit < ·.utf8ByteSize) then .error .nameTooLong
  else if name.toList.contains '/' then programAt name
  else
    searchPath.foldl (fun found directory =>
      match found with
      | .ok program => .ok program
      | .error .permissionDenied => .error .permissionDenied
      | .error _ => programAt (Files.join directory name)) (.error .notFound)

end Triage.Program.System
