import Triage.Error
import Triage.Text.Utf8

/-! Files as far as the application reads them. -/

namespace Triage

inductive Entry where
  | file (bytes : List UInt8)
  | directory
  | missing (cause : IoError)
  deriving DecidableEq, Repr

abbrev Files := String → Entry

namespace Files

def isThere (files : Files) (path : String) : Bool :=
  match files path with
  | .missing _ => false
  | _ => true

def isFile (files : Files) (path : String) : Bool :=
  match files path with
  | .file _ => true
  | _ => false

def readText (files : Files) (path : String) : Except IoError String :=
  match files path with
  | .missing cause => .error cause
  | .directory => .error .isADirectory
  | .file bytes => if Text.Utf8.isValid bytes then .ok (Text.Utf8.decodeLossy bytes) else .error .invalidUtf8

def join (directory name : String) : String :=
  if directory = "" then name
  else if directory.endsWith "/" then directory ++ name
  else directory ++ "/" ++ name

end Files
end Triage
