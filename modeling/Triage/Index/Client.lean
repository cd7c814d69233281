import Triage.Index.Arguments
import Triage.Index.SavedQueries
import Triage.Index.Search

/-! Running the mail index program. -/

namespace Triage.Index

structure Reply where
  stdout : List UInt8 := []
  stderr : List UInt8 := []
  exit : Exit := .code 0
  deriving DecidableEq, Repr, Inhabited

structure Client where
  program : String := "notmuch"
  run : List String → Except IoError Reply

namespace Client

def start (c : Client) (arguments : List String) : Except IoError Reply :=
  if (c.program :: arguments).any (·.toList.contains '\x00') then .error .nulByte else c.run arguments

def call (c : Client) (arguments : List String) : Except Error (List UInt8) :=
  match c.start arguments with
  | .error cause => .error (.io cause)
  | .ok reply =>
    if reply.exit.succeeded then .ok reply.stdout
    else .error (.index (.exited c.program reply.exit (Text.trim (Text.Utf8.decodeLossy reply.stderr))))

def search (c : Client) (query : String) : Except Error (List Thread) :=
  match c.call (searchArguments query) with
  | .error e => .error e
  | .ok found =>
    match c.call (showArguments query) with
    | .error e => .error e
    | .ok shown => readThreads found shown

def savedQueries (c : Client) : Except Error (List SearchQuery) :=
  (c.call configArguments).map fun output => Index.savedQueries (Text.Utf8.decodeLossy output)

def tag (c : Client) (ids : List MessageId) (operations : List String) : Except Error Unit :=
  (c.call (tagArguments ids operations)).map fun _ => ()

end Client
end Triage.Index
