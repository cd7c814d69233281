import Triage.History
import Triage.Host
import Triage.Index.Client
import Triage.Listing
import Triage.Queries
import Triage.Status

/-! What a person works with, and how scripts reach it. -/

namespace Triage.App

structure State where
  messages : Listing := default
  queries : Queries := default
  status : Status := {}
  theme : Theme := {}
  /-- What was submitted to each prompt. -/
  history : History := {}
  /-- The entry recalled into the open prompt. -/
  draft : Option String := none
  deriving Inhabited

/-- The state as a host of scripts: tag operations go through the mail index, and failures become notifications. -/
structure Desk where
  state : State
  index : Index.Client
  /-- The time of the present step. -/
  now : Instant := 0
  clock : Clock := {}
  /-- The command lines with which the index changed tags or failed to. -/
  tagRuns : List (List String) := []

namespace Desk

/-- Notes a run of the index, unless it was never started. -/
def noteRun (d : Desk) (arguments : List String) : Desk :=
  match d.index.start arguments with
  | .ok _ => { d with tagRuns := d.tagRuns ++ [arguments] }
  | .error _ => d

def tag (d : Desk) (ids : List MessageId) (operations : List String) : Except Error Unit × Desk :=
  let noted := d.noteRun (Index.tagArguments ids operations)
  match d.index.tag ids operations with
  | .ok () => (.ok (), { noted with state := { d.state with messages := d.state.messages.applyTags ids operations } })
  | .error e => (.error e, noted)

def notifyError (d : Desk) (message : String) : Desk :=
  { d with state := { d.state with status := d.state.status.notifyAt .error message d.now d.clock.second } }

instance : Host Desk where
  status d := d.state.status.text
  allMessages d := d.state.messages.rows
  markedMessages d := d.state.messages.markedMessages
  selectedMessage? d := d.state.messages.selectedMessage?
  tag := tag
  setTheme d theme := { d with state := { d.state with theme } }
  /- The log is written elsewhere and read by nobody here. -/
  log d _ _ := d
  report d e := d.notifyError e.message

end Desk
end Triage.App
