import Triage.Handle

/-! Commands: what a script asks the application to do. -/

namespace Triage

structure SpawnRequest where
  argv : List String
  timeoutMillis : Option Nat
  handle : Handle
  deriving DecidableEq, Repr, Inhabited

inductive SpawnOutcome where
  | completed (exitCode : Int)
  | timedOut
  deriving DecidableEq, Repr

structure SpawnResult where
  handle : Handle
  argv : List String
  stdout : String
  stderr : String
  outcome : SpawnOutcome
  deriving DecidableEq, Repr

inductive Command where
  | quit
  | refresh
  | newQuery (text : String)
  | nextQuery
  | previousQuery
  | toggleMarks
  | invertMarks
  | clearMarks
  | openInput (label placeholder : String) (handle : Handle)
  | setStatus (text : String)
  | batch (items : List Command)
  | spawn (request : SpawnRequest)
  deriving Repr, Inhabited

namespace Command

def name : Command → String
  | .quit => "quit"
  | .refresh => "refresh"
  | .newQuery _ => "new_query"
  | .nextQuery => "next_query"
  | .previousQuery => "previous_query"
  | .toggleMarks => "toggle_marks"
  | .invertMarks => "invert_marks"
  | .clearMarks => "clear_marks"
  | .openInput .. => "open_input"
  | .setStatus _ => "set_status"
  | .batch _ => "batch"
  | .spawn _ => "spawn"

mutual

def leaves : Command → List Command
  | .batch items => leavesOf items
  | .quit => [.quit]
  | .refresh => [.refresh]
  | .newQuery text => [.newQuery text]
  | .nextQuery => [.nextQuery]
  | .previousQuery => [.previousQuery]
  | .toggleMarks => [.toggleMarks]
  | .invertMarks => [.invertMarks]
  | .clearMarks => [.clearMarks]
  | .openInput label placeholder handle => [.openInput label placeholder handle]
  | .setStatus text => [.setStatus text]
  | .spawn request => [.spawn request]

def leavesOf : List Command → List Command
  | [] => []
  | c :: rest => c.leaves ++ leavesOf rest

end

def ofList : List Command → Option Command
  | [] => none
  | [c] => some c
  | cs => some (.batch cs)

end Command
end Triage
