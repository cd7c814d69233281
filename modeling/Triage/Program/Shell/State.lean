import Triage.Error
import Triage.Program.Shell.Syntax
import Triage.Program.Stream

/-! A shell under way, and computations on it. -/

namespace Triage.Program

inductive Sink where
  | out
  | err
  | nothing
  | closed
  | capture (n : Nat)
  deriving DecidableEq, Repr

structure Write where
  time : Time
  sink : Sink
  root : Nat
  bytes : Bytes

namespace Shell

structure Job where
  pid : Nat
  parent : Nat
  endsAt : Option Time
  status : Nat

structure Sent where
  pid : Nat
  time : Time
  signal : Nat

/-- A background process keeps a capture open until it ends. -/
structure Hold where
  capture : Nat
  pid : Nat
  endsAt : Option Time

structure Context where
  owner : Nat := 1000
  /-- The background process that the process is a part of, or the first process of all. -/
  root : Nat := 1000
  /-- The process that the script calls its own, also within subshells. -/
  pid : Nat := 1000
  lastJob : Option Nat := none
  /-- The time until which the shell last waited for a child, and so learned of others that had ended. -/
  reapedAt : Time := 0
  name : String := "sh"
  args : List String := []
  vars : List (String × String) := []
  exports : List String := []
  status : Nat := 0
  /-- The line of the command that runs. -/
  line : Nat := 1
  /-- The status of the last command whose output was taken into a word. -/
  outputStatus : Option Nat := none
  /-- Actions by signals, an empty one for signals that are ignored. The end of the shell counts as signal 0. -/
  traps : List (Nat × String) := []
  sinks : List (Nat × Sink) := [(1, .out), (2, .err)]
  /-- How many loops surround what runs. -/
  loops : Nat := 0
  exitsOnError : Bool := false
  /-- Whether a failure of what runs decides about something, so that it ends nothing by itself. -/
  isTested : Bool := false

structure State extends Context where
  now : Time := 0
  /-- All writes so far, the latest first; those of background processes may be yet to come. -/
  writes : List Write := []
  /-- Captures that get one byte over and over after what was written. -/
  endless : List (Nat × UInt8) := []
  captures : Nat := 0
  holds : List Hold := []
  nextPid : Nat := 1001
  jobs : List Job := []
  sent : List Sent := []
  /-- The time at which everything is stopped from outside. -/
  limit : Option Time := none
  input : Stream := {}

inductive Stop where
  | exit (status : Nat)
  | killed (signal : Nat)
  | never
  | leave (loops : Nat)
  | again (loops : Nat)

end Shell

abbrev Shell := ExceptT Shell.Stop (StateM Shell.State)

namespace Shell

def signalNumbers : List (String × Nat) :=
  [("EXIT", 0), ("HUP", 1), ("INT", 2), ("QUIT", 3), ("ABRT", 6), ("KILL", 9), ("USR1", 10), ("SEGV", 11),
   ("USR2", 12), ("PIPE", 13), ("ALRM", 14), ("TERM", 15), ("CHLD", 17), ("CONT", 18), ("STOP", 19)]

def signalOf? (s : String) : Option Nat :=
  match s.toNat? with
  | some n => if n < 65 then some n else none
  | none => signalNumbers.lookup (if s.startsWith "SIG" then String.ofList (s.toList.drop 3) else s)

def deathNote : Nat → String
  | 1 => "Hangup\n"
  | 3 => "Quit\n"
  | 6 => "Aborted\n"
  | 9 => "Killed\n"
  | 10 => "User defined signal 1\n"
  | 11 => "Segmentation fault\n"
  | 12 => "User defined signal 2\n"
  | 14 => "Alarm clock\n"
  | 15 => "Terminated\n"
  | _ => ""

/-- Microseconds that a built-in command takes. -/
def quickCost : Time := 10

/-- Microseconds that it takes to start a process. -/
def startCost : Time := 1000

def sinkOf (s : State) (fd : Nat) : Sink := (s.sinks.lookup fd).getD .closed

def State.withSink (s : State) (fd : Nat) (sink : Sink) : State :=
  { s with sinks := (fd, sink) :: s.sinks.filter (·.1 != fd) }

def writeAt (time : Time) (fd : Nat) (bytes : Bytes) : Shell Unit :=
  modify fun s =>
    if bytes.isEmpty then s else { s with writes := ⟨time, sinkOf s fd, s.root, bytes⟩ :: s.writes }

def write (fd : Nat) (text : String) : Shell Unit := do writeAt (← get).now fd (bytesOf text)

def complain (problem : String) : Shell Unit := do
  write 2 ((← get).name ++ ": " ++ toString (← get).line ++ ": " ++ problem ++ "\n")

def setStatus (n : Nat) : Shell Unit := modify fun s => { s with status := n }

def setVar (name value : String) : Shell Unit :=
  modify fun s => { s with vars := (name, value) :: s.vars.filter (·.1 != name) }

def param? (s : State) (name : String) : Option String :=
  match name with
  | "?" => some (toString s.status)
  | "$" => some (toString s.pid)
  | "#" => some (toString s.args.length)
  | "!" => s.lastJob.map toString
  | "0" => some s.name
  | "@" => some (" ".intercalate s.args)
  | "*" => some (" ".intercalate s.args)
  | "-" => some ""
  | name =>
    match name.toNat? with
    | some n => if n = 0 then some s.name else s.args[n - 1]?
    | none => s.vars.lookup name

def written (writes : List Write) (sink : Sink) : List Chunk :=
  let own := (writes.filter (·.sink == sink)).reverse
  (own.mergeSort fun a b => a.time ≤ b.time).map fun w => ⟨w.time, w.bytes⟩

end Shell
end Triage.Program
