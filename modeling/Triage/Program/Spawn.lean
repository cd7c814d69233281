import Triage.Command
import Triage.Program.Shell.Run

/-!
Running the program of a request: how it ends, and what of its output is kept. A program that cannot be started has a
result like any other.
-/

namespace Triage

structure Remains where
  stdout : String := ""
  stderr : String := ""
  outcome : SpawnOutcome
  deriving DecidableEq, Repr

def failedExitCode : Int := -1

namespace SpawnRequest

def result (r : SpawnRequest) (remains : Remains) : SpawnResult :=
  { handle := r.handle, argv := r.argv, stdout := remains.stdout, stderr := remains.stderr,
    outcome := remains.outcome }

def failure (r : SpawnRequest) (problem : String) : SpawnResult :=
  r.result { stderr := problem, outcome := .completed failedExitCode }

def deadline? (r : SpawnRequest) : Option Program.Time := (r.timeoutMillis.filter (0 < ·)).map (· * 1000)

end SpawnRequest

namespace Program

/-- How long output is read after a program has ended. -/
def drainTime : Time := 250000

/-- How deep the parts of a script may lie within each other, and how often a loop may go round. Every round takes some
time, so that what has a deadline reaches that first. -/
def depthLimit (deadline : Option Time) : Nat := 200000 + deadline.getD 0

/-- The bytes from which on one argument is too long. -/
def argumentLimit : Nat := 131072

def programOf (name : String) (args : List String) : Except IoError String :=
  if (name :: args).any (·.toList.contains '\x00') then .error .nulByte
  else
    match System.find name with
    | .error cause => .error cause
    | .ok program =>
      if (name :: args).any (argumentLimit ≤ ·.utf8ByteSize) then .error .argumentTooLong else .ok program

def emptyProblem : String := "empty command line"

def startProblem? (r : SpawnRequest) : Option String :=
  match r.argv with
  | [] => some emptyProblem
  | name :: args =>
    match programOf name args with
    | .error cause => some (name ++ ": " ++ cause.message)
    | .ok _ => none

def textUntil (s : Shell.State) (sink : Sink) (time : Time) : String :=
  let chunks := (Shell.written s.writes sink).takeWhile (·.time ≤ time)
  Text.Utf8.decodeLossy (chunks.flatMap (·.bytes))

def remainsOf (deadline : Option Time) (stop : Shell.Stop) (s : Shell.State) : Option Remains :=
  let until_ (time : Time) (outcome : SpawnOutcome) : Remains :=
    { stdout := textUntil s .out time, stderr := textUntil s .err time, outcome }
  match stop with
  | .exit n => some (until_ (s.now + drainTime) (.completed n))
  | .killed _ => some (until_ (s.now + drainTime) (.completed failedExitCode))
  | _ => deadline.map fun t => until_ t .timedOut

def runArgv (deadline : Option Time) (name : String) (args : List String) : Option Remains :=
  match programOf name args with
  | .error _ => none
  | .ok program =>
    let body := Shell.runProgram (Shell.perform (depthLimit deadline)) name program args
    let (ended, s) := body { limit := deadline }
    let stop := match ended with
      | .ok () => .exit s.status
      | .error stop => stop
    remainsOf deadline stop s

def run (r : SpawnRequest) : Option SpawnResult :=
  match startProblem? r with
  | some problem => some (r.failure problem)
  | none => (runArgv r.deadline? (r.argv.headD "") r.argv.tail).map r.result

end Program
end Triage
