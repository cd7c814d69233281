import Triage.Program.Spawn

/-!
Programs that run side by side. Each request is a task of its own, which waits for a slot, starts its program, and in
the end sends one result. A limit bounds how many tasks hold a slot. The steps of the tasks may come in any order; a
step that a task cannot take changes nothing.
-/

namespace Triage

namespace Executor

inductive Phase where
  | waiting
  | admitted
  | running
  /-- The program has ended or could not be started, and the result is not sent yet. -/
  | stopped (result : SpawnResult)
  | sent
  | ended
  deriving DecidableEq, Repr

def Phase.holdsSlot : Phase → Bool
  | .waiting | .ended => false
  | _ => true

structure Task where
  request : SpawnRequest
  phase : Phase := .waiting
  deriving DecidableEq, Repr

inductive Action where
  | execute (request : SpawnRequest)
  | acquire (task : Nat)
  /-- The program of a task starts, or there is a problem with that. -/
  | start (task : Nat) (problem : Option String)
  | finish (task : Nat) (remains : Remains)
  | send (task : Nat)
  | leave (task : Nat)
  deriving DecidableEq, Repr

namespace Task

def holdsSlot (t : Task) : Bool := t.phase.holdsSlot

def isRunning (t : Task) : Bool := t.phase == .running

def acquire (t : Task) : Task := if t.phase = .waiting then { t with phase := .admitted } else t

def start (problem : Option String) (t : Task) : Task :=
  if t.phase = .admitted then
    match t.request.argv, problem with
    | [], _ => { t with phase := .stopped (t.request.failure Program.emptyProblem) }
    | _, some problem => { t with phase := .stopped (t.request.failure problem) }
    | _, none => { t with phase := .running }
  else t

def finish (remains : Remains) (t : Task) : Task :=
  if t.phase = .running ∧ (remains.outcome = .timedOut → t.request.deadline?.isSome) then
    { t with phase := .stopped (t.request.result remains) }
  else t

def result? (t : Task) : Option SpawnResult :=
  match t.phase with
  | .stopped result => some result
  | _ => none

def markSent (t : Task) : Task := if t.result?.isSome then { t with phase := .sent } else t

def leave (t : Task) : Task := if t.phase = .sent then { t with phase := .ended } else t

end Task
end Executor

/-- Tasks by the order of their requests, and the results that were sent, in the order in which they were. -/
structure Executor where
  limit : Option Nat := none
  tasks : List Executor.Task := []
  results : List SpawnResult := []
  deriving DecidableEq, Repr

namespace Executor

/-- An executor with so many slots, but always with one. -/
def withLimit (n : Nat) : Executor := { limit := some (max n 1) }

def slotsTaken (e : Executor) : Nat := e.tasks.countP Task.holdsSlot

def running (e : Executor) : Nat := e.tasks.countP Task.isRunning

def hasFreeSlot (e : Executor) : Bool := e.limit.all (e.slotsTaken < ·)

def change (e : Executor) (i : Nat) (f : Task → Task) : Executor := { e with tasks := e.tasks.modify i f }

def outgoing (e : Executor) (i : Nat) : List SpawnResult := ((e.tasks[i]?).bind Task.result?).toList

def step (e : Executor) : Action → Executor
  | .execute request => { e with tasks := e.tasks ++ [{ request }] }
  | .acquire i => if e.hasFreeSlot then e.change i Task.acquire else e
  | .start i problem => e.change i (Task.start problem)
  | .finish i remains => e.change i (Task.finish remains)
  | .send i => { e.change i Task.markSent with results := e.results ++ e.outgoing i }
  | .leave i => e.change i Task.leave

def run (e : Executor) (actions : List Action) : Executor := actions.foldl step e

def requests (e : Executor) : List SpawnRequest := e.tasks.map Task.request

def course? (i : Nat) (r : SpawnRequest) : Option (List Action) :=
  match Program.startProblem? r with
  | some problem => some [.acquire i, .start i (some problem), .send i, .leave i]
  | none =>
    (Program.run r).map fun result =>
      let remains := { stdout := result.stdout, stderr := result.stderr, outcome := result.outcome }
      [.acquire i, .start i none, .finish i remains, .send i, .leave i]

/-- The actions that execute requests and then let each task run in its turn. -/
def schedule? (requests : List SpawnRequest) : Option (List Action) := do
  let courses ← (requests.mapIdx fun i r => (i, r)).mapM fun (i, r) => course? i r
  return requests.map .execute ++ courses.flatten

def results? (e : Executor) (requests : List SpawnRequest) : Option (List SpawnResult) :=
  (schedule? requests).map fun actions => (e.run actions).results

end Executor
end Triage
