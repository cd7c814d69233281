import Triage.Script.Evaluate
import Triage.Script.Globals
import Triage.Script.Parse
import Triage.Script.Source

/-!
Dispatch: how the application calls into a loaded script. What a binding or callback yields is unwrapped into
commands, in which the spawn requests made meanwhile come first. A callback is taken before it is called.
-/

namespace Triage.Dispatch

open Script

variable {σ : Type} [Host σ]

/-- How many functions and tables stand around a value that is still unwrapped. -/
def unwrapLimit : Nat := 32

/-- What the running of a script is charged to: more than any machine can spend. -/
def fuel : Nat := 0x10000000000

inductive KeyAnswer where
  | unhandled
  | handled (commands : List Command)
  deriving Repr

def report (e : Error) : Eval σ Unit := Eval.modifyHost (Host.report · e)

section Unwrapping

variable (self : Recur σ)

def call? (f : Nat) (args : List Value) : Eval σ (Option (List Value)) := do
  match ← Capability.guarded self (self.call (.function f) args {}) {} with
  | .ok vs => pure (some vs)
  | .error cause =>
    report (.script cause)
    pure none

/-- A command as it is. A prompt is opened at once. -/
def present (c : Command) : Eval σ Command := do
  match c with
  | .openInput label placeholder handle =>
    Eval.onSession fun s => ((), s.openPrompt ⟨label, placeholder, handle⟩)
    pure c
  | c => pure c

def collect (unwrap : Value → Eval σ (Option Command)) : List Value → Eval σ (List Command)
  | [] => pure []
  | v :: rest => do
    let c ← unwrap v
    return c.toList ++ (← collect unwrap rest)

def unwrap : (levels : Nat) → Value → Eval σ (Option Command)
  | 0, _ => do
    report (.script (.raised ("command nested deeper than " ++ toString unwrapLimit ++ " levels")))
    pure none
  | levels + 1, .function f => do
    match ← call? self f [] with
    | some vs => return Command.ofList (← collect (unwrap levels) vs)
    | none => pure none
  | _ + 1, .object r => do
    match ← Eval.readHeap (·.objects[r]?) with
    | some (.command c) => return some (← present c)
    | _ => pure none
  | levels + 1, .table r => do
    let vs ← Eval.readHeap fun h => (h.table r).sequence
    return Command.ofList (← collect (unwrap levels) vs)
  | _ + 1, _ => pure none

def finish (c : Option Command) : Eval σ (List Command) :=
  Eval.onSession fun s => let (rs, s) := s.drain; (rs.map Command.spawn ++ c.toList, s)

def invoke (f : Nat) (args : List Value) : Eval σ (List Command) := do
  match ← call? self f args with
  | some vs => finish (Command.ofList (← collect (unwrap self unwrapLimit) vs))
  | none => finish none

end Unwrapping

section Entries

variable (self : Recur σ)

def lookup (owner : Nat) (name : String) : Eval σ (Except Error Value) :=
  return (← Capability.guarded self (self.index (.table owner) (Capability.textValue name) {}) {}).mapError .script

def onStartup : Eval σ (List Command) := do
  match ← lookup self (← Eval.readHeap (·.globals)) "on_startup" with
  | .ok (.function f) => finish (← unwrap self unwrapLimit (.function f))
  | .ok _ => finish none
  | .error e =>
    report e
    finish none

def binding (key : String) : Eval σ (Except Error Value) := do
  match ← lookup self (← Eval.readHeap (·.globals)) "key" with
  | .ok (.table keys) => lookup self keys key
  | .ok .nil => pure (.ok .nil)
  | .ok v => pure (.error (.config (.keyTable v.kind)))
  | .error e => pure (.error e)

def onKey (key : String) : Eval σ KeyAnswer := do
  match ← binding self key with
  | .ok .nil => pure .unhandled
  | .ok v => return .handled (← finish (← unwrap self unwrapLimit v))
  | .error e =>
    report e
    pure .unhandled

def resolve (h : Handle) (args : List Value) : Eval σ (List Command) := do
  match ← Eval.onSession (·.take h) with
  | some f => invoke self f args
  | none => pure []

/-- A finished program as a table; the exit code is there unless time ran out. -/
def spawnPayload (r : SpawnResult) : Eval σ Value := do
  let argv ← newList (r.argv.map Capability.textValue)
  let exitCode := match r.outcome with
    | .completed n => .int (.ofInt n)
    | .timedOut => .nil
  let fields : List (String × Value) :=
    [("argv", argv), ("stdout", Capability.textValue r.stdout), ("stderr", Capability.textValue r.stderr),
     ("timeout", .bool (r.outcome == .timedOut)), ("exit_code", exitCode)]
  Eval.onHeap fun h =>
    let (t, h) := h.newTable (fields.foldl (fun t (name, v) => t.set (.text name.toUTF8) v) {})
    (.table t, h)

def onSpawnResult (r : SpawnResult) : Eval σ (List Command) := do
  match ← Eval.onSession (·.take r.handle) with
  | some f => invoke self f [← spawnPayload r]
  | none => pure []

def submitInput (text : String) : Eval σ (List Command) := do
  match ← Eval.onSession Session.closePrompt with
  | some p => resolve self p.handle [Capability.textValue text]
  | none => pure []

def cancelInput : Eval σ (Option Prompt) := do
  match ← Eval.onSession Session.closePrompt with
  | some p =>
    Eval.onSession fun s => ((), s.cancel p)
    pure (some p)
  | none => pure none

def start (s : Source) : Eval σ (Except Error Unit) := do
  match parse? (Text.Utf8.encode s.text) with
  | none => pure (.error (.scriptLoad s.name (.parse "the script cannot be read")))
  | some body =>
    Eval.modifyHeap fun _ => Globals.heapFor s.name
    match ← Capability.guarded self (Evaluate.closureCall self (.mk [] true body) [] [] {}) {} with
    | .ok _ => pure (.ok ())
    | .error cause => pure (.error (.scriptLoad s.name cause))

end Entries

/-- An entry call from a state of the script; none if the script never ends. -/
def enter {α : Type} (m : Machine σ) (entry : Recur σ → Eval σ α) : Option (α × Machine σ) :=
  match entry (evaluate fuel) m with
  | .done a m => some (a, m)
  | .raised .. => none
  | .exhausted => none

def load (host : σ) (s : Source) : Option (Except Error Unit × Machine σ) :=
  enter ({ host } : Machine σ) (start · s)

end Triage.Dispatch
