import Triage.Callbacks
import Triage.Command
import Triage.Prompts

/-!
What a loaded script and its host share beside the script's own memory: callbacks that wait, prompts that are open,
and spawn requests that were made but not handed over yet. A journal keeps what became of handles and requests. No
step depends on it; it is there for what is said about whole runs.
-/

namespace Triage

inductive Session.Purpose where
  | prompt (o : PromptOptions)
  | program
  deriving DecidableEq, Repr

inductive Session.Event where
  | minted (h : Handle) (purpose : Session.Purpose)
  | registered (h : Handle) (callback : Nat)
  | accepted (r : SpawnRequest)
  /-- A callback is called, for the only time. -/
  | invoked (h : Handle) (callback : Nat)
  /-- A prompt is closed without a call. -/
  | cancelled (p : Prompt)
  deriving DecidableEq, Repr

structure Session where
  inputHandles : HandleGenerator := { stem := "glance.input_callback" }
  spawnHandles : HandleGenerator := { stem := "glance.spawn_callback" }
  /-- Callbacks are references to functions of the script. -/
  callbacks : Callbacks Nat := {}
  prompts : Prompts := {}
  /-- Requests in the order in which they were made. -/
  outbox : List SpawnRequest := []
  /-- All that happened, the latest first. -/
  journal : List Session.Event := []
  deriving Inhabited

namespace Session

def note (s : Session) (e : Event) : Session := { s with journal := e :: s.journal }

def hold (s : Session) (h : Handle) (f : Nat) : Session :=
  { s with callbacks := s.callbacks.insert h f }.note (.registered h f)

def register (s : Session) (h : Handle) (offer : Offer Nat) : Except Error Session :=
  (s.callbacks.register h offer).map fun callbacks =>
    match offer with
    | .function f => { s with callbacks }.note (.registered h f)
    | _ => { s with callbacks }

def mintInput (s : Session) (o : PromptOptions) : Handle × Session :=
  let (h, inputHandles) := s.inputHandles.next
  let s := { s with inputHandles }.note (.minted h (.prompt o))
  match o.callback with
  | some f => (h, s.hold h f)
  | none => (h, s)

def mintSpawn (s : Session) : Handle × Session :=
  let (h, spawnHandles) := s.spawnHandles.next
  (h, { s with spawnHandles }.note (.minted h .program))

def accept (s : Session) (r : SpawnRequest) : Session := { s with outbox := s.outbox ++ [r] }.note (.accepted r)

def drain (s : Session) : List SpawnRequest × Session := (s.outbox, { s with outbox := [] })

def openPrompt (s : Session) (p : Prompt) : Session := { s with prompts := s.prompts.push p }

def closePrompt (s : Session) : Option Prompt × Session :=
  let (p, prompts) := s.prompts.pop
  (p, { s with prompts })

def cancel (s : Session) (p : Prompt) : Session :=
  { s with callbacks := s.callbacks.discard p.handle }.note (.cancelled p)

def take (s : Session) (h : Handle) : Option Nat × Session :=
  match s.callbacks.take h with
  | some (f, callbacks) => (some f, { s with callbacks }.note (.invoked h f))
  | none => (none, s)

end Session
end Triage
