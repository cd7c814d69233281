import Triage.Error
import Triage.Mail.Message
import Triage.Theme

/-! What scripts may see of the application and do to it, whatever stands behind it. -/

namespace Triage

class Host (σ : Type) where
  /-- The current status text. -/
  status : σ → String
  /-- Every listed message in row order. -/
  allMessages : σ → List Message
  /-- The marked messages in row order. -/
  markedMessages : σ → List Message
  /-- The message under the cursor. -/
  selectedMessage? : σ → Option Message
  /-- Applies tag operations; scripts see their effect from their next step on. -/
  tag : σ → List MessageId → List String → Except Error Unit × σ
  setTheme : σ → Theme → σ
  /-- Writes a line of a script's log, at a level given in capitals. -/
  log : σ → String → String → σ
  /-- Notes a failure that the script survives. -/
  report : σ → Error → σ

inductive LogLevel where
  | trace
  | debug
  | info
  | warn
  | error
  deriving DecidableEq, Repr

def LogLevel.name : LogLevel → String
  | .trace => "TRACE"
  | .debug => "DEBUG"
  | .info => "INFO"
  | .warn => "WARN"
  | .error => "ERROR"

structure LogLine where
  level : LogLevel
  message : String
  unknownLevel : Option String := none
  deriving DecidableEq, Repr

def LogLine.of (level message : String) : LogLine :=
  match level with
  | "TRACE" => { level := .trace, message }
  | "DEBUG" => { level := .debug, message }
  | "INFO" => { level := .info, message }
  | "WARN" => { level := .warn, message }
  | "WARNING" => { level := .warn, message }
  | "ERROR" => { level := .error, message }
  | other => { level := .info, message, unknownLevel := some other }

/-- A host without an application behind it: it serves a fixed listing and records all that scripts do. -/
structure MemoryHost where
  status : String := ""
  messages : List Message := []
  marked : List Nat := []
  selected : Option Nat := none
  tagCalls : List (List MessageId × List String) := []
  theme : Option Theme := none
  logs : List (String × String) := []
  errors : List Error := []

namespace MemoryHost

def ofMessages (messages : List Message) : MemoryHost :=
  { messages, selected := if messages.isEmpty then none else some 0 }

def dedup : List Nat → List Nat
  | row :: next :: rest => if row = next then dedup (next :: rest) else row :: dedup (next :: rest)
  | rows => rows

def markedMessages (h : MemoryHost) : List Message := (dedup h.marked.mergeSort).filterMap (h.messages[·]?)

def tag (h : MemoryHost) (ids : List MessageId) (operations : List String) : MemoryHost :=
  { h with
    messages := h.messages.map fun m => if m.id ∈ ids then m.applyTags operations else m
    tagCalls := h.tagCalls ++ [(ids, operations)] }

instance : Host MemoryHost where
  status := (·.status)
  allMessages := (·.messages)
  markedMessages := markedMessages
  selectedMessage? h := h.selected.bind (h.messages[·]?)
  tag h ids operations := (.ok (), h.tag ids operations)
  setTheme h theme := { h with theme := some theme }
  log h level message := { h with logs := h.logs ++ [(level, message)] }
  report h e := { h with errors := h.errors ++ [e] }

end MemoryHost
end Triage
