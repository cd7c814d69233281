import Triage.Calendar

/-! The status text, and the notifications shown for a while in its place. -/

namespace Triage

inductive Severity where
  | info
  | warning
  | error
  deriving DecidableEq, Repr, Inhabited

namespace Severity

def rank : Severity → Nat
  | .info => 0
  | .warning => 1
  | .error => 2

def parse (name : String) : Severity :=
  let name := name.map Char.toLower
  if name = "warn" ∨ name = "warning" then .warning else if name = "error" then .error else .info

def lifetime : Severity → Nat
  | .info => 5
  | .warning => 8
  | .error => 12

end Severity

structure Notification where
  message : String
  severity : Severity
  raisedAt : Instant
  expiresAt : Instant
  deriving DecidableEq, Repr

/-- At most one notification of each severity waits, the most severe first. -/
structure Status where
  text : String := ""
  notifications : List Notification := []
  deriving DecidableEq, Repr, Inhabited

namespace Status

def set (s : Status) (text : String) : Status := { s with text }

def clear (s : Status) : Status := s.set ""

def insert (n : Notification) : List Notification → List Notification
  | [] => [n]
  | m :: rest => if m.severity.rank < n.severity.rank then n :: m :: rest else m :: insert n rest

def notifyAt (s : Status) (severity : Severity) (message : String) (now : Instant) (second : Nat := 1000) : Status :=
  let n : Notification := ⟨message, severity, now, now + second * severity.lifetime⟩
  { s with notifications := insert n (s.notifications.filter (·.severity != severity)) }

def expire (s : Status) (now : Instant) : Status :=
  { s with notifications := s.notifications.filter (now < ·.expiresAt) }

def notificationAt? (s : Status) (now : Instant) : Option Notification :=
  s.notifications.find? (now < ·.expiresAt)

def currentAt (s : Status) (now : Instant) : String :=
  match s.notificationAt? now with
  | some n => n.message
  | none => s.text

end Status
end Triage
