import Triage.Json.Value
import Triage.Mail.Thread

/-! What the mail index prints for a search: one summary per thread, and the reply tree of its messages. -/

namespace Triage.Index

structure Summary where
  thread : String
  authors : String := ""
  subject : String := ""
  tags : List Tag := []
  matched : Nat := 0
  timestamp : Option Int := none
  deriving DecidableEq, Repr, Inhabited

structure Headers where
  subject : String := ""
  sender : String := ""
  recipient : String := ""
  deriving DecidableEq, Repr, Inhabited

inductive Filenames where
  | one (name : String)
  | many (names : List String)
  deriving DecidableEq, Repr, Inhabited

def Filenames.first : Filenames → String
  | .one name => name
  | .many names => names.headD ""

structure Shown where
  id : MessageId
  filename : Filenames := .many []
  timestamp : Option Int := none
  tags : List Tag := []
  headers : Headers := {}
  deriving DecidableEq, Repr, Inhabited

inductive Node where
  | node (message : Option Shown) (replies : List Node)

instance : Inhabited Node := ⟨.node none []⟩

abbrev Forest := List Node

open Json (Reader Member)

structure PartialSummary where
  thread : Option String := none
  authors : Option String := none
  subject : Option String := none
  tags : Option (List Tag) := none
  matched : Option Nat := none
  timestamp : Option (Option Int) := none

def summaryMembers : List (Member PartialSummary) :=
  [{ name := "thread", isRequired := true, isGiven := (·.thread.isSome),
     read := fun _ s => return { s with thread := some (← Json.text) } },
   { name := "authors", isGiven := (·.authors.isSome),
     read := fun _ s => return { s with authors := some (← Json.text) } },
   { name := "subject", isGiven := (·.subject.isSome),
     read := fun _ s => return { s with subject := some (← Json.text) } },
   { name := "tags", isGiven := (·.tags.isSome),
     read := fun d s => return { s with tags := some (← Json.list (fun _ => Json.text) d) } },
   { name := "matched", isGiven := (·.matched.isSome),
     read := fun _ s => return { s with matched := some (← Json.unsigned64) } },
   { name := "timestamp", isGiven := (·.timestamp.isSome),
     read := fun _ s => return { s with timestamp := some (← Json.optional Json.signed64) } }]

def PartialSummary.complete (s : PartialSummary) : Summary :=
  { thread := s.thread.getD "", authors := s.authors.getD "", subject := s.subject.getD "", tags := s.tags.getD [],
    matched := s.matched.getD 0, timestamp := s.timestamp.getD none }

def readSummary (depth : Nat) : Reader Summary :=
  return (← Json.record summaryMembers {} depth).complete

structure PartialHeaders where
  subject : Option String := none
  sender : Option String := none
  recipient : Option String := none

def headerMembers : List (Member PartialHeaders) :=
  [{ name := "Subject", isGiven := (·.subject.isSome),
     read := fun _ h => return { h with subject := some (← Json.text) } },
   { name := "From", isGiven := (·.sender.isSome),
     read := fun _ h => return { h with sender := some (← Json.text) } },
   { name := "To", isGiven := (·.recipient.isSome),
     read := fun _ h => return { h with recipient := some (← Json.text) } }]

def PartialHeaders.complete (h : PartialHeaders) : Headers :=
  { subject := h.subject.getD "", sender := h.sender.getD "", recipient := h.recipient.getD "" }

def readHeaders (depth : Nat) : Reader Headers :=
  return (← Json.record headerMembers {} depth).complete

def readFilename (depth : Nat) : Reader Filenames := do
  match ← Json.value depth with
  | .text name => pure (.one name)
  | .list items =>
    match Json.Value.texts? items with
    | some names => pure (.many names)
    | none => Json.fault .dataFault
  | _ => Json.fault .dataFault

structure PartialShown where
  id : Option String := none
  filename : Option Filenames := none
  timestamp : Option (Option Int) := none
  tags : Option (List Tag) := none
  headers : Option Headers := none

def shownMembers : List (Member PartialShown) :=
  [{ name := "id", isRequired := true, isGiven := (·.id.isSome),
     read := fun _ m => return { m with id := some (← Json.text) } },
   { name := "filename", isGiven := (·.filename.isSome),
     read := fun d m => return { m with filename := some (← readFilename d) } },
   { name := "timestamp", isGiven := (·.timestamp.isSome),
     read := fun _ m => return { m with timestamp := some (← Json.optional Json.signed64) } },
   { name := "tags", isGiven := (·.tags.isSome),
     read := fun d m => return { m with tags := some (← Json.list (fun _ => Json.text) d) } },
   { name := "headers", isGiven := (·.headers.isSome),
     read := fun d m => return { m with headers := some (← readHeaders d) } }]

def PartialShown.complete (m : PartialShown) : Shown :=
  { id := m.id.getD "", filename := m.filename.getD (.many []), timestamp := m.timestamp.getD none,
    tags := m.tags.getD [], headers := m.headers.getD {} }

def readShown (depth : Nat) : Reader Shown :=
  return (← Json.record shownMembers {} depth).complete

mutual

/-- A node takes one container of its own, and its replies another. -/
def readNode : Nat → Reader Node
  | 0 => do if (← Json.peek?) == some 0x5B then Json.fault .syntaxFault else Json.mismatch
  | depth + 1 => do
    let (message, replies) ←
      Json.pair (fun _ => Json.optional (readShown depth)) (fun _ => readForest depth) (depth + 1)
    pure (.node message replies)

def readForest : Nat → Reader Forest
  | 0 => do if (← Json.peek?) == some 0x5B then Json.fault .syntaxFault else Json.mismatch
  | depth + 1 => Json.list (fun _ => readNode depth) (depth + 1)

end

def readSummaries (input : Json.Bytes) : Except JsonFault (List Summary) :=
  Json.document (Json.list readSummary Json.depthLimit) input

def readForests (input : Json.Bytes) : Except JsonFault (List Forest) :=
  Json.document (Json.list readForest Json.depthLimit) input

end Triage.Index
