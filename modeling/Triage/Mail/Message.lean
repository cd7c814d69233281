import Triage.Mail.Flags
import Triage.Text.Blank

/-! A message of the mail index, its sender's name, and tag operations on it. -/

namespace Triage

abbrev Seconds := Int

namespace Seconds

def first : Seconds := -8334601228800
def last : Seconds := 8210266876799

def date? (s : Seconds) : Option Seconds := if first ≤ s ∧ s ≤ last then some s else none

end Seconds

abbrev MessageId := String
abbrev Tag := String

structure Message where
  id : MessageId := ""
  threadId : String := ""
  date : Option Seconds := none
  filename : String := ""
  tags : List Tag := []
  sender : String := ""
  recipient : String := ""
  subject : String := ""
  flags : Flags := {}
  deriving DecidableEq, Repr, Inhabited

/-- What one tag operation asks for: `-t` takes `t` away, `+t` or a bare `t` adds it. -/
inductive TagOperation where
  | remove (tag : Tag)
  | add (tag : Tag)
  deriving DecidableEq, Repr

namespace TagOperation

def parse (text : String) : TagOperation :=
  match text.toList with
  | '-' :: tag => .remove (.ofList tag)
  | '+' :: tag => .add (.ofList tag)
  | _ => .add text

def apply (tags : List Tag) : TagOperation → List Tag
  | .remove tag => tags.filter (· != tag)
  | .add tag => if tag = "" ∨ tag ∈ tags then tags else tags ++ [tag]

end TagOperation

namespace Message

def new (id : MessageId) (threadId filename : String) : Message :=
  { id, threadId, filename, flags := Flags.ofFilename filename }

def hasTag (m : Message) (tag : Tag) : Bool := m.tags.contains tag

def applyTags (m : Message) (operations : List String) : Message :=
  { m with tags := operations.foldl (fun tags text => (TagOperation.parse text).apply tags) m.tags }

def splitLast (c : Char) (cs : List Char) : Option (List Char × List Char) :=
  match cs.reverse.span (· != c) with
  | (after, _ :: before) => some (before.reverse, after.reverse)
  | (_, []) => none

/-- The display name of the sender: the words before the last `<`, without quotes around them; failing
those, the address between the last `<` and the last `>`; failing that, the whole header. -/
def senderName (m : Message) : String :=
  match splitLast '<' m.sender.toList with
  | none => Text.trim m.sender
  | some (before, after) =>
    let name := Text.trimBy Text.isBlank (Text.trimBy (· == '"') (Text.trimBy Text.isBlank before))
    if !name.isEmpty then .ofList name
    else
      match splitLast '>' after with
      | some (address, _) => .ofList address
      | none => Text.trim m.sender

end Message
end Triage
