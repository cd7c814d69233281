import Triage.Mail.Message

/-! A thread of messages as a search returns it. -/

namespace Triage

structure Thread where
  id : String := ""
  authors : List String := []
  subject : String := ""
  tags : List Tag := []
  newest : Option Seconds := none
  oldest : Option Seconds := none
  matched : Nat := 0
  messages : List Message := []
  deriving DecidableEq, Repr, Inhabited

namespace Thread

def messageCount (t : Thread) : Nat := t.messages.length

def applyTags (t : Thread) (ids : List MessageId) (operations : List String) : Thread :=
  { t with messages := t.messages.map fun m => if m.id ∈ ids then m.applyTags operations else m }

theorem messageCount_applyTags (t : Thread) (ids : List MessageId) (operations : List String) :
    (t.applyTags ids operations).messageCount = t.messageCount := List.length_map _

end Thread
end Triage
