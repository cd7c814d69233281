import Triage.Index.Tree
import Triage.Text.Lines

/-! Threads put together from the two answers of a search. -/

namespace Triage.Index

def messageOf (threadId : String) (shown : Shown) : Message :=
  { Message.new shown.id threadId shown.filename.first with
    date := shown.timestamp.bind Seconds.date?
    tags := shown.tags
    subject := shown.headers.subject
    sender := shown.headers.sender
    recipient := shown.headers.recipient }

mutual

/-- A message comes before the replies to it; one that is not shown hides only itself. -/
def Node.messages (threadId : String) : Node → List Message
  | .node message replies => (message.map (messageOf threadId)).toList ++ forestMessages threadId replies

def forestMessages (threadId : String) : List Node → List Message
  | [] => []
  | n :: rest => n.messages threadId ++ forestMessages threadId rest

end

def splitAuthors (authors : String) : List String :=
  let bars := authors.toList.map fun c => if c = '|' then ',' else c
  ((Text.splitOn ',' bars).map (Text.trimBy Text.isBlank)).filterMap fun name =>
    if name.isEmpty then none else some (.ofList name)

def threadOf (summary : Summary) (forest : Forest) : Thread :=
  let messages := forestMessages summary.thread forest
  let dates := messages.filterMap (·.date)
  { id := summary.thread
    authors := splitAuthors summary.authors
    subject := summary.subject
    tags := summary.tags
    newest := dates.max?.or (summary.timestamp.bind Seconds.date?)
    oldest := dates.min?
    matched := summary.matched
    messages }

/-- Both answers list the threads in one order, so they must be equally many. -/
def assemble (summaries : List Summary) (forests : List Forest) : Except Error (List Thread) :=
  if summaries.length = forests.length then .ok (List.zipWith threadOf summaries forests)
  else .error (.index (.lengthMismatch summaries.length forests.length))

def readThreads (found shown : Json.Bytes) : Except Error (List Thread) :=
  match readSummaries found with
  | .error f => .error (.json f)
  | .ok summaries =>
    match readForests shown with
    | .error f => .error (.json f)
    | .ok forests => assemble summaries forests

end Triage.Index
