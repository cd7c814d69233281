import Triage.Mail.Message

/-! Argument lists of the mail index program. -/

namespace Triage.Index

def doubleQuotes (cs : List Char) : List Char :=
  cs.flatMap fun c => if c = '"' then ['"', '"'] else [c]

def idTerm (id : MessageId) : String := .ofList ("id:\"".toList ++ doubleQuotes id.toList ++ ['"'])

def tagArguments (ids : List MessageId) (operations : List String) : List String :=
  "tag" :: operations ++ "--" :: ids.map idTerm

def searchArguments (query : String) : List String :=
  ["search", "--format=json", "--output=summary", "--sort=newest-first", query]

def showArguments (query : String) : List String :=
  ["show", "--format=json", "--entire-thread=false", "--body=false", "--sort=newest-first", query]

def configArguments : List String := ["config", "list"]

end Triage.Index
