import Triage.Mail.Query
import Triage.Text.Lines

/-! Saved queries in the configuration of the mail index: lines `query.<name>=<text>`. -/

namespace Triage.Index

def afterStart? : List Char → List Char → Option (List Char)
  | [], cs => some cs
  | _ :: _, [] => none
  | s :: start, c :: cs => if s = c then afterStart? start cs else none

def savedQuery? (line : List Char) : Option SearchQuery :=
  match afterStart? "query.".toList line with
  | none => none
  | some entry =>
    match entry.span (· != '=') with
    | (name, _ :: text) => if name.isEmpty || text.isEmpty then none else some ⟨.ofList name, .ofList text⟩
    | (_, []) => none

def savedQueries (config : String) : List SearchQuery :=
  (Text.linesOf (Text.splitOn '\n' config.toList)).filterMap savedQuery?

end Triage.Index
