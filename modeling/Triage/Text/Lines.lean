/-! Lines of a text: each ends at a line feed, which may follow a carriage return. -/

namespace Triage.Text

def splitOn (sep : Char) : List Char → List (List Char)
  | [] => [[]]
  | c :: rest =>
    if c = sep then [] :: splitOn sep rest
    else
      match splitOn sep rest with
      | [] => [[c]]
      | piece :: pieces => (c :: piece) :: pieces

def dropReturn (line : List Char) : List Char :=
  if line.getLast? = some '\r' then line.dropLast else line

/-- A text's last line may go without a line feed; then its carriage return stays, and it counts if non-empty. -/
def linesOf : List (List Char) → List (List Char)
  | [] => []
  | [last] => if last.isEmpty then [] else [last]
  | line :: rest => dropReturn line :: linesOf rest

def lines (s : String) : List String := (linesOf (splitOn '\n' s.toList)).map .ofList

end Triage.Text
