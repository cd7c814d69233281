import Triage.App.State
import Triage.Calendar
import Triage.Prompts

/-!
The screen: a line of queries, the message rows around the selected one, a status line, and the open prompt. It is laid
out as pieces of text, each with a color of the theme or none, and painted last.
-/

namespace Triage.App

structure Piece where
  text : String
  color : Option (Theme → String) := none

namespace Piece

def plain (text : String) : Piece := { text }

def colored (text : String) (color : Theme → String) : Piece := { text, color := some color }

end Piece

namespace Screen

def paletteNumber? (color : String) : Option Nat :=
  let digits := match color.toList with
    | '+' :: cs => cs
    | cs => cs
  if digits.isEmpty || !digits.all Char.isDigit then none
  else
    let n := digits.foldl (fun n c => n * 10 + (c.toNat - '0'.toNat)) 0
    if n < 256 then some n else none

def paintText (text color : String) : String :=
  match paletteNumber? color with
  | some n => "\x1b[38;5;" ++ toString n ++ "m" ++ text ++ "\x1b[0m"
  | none => text

def paintPiece (theme : Theme) (p : Piece) : String :=
  match p.color with
  | some color => paintText p.text (color theme)
  | none => p.text

def paint (theme : Theme) (ps : List Piece) : String := String.join (ps.map (paintPiece theme))

def senderWidth : Nat := 20

def spaces (n : Nat) : String := .ofList (List.replicate n ' ')

def fit (width : Nat) (text : String) : String :=
  if text.length ≤ width then text ++ spaces (width - text.length)
  else .ofList (text.toList.take (width - 1) ++ [SearchQuery.ellipsis])

def alignRight (width : Nat) (text : String) : String := spaces (width - text.length) ++ text

/-- The time for a date of today, else month and day. -/
def dateText (now : Instant) (clock : Clock) : Option Seconds → String
  | none => ""
  | some date =>
    let shown := clock.localTime date
    let today := Calendar.dayOf (clock.localTime (clock.seconds now))
    if Calendar.dayOf shown = today then Calendar.clockTime shown else Calendar.monthDay shown

structure Row where
  index : Nat
  message : Message
  isSelected : Bool
  isMarked : Bool

def windowStart (selected count rows : Nat) : Nat :=
  if count ≤ rows then 0 else min (selected - rows / 2) (count - rows)

def window (selected count rows : Nat) : List Nat :=
  List.range' (windowStart selected count rows) (min count rows)

def rowsShown (l : Listing) (rows : Nat) : List Row :=
  (window l.selected l.count rows).filterMap fun index =>
    (l.get? index).map fun message =>
      { index, message, isSelected := index == l.selected, isMarked := l.isMarked index }

def rowPieces (now : Instant) (clock : Clock) (r : Row) : List Piece :=
  let isUnread := r.message.hasTag "unread"
  [.colored (if r.isSelected then ">" else " ") (·.accent),
   .colored (if r.isMarked then "*" else " ") (·.secondaryBright),
   .plain " ",
   .colored (alignRight 6 (dateText now clock r.message.date)) (·.muted),
   .plain " ",
   .colored (fit senderWidth r.message.senderName) (if isUnread then (·.accentBright) else (·.foreground)),
   .plain " ",
   .colored r.message.subject (if r.isSelected then (·.highlight) else (·.foreground)),
   .plain " ",
   .colored (" ".intercalate r.message.tags) (·.tertiary),
   .plain "\n"]

def tabPieces (q : Queries) : List Piece :=
  q.all.mapIdx (fun i (query : SearchQuery) =>
    if i = q.selected then Piece.colored ("[" ++ query.name ++ "]") (·.accent)
    else Piece.colored (" " ++ query.name ++ " ") (·.muted)) ++ [.plain "\n"]

def statusPieces (s : State) (now : Instant) : List Piece :=
  let l := s.messages
  let place := if l.count = 0 then 0 else l.selected + 1
  [.colored s.queries.current.text (·.secondary),
   .plain (" | " ++ toString place ++ "/" ++ toString l.count ++ " | " ++ toString l.marked.length ++ " marked  " ++
     s.status.currentAt now ++ "\n")]

/-- What an open prompt suggests: its placeholder or, without one, what was submitted to it last. -/
def hint (s : State) (p : Prompt) : String :=
  if p.placeholder = "" then (s.history.recallOf p.label).last?.getD "" else p.placeholder

def promptPieces (s : State) (p : Prompt) : List Piece :=
  .colored p.label (·.accentBright) ::
    match s.draft with
    | some draft => [.colored draft (·.foreground)]
    | none => if hint s p = "" then [] else [.colored ("[" ++ hint s p ++ "] ") (·.muted)]

def pieces (s : State) (prompt : Option Prompt) (rows : Nat) (now : Instant) (clock : Clock) : List Piece :=
  tabPieces s.queries ++ (rowsShown s.messages rows).flatMap (rowPieces now clock) ++
    statusPieces s now ++ prompt.elim [] (promptPieces s)

def render (s : State) (prompt : Option Prompt) (rows : Nat) (now : Instant) (clock : Clock := {}) : String :=
  paint s.theme (pieces s prompt rows now clock)

end Screen
end Triage.App
