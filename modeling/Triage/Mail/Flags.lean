/-! Maildir flags of a message, read from the name of its file. -/

namespace Triage

structure Flags where
  draft : Bool := false
  flagged : Bool := false
  passed : Bool := false
  replied : Bool := false
  seen : Bool := false
  trashed : Bool := false
  deriving DecidableEq, Repr, Inhabited

namespace Flags

def infoOf : List Char → Option (List Char)
  | [] => none
  | c :: rest =>
    match infoOf rest with
    | some info => some info
    | none => if c = '2' then (match rest with | ',' :: info => some info | _ => none) else none

/-- Flag letters count up to the first `Z`, the last possible letter. -/
def ofInfo (info : List Char) : Flags :=
  let letters := info.takeWhile (· != 'Z')
  { draft := letters.contains 'D', flagged := letters.contains 'F', passed := letters.contains 'P',
    replied := letters.contains 'R', seen := letters.contains 'S', trashed := letters.contains 'T' }

def ofFilename (name : String) : Flags :=
  match infoOf name.toList with
  | some info => ofInfo info
  | none => {}

def letters (f : Flags) : String :=
  .ofList <| [(f.draft, 'D'), (f.flagged, 'F'), (f.passed, 'P'), (f.replied, 'R'), (f.seen, 'S'),
    (f.trashed, 'T')].filterMap fun (isSet, letter) => if isSet then some letter else none

end Flags
end Triage
