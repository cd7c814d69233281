import Triage.Json.Token

/-! Passing over a JSON value of any depth: only its syntax is looked at. -/

namespace Triage.Json

inductive Frame where
  | list
  | object
  deriving DecidableEq

def skipKey : Reader Unit := do
  match ← peek? with
  | none => fault .endFault
  | some b =>
    if b == 0x22 then
      skipString
      match ← peek? with
      | none => fault .endFault
      | some b => if b == 0x3A then drop 1 else fault .syntaxFault
    else fault .syntaxFault

def skipStart : Reader (Option Frame) := do
  match ← peek? with
  | none => fault .endFault
  | some b =>
    if b == 0x6E then readLiteral "null"; pure none
    else if b == 0x74 then readLiteral "true"; pure none
    else if b == 0x66 then readLiteral "false"; pure none
    else if b == 0x22 then skipString; pure none
    else if b == 0x2D || isDigit b then skipNumber; pure none
    else if b == 0x5B then drop 1; pure (some .list)
    else if b == 0x7B then drop 1; pure (some .object)
    else fault .syntaxFault

def skipNext (frame : Frame) (isFirst : Bool) : Reader Bool := do
  match ← peek? with
  | none => fault .endFault
  | some b =>
    let close := match frame with | .list => 0x5D | .object => 0x7D
    if b == close then drop 1; pure false
    else
      if !isFirst then
        if b == 0x2C then drop 1 else fault .syntaxFault
      if frame = .object then skipKey
      pure true

def skipClose : List Frame → Bool → Reader (List Frame)
  | [], _ => pure []
  | frame :: outer, isFirst => do
    if ← skipNext frame isFirst then pure (frame :: outer) else skipClose outer false

/-- Values one after another until no container is open; `fuel` bounds their number. -/
def skipValues : Nat → List Frame → Reader Unit
  | 0, _ => fault .endFault
  | fuel + 1, stack => do
    let stack ← match ← skipStart with
      | none => skipClose stack false
      | some frame => skipClose (frame :: stack) true
    if stack.isEmpty then pure () else skipValues fuel stack

def skipValue : Reader Unit := fun input => skipValues (input.length + 1) [] input

end Triage.Json
