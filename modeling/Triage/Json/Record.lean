import Triage.Json.Skip

/-!
Reading JSON of a known shape. Faults come in the order of the text: a value of another kind than expected is a
data fault once it is read as far as its first token. Containers that are read may nest to a limit.
-/

namespace Triage.Json

/-- How deep the containers of a text may nest where they are read. -/
def depthLimit : Nat := 127

def mismatch {α : Type} : Reader α := do
  match ← peek? with
  | none => fault .endFault
  | some b =>
    if b == 0x6E then readLiteral "null"; fault .dataFault
    else if b == 0x74 then readLiteral "true"; fault .dataFault
    else if b == 0x66 then readLiteral "false"; fault .dataFault
    else if b == 0x22 then let _ ← readString; fault .dataFault
    else if b == 0x2D || isDigit b then let _ ← readNumber; fault .dataFault
    else if b == 0x5B || b == 0x7B then fault .dataFault
    else fault .syntaxFault

def text : Reader String := do
  if (← peek?) == some 0x22 then readString else mismatch

def integer (low high : Int) : Reader Int := do
  match ← peek? with
  | some b =>
    if b == 0x2D || isDigit b then
      match (← readNumber).integer? with
      | some n => if low ≤ n && n ≤ high then pure n else fault .dataFault
      | none => fault .dataFault
    else mismatch
  | none => mismatch

def signed64 : Reader Int := integer (-0x8000000000000000) 0x7FFFFFFFFFFFFFFF

def unsigned64 : Reader Nat := return (← integer 0 0xFFFFFFFFFFFFFFFF).toNat

def optional {α : Type} (value : Reader α) : Reader (Option α) := do
  if (← peek?) == some 0x6E then readLiteral "null"; pure none else some <$> value

def hasElement (isFirst : Bool) : Reader Bool := do
  match ← peek? with
  | none => fault .endFault
  | some b =>
    if b == 0x5D then pure false
    else if isFirst then pure true
    else if b == 0x2C then
      drop 1
      match ← peek? with
      | none => fault .endFault
      | some b => if b == 0x5D then fault .syntaxFault else pure true
    else fault .syntaxFault

def closeList : Reader Unit := do
  match ← peek? with
  | none => fault .endFault
  | some b => if b == 0x5D then drop 1 else fault .syntaxFault

def elements {α : Type} (element : Reader α) : Nat → List α → Reader (List α)
  | 0, _ => fault .endFault
  | fuel + 1, acc => do
    if ← hasElement acc.isEmpty then elements element fuel ((← element) :: acc)
    else
      closeList
      pure acc.reverse

def openContainer : Nat → Reader Nat
  | 0 => fault .syntaxFault
  | depth + 1 => do drop 1; pure depth

def list {α : Type} (element : Nat → Reader α) (depth : Nat) : Reader (List α) := do
  if (← peek?) == some 0x5B then
    let inner ← openContainer depth
    fun input => elements (element inner) (input.length + 1) [] input
  else mismatch

def pair {α β : Type} (first : Nat → Reader α) (second : Nat → Reader β) (depth : Nat) : Reader (α × β) := do
  if (← peek?) == some 0x5B then
    let inner ← openContainer depth
    if ← hasElement true then
      let a ← first inner
      if ← hasElement false then
        let b ← second inner
        closeList
        pure (a, b)
      else fault .dataFault
    else fault .dataFault
  else mismatch

structure Member (σ : Type) where
  name : String
  isRequired : Bool := false
  isGiven : σ → Bool
  read : Nat → σ → Reader σ

/-- Whether a further member of an open object follows. The closing brace is left in place. -/
def hasMember (isFirst : Bool) : Reader Bool := do
  match ← peek? with
  | none => fault .endFault
  | some b =>
    if b == 0x7D then pure false
    else if isFirst then (if b == 0x22 then pure true else fault .syntaxFault)
    else if b == 0x2C then
      drop 1
      match ← peek? with
      | none => fault .endFault
      | some b => if b == 0x22 then pure true else fault .syntaxFault
    else fault .syntaxFault

def colon : Reader Unit := do
  match ← peek? with
  | none => fault .endFault
  | some b => if b == 0x3A then drop 1 else fault .syntaxFault

def readMember {σ : Type} (members : List (Member σ)) (depth : Nat) (record : σ) : Reader σ := do
  let name ← readString
  match members.find? (·.name == name) with
  | some m =>
    if m.isGiven record then fault .dataFault
    else
      colon
      m.read depth record
  | none =>
    colon
    skipValue
    pure record

def objectMembers {σ : Type} (members : List (Member σ)) (depth : Nat) : Nat → Bool → σ → Reader σ
  | 0, _, _ => fault .endFault
  | fuel + 1, isFirst, record => do
    if ← hasMember isFirst then objectMembers members depth fuel false (← readMember members depth record)
    else if members.any fun m => m.isRequired && !m.isGiven record then fault .dataFault
    else
      drop 1
      pure record

/-- The members by position; those at the end may be left out if they are not required. -/
def positional {σ : Type} (depth : Nat) : List (Member σ) → Bool → σ → Reader σ
  | [], _, record => do
    closeList
    pure record
  | m :: rest, isFirst, record => do
    if ← hasElement isFirst then positional depth rest false (← m.read depth record)
    else if m.isRequired then fault .dataFault
    else positional depth rest isFirst record

def record {σ : Type} (members : List (Member σ)) (empty : σ) (depth : Nat) : Reader σ := do
  let b ← peek?
  if b == some 0x7B then
    let inner ← openContainer depth
    fun input => objectMembers members inner (input.length + 1) true empty input
  else if b == some 0x5B then
    let inner ← openContainer depth
    positional inner members true empty
  else mismatch

def document {α : Type} (value : Reader α) (input : Bytes) : Except JsonFault α :=
  match value input with
  | .error f => .error f
  | .ok (a, rest) => if (rest.dropWhile isSpace).isEmpty then .ok a else .error .syntaxFault

end Triage.Json
