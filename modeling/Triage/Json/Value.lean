import Triage.Json.Record

/-! JSON values of any shape. -/

namespace Triage.Json

inductive Value where
  | null
  | bool (b : Bool)
  | number (n : Number)
  | text (s : String)
  | list (items : List Value)
  | object (members : List (String × Value))

def namedValues {α : Type} (element : Reader α) : Nat → Bool → List (String × α) → Reader (List (String × α))
  | 0, _, _ => fault .endFault
  | fuel + 1, isFirst, acc => do
    if ← hasMember isFirst then
      let name ← readString
      colon
      namedValues element fuel false ((name, ← element) :: acc)
    else
      drop 1
      pure acc.reverse

def value (depth : Nat) : Reader Value := do
  match ← peek? with
  | none => fault .endFault
  | some b =>
    if b == 0x6E then readLiteral "null"; pure .null
    else if b == 0x74 then readLiteral "true"; pure (.bool true)
    else if b == 0x66 then readLiteral "false"; pure (.bool false)
    else if b == 0x22 then .text <$> readString
    else if b == 0x2D || isDigit b then .number <$> readNumber
    else
      match depth with
      | 0 => fault .syntaxFault
      | inner + 1 =>
        if b == 0x5B then
          drop 1
          .list <$> fun input => elements (value inner) (input.length + 1) [] input
        else if b == 0x7B then
          drop 1
          .object <$> fun input => namedValues (value inner) (input.length + 1) true [] input
        else fault .syntaxFault

def Value.texts? : List Value → Option (List String)
  | [] => some []
  | .text s :: rest => (texts? rest).map (s :: ·)
  | _ :: _ => none

end Triage.Json
