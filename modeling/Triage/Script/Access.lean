import Triage.Script.Capability

/-! Reading and writing the fields of values, and showing values as text. -/

namespace Triage.Script

variable {σ : Type}

namespace HostObject

def flagFields (f : Flags) : List (String × Bool) :=
  [("draft", f.draft), ("flagged", f.flagged), ("passed", f.passed), ("replied", f.replied), ("seen", f.seen),
   ("trashed", f.trashed)]

def flagTable (f : Flags) : Table :=
  (flagFields f).foldl (fun t (name, b) => t.set (.text name.toUTF8) (.bool b)) {}

/-- A field of a message; each reading of a list makes a new table. -/
def messageField (m : Message) : String → Option (Eval σ Value)
  | "id" => some (pure (Capability.textValue m.id))
  | "thread_id" => some (pure (Capability.textValue m.threadId))
  | "filename" => some (pure (Capability.textValue m.filename))
  | "subject" => some (pure (Capability.textValue m.subject))
  | "from" => some (pure (Capability.textValue m.sender))
  | "to" => some (pure (Capability.textValue m.recipient))
  | "date" => some (pure (m.date.elim .nil fun seconds => .int (.ofInt seconds)))
  | "tags" => some (newList (m.tags.map Capability.textValue))
  | "flags" => some (Eval.onHeap fun h => let (r, h) := h.newTable (flagTable m.flags); (.table r, h))
  | _ => none

def field (name : String) : HostObject → Option (Eval σ Value)
  | .command c => if name = "kind" then some (pure (ascii c.name)) else none
  | .message m => messageField m name

def text : HostObject → String
  | .command c => "glance.Command(" ++ c.name ++ ")"
  | .message m => "glance.Message(" ++ m.id ++ ")"

end HostObject

namespace Access

/-- How many metatables a field is looked for in. -/
def chainLimit : Nat := 2000

def chainTooLong {α : Type} (event : String) (callers : Callers) : Eval σ α :=
  fail callers ("'" ++ event ++ "' chain too long; possibly a loop")

def noField {α : Type} (v : Value) (callers : Callers) : Eval σ α :=
  fail callers ("attempt to index a " ++ v.typeName ++ " value")

def objectField (r : Nat) (key : Value) : Eval σ Value := do
  let name := (key.plainText?.map lossy).getD ""
  match (← Eval.readHeap (·.objects[r]?)).bind (HostObject.field name) with
  | some read => read
  | none => Eval.raise (ascii ("attempt to get an unknown field '" ++ name ++ "'"))

section Fields

variable (self : Recur σ) (key : Value) (callers : Callers)

def get : (fuel : Nat) → Value → Eval σ Value
  | 0, _ => chainTooLong "__index" callers
  | fuel + 1, object => do
    let own ← Eval.readHeap fun h =>
      match object with
      | .table r => ((Key.of? key).map (h.table r).get).getD .nil
      | _ => .nil
    if !own.isNil then return own
    match object with
    | .object r => objectField r key
    | _ =>
      match ← Eval.readHeap (·.metafield object "__index") with
      | .nil =>
        match object with
        | .table _ => pure .nil
        | v => noField v callers
      | .function f => self.call1 (.function f) [object, key] callers.hide
      | handler => get fuel handler

def setOwn (r : Nat) (value : Value) : Eval σ Unit := do
  match Key.of? key with
  | some k => Eval.modifyHeap (·.rawSet r k value)
  | none => fail callers (if key.isNil then "table index is nil" else "table index is NaN")

def set (value : Value) : (fuel : Nat) → Value → Eval σ Unit
  | 0, _ => chainTooLong "__newindex" callers
  | fuel + 1, object => do
    let isNew ← Eval.readHeap fun h =>
      match object with
      | .table r => (((Key.of? key).map (h.table r).get).getD .nil).isNil
      | _ => true
    let handler ← if isNew then Eval.readHeap (·.metafield object "__newindex") else pure .nil
    match handler, object with
    | .nil, .table r => setOwn key callers r value
    | .nil, v => noField v callers
    | .function f, _ => discard (self.call (.function f) [object, key, value] callers.hide)
    | handler, _ => set value fuel handler

end Fields

def address (kind : ByteArray) (ref : Nat) : ByteArray :=
  let digits := Nat.toDigits 16 (ref * 64 + 0x55550000)
  kind ++ (": 0x" ++ String.ofList (List.replicate (14 - digits.length) '0' ++ digits)).toUTF8

def plain (h : Heap) (v : Value) : ByteArray :=
  match v with
  | .nil => "nil".toUTF8
  | .bool b => (if b then "true" else "false").toUTF8
  | .object r => ((h.objects[r]?).elim "" HostObject.text).toUTF8
  | .function r => address "function".toUTF8 r
  | .table r =>
    match h.metafield v "__name" with
    | .text name => address name r
    | _ => address "table".toUTF8 r
  | v => v.plainText?.getD .empty

def display (self : Recur σ) (v : Value) (callers : Callers) : Eval σ ByteArray := do
  match ← Eval.readHeap (·.metafield v "__tostring") with
  | .nil => Eval.readHeap (plain · v)
  | handler =>
    match (← self.call1 handler [v] (callers.push none)).plainText? with
    | some shown => pure shown
    | none => fail callers "'__tostring' must return a string"

end Access
end Triage.Script
