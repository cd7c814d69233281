import Triage.Script.Machine
import Triage.Script.Operators

/-! Operators on all values: where an operand is no plain one, what its metatable says. -/

namespace Triage.Script.Operation

variable {σ : Type} (self : Recur σ)

def handlerOf (event : String) (a b : Value) : Eval σ Value :=
  Eval.readHeap fun h =>
    match h.metafield a event with
    | .nil => h.metafield b event
    | handler => handler

def culprit (op : BinaryOp) (a b : Value) : Value :=
  match op with
  | .concat => if a.plainText?.isSome then b else a
  | _ => if a.num?.isSome then b else a

def binary (op : BinaryOp) (a b : Value) (callers : Callers) : Eval σ Value := do
  match (if op = .concat then Operators.concat a b else Operators.numeric op a b) with
  | .value v => pure v
  | .error message => fail callers message
  | .undefined =>
    match ← handlerOf (Operators.event op) a b with
    | .nil =>
      fail callers ("attempt to " ++ Operators.attempted op ++ " a " ++ (culprit op a b).typeName ++ " value")
    | handler => self.call1 handler [a, b] callers.hide

def notComparable {α : Type} (a b : Value) (callers : Callers) : Eval σ α :=
  fail callers <|
    if a.typeName = b.typeName then "attempt to compare two " ++ a.typeName ++ " values"
    else "attempt to compare " ++ a.typeName ++ " with " ++ b.typeName

def ordered (plain : Option Bool) (event : String) (a b : Value) (callers : Callers) : Eval σ Bool := do
  match plain with
  | some answer => pure answer
  | none =>
    match ← handlerOf event a b with
    | .nil => notComparable a b callers
    | handler => return (← self.call1 handler [a, b] callers.hide).isTrue

def less (a b : Value) (callers : Callers) : Eval σ Bool := ordered self (Operators.less? a b) "__lt" a b callers

def lessEqual (a b : Value) (callers : Callers) : Eval σ Bool :=
  ordered self (Operators.lessEqual? a b) "__le" a b callers

/-- Messages are equal by their ids. A command equals only itself, and cannot be compared with a message after it. -/
def sameObject (a b : Option HostObject) : Eval σ Bool :=
  match a, b with
  | some (.message m), some (.message n) => pure (m.id == n.id)
  | some (.command _), some (.message _) =>
    Eval.raise (ascii "bad argument `self` to `MessageHandle.__eq`: userdata is not expected type")
  | _, _ => pure false

def equal (a b : Value) (callers : Callers) : Eval σ Bool := do
  if a.rawEqual b then return true
  match a, b with
  | .table _, .table _ =>
    match ← handlerOf "__eq" a b with
    | .nil => pure false
    | handler => return (← self.call1 handler [a, b] callers.hide).isTrue
  | .object r, .object s => do sameObject (← Eval.readHeap (·.objects[r]?)) (← Eval.readHeap (·.objects[s]?))
  | _, _ => pure false

def apply (op : BinaryOp) (a b : Value) (callers : Callers) : Eval σ Value :=
  match op with
  | .equal => do return .bool (← equal self a b callers)
  | .notEqual => do return .bool !(← equal self a b callers)
  | .less => do return .bool (← less self a b callers)
  | .lessEqual => do return .bool (← lessEqual self a b callers)
  | .greater => do return .bool (← less self b a callers)
  | .greaterEqual => do return .bool (← lessEqual self b a callers)
  | op => binary self op a b callers

def unaryFallback (plain : Applied) (event attempted : String) (v : Value) (callers : Callers) : Eval σ Value := do
  match plain with
  | .value v => pure v
  | .error message => fail callers message
  | .undefined =>
    match ← Eval.readHeap (·.metafield v event) with
    | .nil => fail callers ("attempt to " ++ attempted ++ " a " ++ v.typeName ++ " value")
    | handler => self.call1 handler [v, v] callers.hide

def length (v : Value) (callers : Callers) : Eval σ Value := do
  match v with
  | .text t => pure (.int (.ofNat t.size))
  | .table r =>
    match ← Eval.readHeap (·.metafield v "__len") with
    | .nil => return .int (.ofNat (← Eval.readHeap fun h => (h.table r).border))
    | handler => self.call1 handler [v, v] callers.hide
  | v => fail callers ("attempt to get length of a " ++ v.typeName ++ " value")

def applyUnary (op : UnaryOp) (v : Value) (callers : Callers) : Eval σ Value :=
  match op with
  | .not => pure (.bool !v.isTrue)
  | .length => length self v callers
  | .negate => unaryFallback self (Operators.negate v) "__unm" "perform arithmetic on" v callers
  | .bitNot => unaryFallback self (Operators.bitNot v) "__bnot" "perform bitwise operation on" v callers

end Triage.Script.Operation
