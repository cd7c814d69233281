import Triage.Script.Ast
import Triage.Script.Value

/-! Operators on values that need no metamethod. -/

namespace Triage.Script

inductive Applied where
  | value (v : Value)
  | error (message : String)
  | undefined

namespace Operators

def floorDiv (a b : Int64) : Int64 := .ofInt (Int.fdiv a.toInt b.toInt)

def floorMod (a b : Int64) : Int64 := .ofInt (Int.fmod a.toInt b.toInt)

def floatMod (a b : Float) : Float :=
  let r := Decimal.remainder a b
  if (0.0 < r && b < 0.0) || (r < 0.0 && 0.0 < b) then r + b else r

/-- Shifts to the left, or by a negative amount to the right; bits shifted out are lost and zeros come in. -/
def shiftLeft (a : Int64) (n : Int) : Int64 :=
  let bits := a.toUInt64.toNat
  let moved :=
    if 64 ≤ n || n ≤ -64 then 0
    else if 0 ≤ n then bits * Nat.pow 2 n.toNat
    else bits / Nat.pow 2 (-n).toNat
  .ofNat moved

def power (a b : Float) : Float := if b == 2.0 then a * a else a.pow b

def onBoth (ints : Int64 → Int64 → Int64) (floats : Float → Float → Float) : Num → Num → Applied
  | .int a, .int b => .value (.int (ints a b))
  | a, b => .value (.float (floats a.toFloat b.toFloat))

def arithmetic (op : BinaryOp) (a b : Num) : Applied :=
  match op with
  | .add => onBoth (· + ·) (· + ·) a b
  | .sub => onBoth (· - ·) (· - ·) a b
  | .mul => onBoth (· * ·) (· * ·) a b
  | .div => .value (.float (a.toFloat / b.toFloat))
  | .pow => .value (.float (power a.toFloat b.toFloat))
  | .floorDiv =>
    match a, b with
    | .int m, .int n => if n == 0 then .error "attempt to perform 'n//0'" else .value (.int (floorDiv m n))
    | a, b => .value (.float (a.toFloat / b.toFloat).floor)
  | .mod =>
    match a, b with
    | .int m, .int n => if n == 0 then .error "attempt to perform 'n%%0'" else .value (.int (floorMod m n))
    | a, b => .value (.float (floatMod a.toFloat b.toFloat))
  | _ => .undefined

def bitwise (op : BinaryOp) (a b : Int64) : Applied :=
  match op with
  | .bitAnd => .value (.int (a &&& b))
  | .bitOr => .value (.int (a ||| b))
  | .bitXor => .value (.int (a ^^^ b))
  | .shiftLeft => .value (.int (shiftLeft a b.toInt))
  | .shiftRight => .value (.int (shiftLeft a (-b.toInt)))
  | _ => .undefined

def noInteger : Applied := .error "number has no integer representation"

def isBitwise : BinaryOp → Bool
  | .bitAnd => true
  | .bitOr => true
  | .bitXor => true
  | .shiftLeft => true
  | .shiftRight => true
  | _ => false

def numeric (op : BinaryOp) (a b : Value) : Applied :=
  match a.toNum?, b.toNum? with
  | some m, some n =>
    if isBitwise op then
      match m.toInt?, n.toInt? with
      | some i, some j => bitwise op i j
      | _, _ => noInteger
    else arithmetic op m n
  | _, _ => .undefined

def negate (v : Value) : Applied :=
  match v.toNum? with
  | some (.int n) => .value (.int (-n))
  | some (.float x) => .value (.float (-x))
  | none => .undefined

def bitNot (v : Value) : Applied :=
  match v.toNum? with
  | some n =>
    match n.toInt? with
    | some i => .value (.int (~~~i))
    | none => noInteger
  | none => .undefined

def concat (a b : Value) : Applied :=
  match a.plainText?, b.plainText? with
  | some x, some y => .value (.text (x ++ y))
  | _, _ => .undefined

def bytesLess : Bytes → Bytes → Bool
  | _, [] => false
  | [], _ :: _ => true
  | a :: as, b :: bs => if a == b then bytesLess as bs else a < b

def less? (a b : Value) : Option Bool :=
  match a, b with
  | .text x, .text y => some (bytesLess x.toList y.toList)
  | a, b =>
    match a.num?, b.num? with
    | some m, some n => some (m.order? n == some .lt)
    | _, _ => none

def lessEqual? (a b : Value) : Option Bool :=
  match a, b with
  | .text x, .text y => some (!bytesLess y.toList x.toList)
  | a, b =>
    match a.num?, b.num? with
    | some m, some n => let o := m.order? n; some (o == some .lt || o == some .eq)
    | _, _ => none

def event : BinaryOp → String
  | .add => "__add"
  | .sub => "__sub"
  | .mul => "__mul"
  | .div => "__div"
  | .mod => "__mod"
  | .pow => "__pow"
  | .floorDiv => "__idiv"
  | .bitAnd => "__band"
  | .bitOr => "__bor"
  | .bitXor => "__bxor"
  | .shiftLeft => "__shl"
  | .shiftRight => "__shr"
  | .concat => "__concat"
  | .equal | .notEqual => "__eq"
  | .less | .greater => "__lt"
  | .lessEqual | .greaterEqual => "__le"

def attempted (op : BinaryOp) : String :=
  if isBitwise op then "perform bitwise operation on"
  else match op with
    | .concat => "concatenate"
    | _ => "perform arithmetic on"

end Operators
end Triage.Script
