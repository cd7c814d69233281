import Triage.Error
import Triage.Script.Number

/-! Values of scripts. Texts are bytes; tables, functions and host objects are references into the heap. -/

namespace Triage.Script

inductive Value where
  | nil
  | bool (b : Bool)
  | int (n : Int64)
  | float (x : Float)
  | text (bytes : ByteArray)
  | table (ref : Nat)
  | function (ref : Nat)
  | object (ref : Nat)

instance : Inhabited Value := ⟨.nil⟩

def ascii (s : String) : Value := .text s.toUTF8

namespace Value

def ofNum : Num → Value
  | .int n => .int n
  | .float x => .float x

def num? : Value → Option Num
  | .int n => some (.int n)
  | .float x => some (.float x)
  | _ => none

def isNil : Value → Bool
  | .nil => true
  | _ => false

def isTrue : Value → Bool
  | .nil => false
  | .bool b => b
  | _ => true

/-- The type of a value as scripts name it; they do not tell the two kinds of numbers apart. -/
def typeName : Value → String
  | .nil => "nil"
  | .bool _ => "boolean"
  | .int _ => "number"
  | .float _ => "number"
  | .text _ => "string"
  | .table _ => "table"
  | .function _ => "function"
  | .object _ => "userdata"

def kind : Value → Kind
  | .nil => .nil
  | .bool _ => .boolean
  | .int _ => .integer
  | .float _ => .number
  | .text _ => .string
  | .table _ => .table
  | .function _ => .function
  | .object _ => .userdata

def rawEqual : Value → Value → Bool
  | .nil, .nil => true
  | .bool a, .bool b => a == b
  | .int a, .int b => a == b
  | .int a, .float y => Num.order? (.int a) (.float y) == some .eq
  | .float x, .int b => Num.order? (.float x) (.int b) == some .eq
  | .float x, .float y => x == y
  | .text a, .text b => a == b
  | .table a, .table b => a == b
  | .function a, .function b => a == b
  | .object a, .object b => a == b
  | _, _ => false

def plainText? : Value → Option ByteArray
  | .text b => some b
  | .int n => some (String.ofList (Num.text (.int n))).toUTF8
  | .float x => some (String.ofList (Num.text (.float x))).toUTF8
  | _ => none

def toNum? : Value → Option Num
  | .int n => some (.int n)
  | .float x => some (.float x)
  | .text b => Num.parse? b.toList
  | _ => none

def toInt? (v : Value) : Option Int64 := v.toNum?.bind Num.toInt?

end Value

local instance decEqBytes : DecidableEq ByteArray := ByteArray.instDecidableEq

inductive Key where
  | bool (b : Bool)
  | int (n : Int64)
  | float (bits : UInt64)
  | text (bytes : ByteArray)
  | table (ref : Nat)
  | function (ref : Nat)
  | object (ref : Nat)
  deriving DecidableEq

namespace Key

def of? : Value → Option Key
  | .nil => none
  | .bool b => some (.bool b)
  | .int n => some (.int n)
  | .float x =>
    match (Num.float x).toInt? with
    | some n => some (.int n)
    | none => if x == x then some (.float x.toBits) else none
  | .text b => some (.text b)
  | .table r => some (.table r)
  | .function r => some (.function r)
  | .object r => some (.object r)

def value : Key → Value
  | .bool b => .bool b
  | .int n => .int n
  | .float bits => .float (.ofBits bits)
  | .text b => .text b
  | .table r => .table r
  | .function r => .function r
  | .object r => .object r

end Key
end Triage.Script
