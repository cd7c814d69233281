import Triage.Script.Number

/-! Scripts as trees. Each part that can fail keeps the line that its failure names. -/

namespace Triage.Script

abbrev Name := String

inductive BinaryOp where
  | add
  | sub
  | mul
  | div
  | mod
  | pow
  | floorDiv
  | bitAnd
  | bitOr
  | bitXor
  | shiftLeft
  | shiftRight
  | concat
  | equal
  | notEqual
  | less
  | lessEqual
  | greater
  | greaterEqual
  deriving DecidableEq, Repr

inductive UnaryOp where
  | negate
  | not
  | length
  | bitNot
  deriving DecidableEq, Repr

mutual

inductive Expr where
  | nil
  | bool (b : Bool)
  | number (n : Num)
  | text (bytes : Bytes)
  | varargs
  | function (f : FunctionBody)
  | name (n : Name) (line : Nat)
  | index (object key : Expr) (line : Nat)
  | call (f : Expr) (args : List Expr) (line : Nat)
  | method (object : Expr) (name : Name) (args : List Expr) (line : Nat)
  | unary (op : UnaryOp) (e : Expr) (line : Nat)
  | binary (op : BinaryOp) (a b : Expr) (line : Nat)
  | and (a b : Expr)
  | or (a b : Expr)
  | single (e : Expr)
  | table (items : List Item)

inductive Item where
  | positional (e : Expr)
  | named (key value : Expr) (line : Nat)

inductive FunctionBody where
  | mk (params : List Name) (isVariadic : Bool) (body : List Stmt)

inductive Stmt where
  | declare (names : List Name) (values : List Expr)
  | declareClosing (name : Name) (value : Expr) (line : Nat)
  | declareFunction (name : Name) (f : FunctionBody)
  | assign (targets : List Expr) (values : List Expr) (line : Nat)
  | call (e : Expr)
  | block (body : List Stmt)
  | whileLoop (condition : Expr) (body : List Stmt)
  | repeatLoop (body : List Stmt) (condition : Expr)
  | branch (condition : Expr) (yes no : List Stmt)
  | countLoop (name : Name) (first last step : Expr) (body : List Stmt) (line : Nat)
  | eachLoop (names : List Name) (values : List Expr) (body : List Stmt) (line : Nat)
  | ret (values : List Expr)
  | leave
  | label (name : Name)
  | jump (name : Name)

end

instance : Inhabited Expr := ⟨.nil⟩
instance : Inhabited Stmt := ⟨.leave⟩
instance : Inhabited FunctionBody := ⟨.mk [] false []⟩

abbrev Block := List Stmt

end Triage.Script
