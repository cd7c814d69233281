import Triage.Script.Operation

/-! The values of expressions. A call and three dots have any number of them, and all else has one. -/

namespace Triage.Script

variable {σ : Type}

namespace Context

def calling (ctx : Context) (line : Nat) : Callers := ctx.callers.push (some line)

end Context

def declareNames : List Name → List Value → Locals → Heap → Locals × Heap
  | [], _, locals, h => (locals, h)
  | n :: ns, vs, locals, h =>
    let (cell, h) := h.newCell (vs.headD .nil)
    declareNames ns vs.tail ((n, cell) :: locals) h

def declare (names : List Name) (vs : List Value) (locals : Locals) : Eval σ Locals :=
  Eval.onHeap (declareNames names vs locals)

def newClosure (f : FunctionBody) (locals : Locals) : Eval σ Value :=
  Eval.onHeap fun h => let (r, h) := h.newFunction (.closure f locals); (.function r, h)

namespace Expression

variable (self : Recur σ) (ctx : Context)

def first (e : Expr) : Eval σ Value := return (← self.eval ctx e).headD .nil

def all : List Expr → Eval σ (List Value)
  | [] => pure []
  | [e] => self.eval ctx e
  | e :: rest => do
    let v ← first self ctx e
    return v :: (← all rest)

def environment : Eval σ Value :=
  Eval.readHeap fun h =>
    match ctx.locals.lookup "_ENV" with
    | some cell => h.cell cell
    | none => .table h.globals

def name (n : Name) (line : Nat) : Eval σ Value := do
  match ctx.locals.lookup n with
  | some cell => Eval.readHeap (·.cell cell)
  | none =>
    let env ← environment ctx
    if n == "_ENV" then pure env else self.index env (ascii n) (ctx.calling line)

def items : List Item → Eval σ (List (Value × Value × Nat) × List Value)
  | [] => pure ([], [])
  | [.positional e] => do return ([], ← self.eval ctx e)
  | .positional e :: rest => do
    let v ← first self ctx e
    let (named, positional) ← items rest
    return (named, v :: positional)
  | .named key value line :: rest => do
    let k ← first self ctx key
    let v ← first self ctx value
    if (Key.of? k).isNone then fail (ctx.calling line) (if k.isNil then "table index is nil" else "table index is NaN")
    let (named, positional) ← items rest
    return ((k, v, line) :: named, positional)

/-- A table of items. Those without a key go to 1, 2, …, and win over keys that say the same. -/
def tableOf (named : List (Value × Value × Nat)) (positional : List Value) : Table :=
  let start := Table.ofList (positional.map fun _ => .nil) named.length
  let keyed := named.foldl (fun t (k, v, _) =>
    match Key.of? k with
    | some k => t.set k v
    | none => t) start
  { keyed with slots := positional.toArray }

def eval (e : Expr) : Eval σ (List Value) := do
  match e with
  | .nil => pure [.nil]
  | .bool b => pure [.bool b]
  | .number n => pure [.ofNum n]
  | .text b => pure [.text ⟨b.toArray⟩]
  | .varargs => pure ctx.varargs
  | .function f => return [← newClosure f ctx.locals]
  | .name n line => return [← name self ctx n line]
  | .index object key line =>
    let o ← first self ctx object
    let k ← first self ctx key
    return [← self.index o k (ctx.calling line)]
  | .call f args line =>
    let f ← first self ctx f
    let args ← all self ctx args
    self.call f args (ctx.calling line)
  | .method object n args line =>
    let o ← first self ctx object
    let f ← self.index o (ascii n) (ctx.calling line)
    let args ← all self ctx args
    self.call f (o :: args) (ctx.calling line)
  | .unary op e line =>
    let v ← first self ctx e
    return [← Operation.applyUnary self op v (ctx.calling line)]
  | .binary op a b line =>
    let x ← first self ctx a
    let y ← first self ctx b
    return [← Operation.apply self op x y (ctx.calling line)]
  | .and a b =>
    let x ← first self ctx a
    if x.isTrue then return [← first self ctx b] else return [x]
  | .or a b =>
    let x ← first self ctx a
    if x.isTrue then return [x] else return [← first self ctx b]
  | .single e => return [← first self ctx e]
  | .table is =>
    let (named, positional) ← items self ctx is
    Eval.onHeap fun h => let (r, h) := h.newTable (tableOf named positional); ([.table r], h)

end Expression
end Triage.Script
