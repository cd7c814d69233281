import Triage.Script.Access
import Triage.Script.Library
import Triage.Script.Statement

/-! Evaluation: what one task does with the help of others, and all of it within some fuel. -/

namespace Triage.Script

variable {σ : Type}

namespace Evaluate

def isReplacing (h : Heap) (f : Value) : Bool :=
  let f := match f with
    | .function r => Value.function r
    | v => h.metafield v "__call"
  match f with
  | .function r =>
    match h.functions[r]? with
    | some (.closure ..) => true
    | _ => false
  | _ => false

/-- Runs a closure. What it returns in its place is called by its own callers. -/
def closureCall (self : Recur σ) (body : FunctionBody) (locals : Locals) (args : List Value) (callers : Callers) :
    Eval σ (List Value) := do
  let .mk params isVariadic statements := body
  let locals ← declare params args locals
  let varargs := if isVariadic then args.drop params.length else []
  match ← self.exec { locals, varargs, callers } statements with
  | .ret vs => pure vs
  | .tailCall f args line =>
    let replaces ← Eval.readHeap (isReplacing · f)
    self.call f args (if replaces then callers else callers.push (some line))
  | _ => pure []

def otherCall (self : Recur σ) (v : Value) (args : List Value) (callers : Callers) : Eval σ (List Value) := do
  match ← Eval.readHeap (·.metafield v "__call") with
  | .nil => fail callers ("attempt to call a " ++ v.typeName ++ " value")
  | handler => self.call handler (v :: args) { callers with depth := callers.depth + 1 }

variable [Host σ]

def call (self : Recur σ) (f : Value) (args : List Value) (callers : Callers) : Eval σ (List Value) := do
  if depthLimit ≤ callers.depth then fail callers "stack overflow"
  if hiddenLimit ≤ callers.hidden then fail callers "C stack overflow"
  match f with
  | .function r =>
    match ← Eval.readHeap (·.functions[r]?) with
    | some (.closure body locals) => closureCall self body locals args callers
    | some (.builtin b) => Library.run self b args callers
    | some (.capability c) => Capability.run self c args callers
    | some (.matches_ t p cell) => Library.matchesStep t p cell callers
    | none => pure []
  | v => otherCall self v args callers

def step (self : Recur σ) : (t : Task) → Eval σ t.Result
  | .call f args callers => call self f args callers
  | .eval ctx e => Expression.eval self ctx e
  | .exec ctx body => Statement.block self ctx body
  | .resume ctx body label locals => Statement.resume self ctx body label locals
  | .whileLoop ctx condition body => Statement.whileLoop self ctx condition body
  | .repeatLoop ctx body condition => Statement.repeatLoop self ctx body condition
  | .countLoop ctx name current step limit body => Statement.countLoop self ctx name current step limit body
  | .eachLoop ctx names f state control body line => Statement.eachLoop self ctx names f state control body line
  | .index object key callers => Access.get self key callers Access.chainLimit object
  | .setIndex object key value callers => Access.set self key callers value Access.chainLimit object
  | .display v callers => Access.display self v callers

end Evaluate

def evaluate [Host σ] : (fuel : Nat) → Recur σ
  | 0, _ => fun _ => .exhausted
  | fuel + 1, t => Evaluate.step (evaluate fuel) t

end Triage.Script
