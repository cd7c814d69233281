import Triage.Script.Expression

/-! What statements do, and how they end. -/

namespace Triage.Script.Statement

variable {σ : Type} (self : Recur σ) (ctx : Context)

inductive Place where
  | cell (r : Nat)
  | field (object key : Value)

def place (target : Expr) : Eval σ Place := do
  match target with
  | .name n _ =>
    match ctx.locals.lookup n with
    | some cell => pure (.cell cell)
    | none => return .field (← Expression.environment ctx) (ascii n)
  | .index object key _ =>
    let o ← Expression.first self ctx object
    let k ← Expression.first self ctx key
    return .field o k
  | _ => return .field (← Expression.environment ctx) .nil

def places : List Expr → Eval σ (List Place)
  | [] => pure []
  | t :: rest => do
    let p ← place self ctx t
    return p :: (← places rest)

/-- Stores values from the last place to the first; places without a value get nothing. -/
def store (callers : Callers) : List Place → List Value → Eval σ Unit
  | [], _ => pure ()
  | p :: rest, vs => do
    store callers rest vs.tail
    match p with
    | .cell r => Eval.modifyHeap (·.setCell r (vs.headD .nil))
    | .field o k => self.setIndex o k (vs.headD .nil) callers

def notANumber {α : Type} (what : String) (v : Value) (callers : Callers) : Eval σ α :=
  fail callers ("bad 'for' " ++ what ++ " (number expected, got " ++ v.typeName ++ ")")

def rounds? (start step : Int64) (last : Num) : Option Nat :=
  let last? : Option Int :=
    match last.toInt?, last with
    | some n, _ => some n.toInt
    | none, .float x =>
      let whole := if step < 0 then (Decimal.floor? (-x)).map (- ·) else Decimal.floor? x
      match whole with
      | some n => some (max (-0x8000000000000000) (min 0x7FFFFFFFFFFFFFFF n))
      | none => if 0.0 < x then some 0x7FFFFFFFFFFFFFFF else if x < 0.0 then some (-0x8000000000000000) else none
    | none, .int n => some n.toInt
  last?.bind fun (last : Int) =>
    let distance := if 0 < step then last - start.toInt else start.toInt - last
    if distance < 0 then none else some (distance.toNat / step.toInt.natAbs)

def isWithin (x step bound : Float) : Bool := if 0.0 < step then x ≤ bound else bound ≤ x

def startCount (first last step : Value) (callers : Callers) : Eval σ (Option (Num × Num × CountLimit)) := do
  match first, step with
  | .int start, .int by_ =>
    if by_ == 0 then fail callers "'for' step is zero"
    match last.toNum? with
    | some limit => return (rounds? start by_ limit).map fun n => (.int start, .int by_, .rounds n)
    | none => notANumber "limit" last callers
  | first, step =>
    match last.toNum? with
    | none => notANumber "limit" last callers
    | some limit =>
      match step.toNum? with
      | none => notANumber "step" step callers
      | some by_ =>
        match first.toNum? with
        | none => notANumber "initial value" first callers
        | some start =>
          let by_ := by_.toFloat
          if by_ == 0.0 then fail callers "'for' step is zero"
          if isWithin start.toFloat by_ limit.toFloat then
            return some (.float start.toFloat, .float by_, .bound limit.toFloat)
          else return none

def nextCount : Num → Num → CountLimit → Option (Num × CountLimit)
  | _, _, .rounds 0 => none
  | .int n, .int by_, .rounds (k + 1) => some (.int (n + by_), .rounds k)
  | current, step, .bound x =>
    let next := current.toFloat + step.toFloat
    if isWithin next step.toFloat x then some (.float next, .bound x) else none
  | _, _, .rounds _ => none

def afterRound (flow : Flow) (again : Eval σ Flow) : Eval σ Flow :=
  match flow with
  | .next _ => again
  | .leave => pure (.next ctx.locals)
  | other => pure other

def whileLoop (condition : Expr) (body : Block) : Eval σ Flow := do
  if (← Expression.first self ctx condition).isTrue then
    afterRound ctx (← self.exec ctx body) (self (.whileLoop ctx condition body))
  else pure (.next ctx.locals)

/-- The condition sees the locals of the body. -/
def repeatLoop (body : Block) (condition : Expr) : Eval σ Flow := do
  match ← self.exec ctx body with
  | .next locals =>
    if (← Expression.first self { ctx with locals } condition).isTrue then pure (.next ctx.locals)
    else self (.repeatLoop ctx body condition)
  | .leave => pure (.next ctx.locals)
  | other => pure other

def countLoop (name : Name) (current step : Num) (limit : CountLimit) (body : Block) : Eval σ Flow := do
  let locals ← declare [name] [.ofNum current] ctx.locals
  afterRound ctx (← self.exec { ctx with locals } body) <|
    match nextCount current step limit with
    | some (next, limit) => self (.countLoop ctx name next step limit body)
    | none => pure (.next ctx.locals)

def eachLoop (names : List Name) (f state control : Value) (body : Block) (line : Nat) : Eval σ Flow := do
  let vs ← self.call f [state, control] (ctx.calling line).hide
  let control := vs.headD .nil
  if control.isNil then return .next ctx.locals
  let locals ← declare names vs ctx.locals
  afterRound ctx (← self.exec { ctx with locals } body) (self (.eachLoop ctx names f state control body line))

def leaveBlock : Flow → Flow
  | .next _ => .next ctx.locals
  | other => other

def ret (values : List Expr) : Eval σ Flow := do
  match values with
  | [.call f args line] =>
    let f ← Expression.first self ctx f
    return .tailCall f (← Expression.all self ctx args) line
  | [.method object n args line] =>
    let o ← Expression.first self ctx object
    let f ← self.index o (ascii n) (ctx.calling line)
    return .tailCall f (o :: (← Expression.all self ctx args)) line
  | values => return .ret (← Expression.all self ctx values)

def exec (s : Stmt) : Eval σ Flow := do
  match s with
  | .declare names values =>
    let vs ← Expression.all self ctx values
    return .next (← declare names vs ctx.locals)
  | .declareClosing name value _ =>
    let v ← Expression.first self ctx value
    return .next (← declare [name] [v] ctx.locals)
  | .declareFunction name f =>
    let locals ← declare [name] [] ctx.locals
    let v ← newClosure f locals
    Eval.modifyHeap (·.setCell ((locals.lookup name).getD 0) v)
    return .next locals
  | .assign targets values line =>
    let ps ← places self ctx targets
    let vs ← Expression.all self ctx values
    store self (ctx.calling line) ps vs
    return .next ctx.locals
  | .call e =>
    let _ ← self.eval ctx e
    return .next ctx.locals
  | .block body => return leaveBlock ctx (← self.exec ctx body)
  | .whileLoop condition body => self (.whileLoop ctx condition body)
  | .repeatLoop body condition => self (.repeatLoop ctx body condition)
  | .branch condition yes no =>
    let isYes := (← Expression.first self ctx condition).isTrue
    return leaveBlock ctx (← self.exec ctx (if isYes then yes else no))
  | .countLoop name first last step body line =>
    let first ← Expression.first self ctx first
    let last ← Expression.first self ctx last
    let step ← Expression.first self ctx step
    match ← startCount first last step (ctx.calling line) with
    | some (start, step, limit) => self (.countLoop ctx name start step limit body)
    | none => return .next ctx.locals
  | .eachLoop names values body line =>
    let vs ← Expression.all self ctx values
    self (.eachLoop ctx names (vs.getD 0 .nil) (vs.getD 1 .nil) (vs.getD 2 .nil) body line)
  | .ret values => ret self ctx values
  | .leave => pure .leave
  | .label _ => pure (.next ctx.locals)
  | .jump name => pure (.jump name ctx.locals)

def settle (flow : Flow) : Eval σ Flow := do
  match flow with
  | .tailCall f args line => return .ret (← self.call f args (ctx.calling line))
  | other => pure other

def close (name : Name) (v : Value) (line : Nat) (rest : Eval σ Flow) : Eval σ Flow := do
  if !v.isTrue then return ← rest
  match ← Eval.readHeap (·.metafield v "__close") with
  | .nil => fail (ctx.calling line) ("variable '" ++ name ++ "' got a non-closable value")
  | handler =>
    match ← Eval.attempt rest with
    | .ok flow =>
      let flow ← settle self ctx flow
      let _ ← self.call handler [v, .nil] (ctx.calling line).hide
      return flow
    | .error e =>
      let _ ← self.call handler [v, e] (ctx.calling line).hide
      Eval.raise e

def statements (self : Recur σ) : Context → Block → Eval σ Flow
  | ctx, [] => pure (.next ctx.locals)
  | ctx, .declareClosing name value line :: rest => do
    let v ← Expression.first self ctx value
    let locals ← declare [name] [v] ctx.locals
    close self ctx name v line (statements self { ctx with locals } rest)
  | ctx, s :: rest => do
    match ← exec self ctx s with
    | .next locals => statements self { ctx with locals } rest
    | other => pure other

def isLabel (name : Name) : Stmt → Bool
  | .label n => n == name
  | _ => false

def added : Stmt → Nat
  | .declare names _ => names.length
  | .declareClosing .. => 1
  | .declareFunction .. => 1
  | _ => 0

def arrive (body : Block) (flow : Flow) : Eval σ Flow :=
  match flow with
  | .jump label locals =>
    if body.any (isLabel label) then self (.resume ctx body label locals) else pure (.jump label locals)
  | other => pure other

def block (body : Block) : Eval σ Flow := do
  arrive self ctx body (← statements self ctx body)

def resume (body : Block) (label : Name) (locals : Locals) : Eval σ Flow := do
  let before := body.takeWhile (! isLabel label ·)
  let kept := ctx.locals.length + before.foldl (fun n s => n + added s) 0
  let locals := locals.drop (locals.length - kept)
  arrive self ctx body (← statements self { ctx with locals } ((body.dropWhile (! isLabel label ·)).drop 1))

end Triage.Script.Statement
