import Triage.Script.Ast
import Triage.Script.Token

/-! Trees of token lists. A text that is no script gives none. -/

namespace Triage.Script

structure LocalName where
  name : Name
  isConstant : Bool

structure Scope where
  tokens : List Located
  /-- The line of the token read last. -/
  lastLine : Nat := 1
  locals : List LocalName := []
  labels : List Name := []
  /-- Jumps of this function whose label is not known yet. -/
  jumps : List Name := []
  isVariadic : Bool := true
  isInLoop : Bool := false

abbrev Parse := StateT Scope Option

namespace Parse

def levelLimit : Nat := 195

def current? : Parse (Option Token) := return (← get).tokens.head?.map (·.token)

def currentLine : Parse Nat := do
  let s ← get
  return (s.tokens.head?.map (·.line)).getD s.lastLine

def advance : Parse Unit := modify fun s =>
  match s.tokens with
  | [] => s
  | t :: rest => { s with tokens := rest, lastLine := t.line }

def isAt (p : Token → Bool) : Parse Bool := return ((← current?).map p).getD false

def isSymbol (s : String) : Token → Bool
  | .symbol t => t == s
  | _ => false

def isKeyword (s : String) : Token → Bool
  | .keyword t => t == s
  | _ => false

def accept (p : Token → Bool) : Parse Bool := do
  if ← isAt p then
    advance
    return true
  else return false

def expect (p : Token → Bool) : Parse Unit := do
  if ← accept p then pure () else failure

def name : Parse Name := do
  match ← current? with
  | some (.name n) =>
    advance
    return n
  | _ => failure

def declare (names : List Name) (isConstant : Bool) : Parse Unit :=
  modify fun s => { s with locals := names.map (⟨·, isConstant⟩) ++ s.locals }

def inScope {α : Type} (body : Parse α) : Parse α := do
  let outer ← get
  modify fun s => { s with jumps := [] }
  let a ← body
  modify fun s =>
    let own := s.labels.take (s.labels.length - outer.labels.length)
    { s with
      locals := outer.locals
      labels := outer.labels
      jumps := s.jumps.filter (! own.contains ·) ++ outer.jumps }
  return a

def inLoop {α : Type} (body : Parse α) : Parse α := do
  let outer := (← get).isInLoop
  modify fun s => { s with isInLoop := true }
  let a ← body
  modify fun s => { s with isInLoop := outer }
  return a

/-- A function's loops, labels and jumps are its own; every jump in it needs a label. -/
def inFunction {α : Type} (isVariadic : Bool) (body : Parse α) : Parse α := do
  let outer ← get
  set { outer with isVariadic, isInLoop := false, labels := [], jumps := [] }
  let a ← body
  if !(← get).jumps.isEmpty then failure
  modify fun s =>
    { s with
      isVariadic := outer.isVariadic
      isInLoop := outer.isInLoop
      labels := outer.labels
      jumps := outer.jumps
      locals := outer.locals }
  return a

def binaryOps : List (String × BinaryOp × Nat × Nat) :=
  [("+", .add, 10, 10), ("-", .sub, 10, 10), ("*", .mul, 11, 11), ("/", .div, 11, 11), ("//", .floorDiv, 11, 11),
   ("%", .mod, 11, 11), ("^", .pow, 14, 13), ("..", .concat, 9, 8),
   ("<<", .shiftLeft, 7, 7), (">>", .shiftRight, 7, 7),
   ("&", .bitAnd, 6, 6), ("~", .bitXor, 5, 5), ("|", .bitOr, 4, 4), ("==", .equal, 3, 3), ("~=", .notEqual, 3, 3),
   ("<", .less, 3, 3), ("<=", .lessEqual, 3, 3), (">", .greater, 3, 3), (">=", .greaterEqual, 3, 3)]

def binaryOp? : Token → Option ((Expr → Expr → Nat → Expr) × Nat × Nat)
  | .keyword "and" => some (fun a b _ => .and a b, 2, 2)
  | .keyword "or" => some (fun a b _ => .or a b, 1, 1)
  | .symbol s => (binaryOps.lookup s).map fun (op, left, right) => (.binary op, left, right)
  | _ => none

def unaryOp? : Token → Option UnaryOp
  | .keyword "not" => some .not
  | .symbol "-" => some .negate
  | .symbol "#" => some .length
  | .symbol "~" => some .bitNot
  | _ => none

def unaryStrength : Nat := 12

def isBlockEnd : Token → Bool
  | .keyword s => s == "end" || s == "else" || s == "elseif" || s == "until"
  | _ => false

def isAssignable : Expr → Bool
  | .name .. => true
  | .index .. => true
  | _ => false

def checkAssignable (e : Expr) : Parse Unit := do
  if !isAssignable e then failure
  match e with
  | .name n _ =>
    match (← get).locals.find? (·.name == n) with
    | some l => if l.isConstant then failure
    | none => pure ()
  | _ => pure ()

inductive Attribute where
  | plain
  | constant
  | closing
  deriving DecidableEq

def attribute? : Parse Attribute := do
  if ← accept (isSymbol "<") then
    let a ← name
    expect (isSymbol ">")
    if a == "const" then return .constant else if a == "close" then return .closing else failure
  else return .plain

def attributedNames : Nat → Parse (List (Name × Attribute))
  | 0 => failure
  | fuel + 1 => do
    let n ← name
    let a ← attribute?
    if ← accept (isSymbol ",") then return (n, a) :: (← attributedNames fuel) else return [(n, a)]

def names : Nat → Parse (List Name)
  | 0 => failure
  | fuel + 1 => do
    let n ← name
    if ← accept (isSymbol ",") then return n :: (← names fuel) else return [n]

def params : Nat → Parse (List Name × Bool)
  | 0 => failure
  | fuel + 1 => do
    if ← accept (isSymbol "...") then
      expect (isSymbol ")")
      return ([], true)
    else
      let n ← name
      if ← accept (isSymbol ",") then
        let (ns, isVariadic) ← params fuel
        return (n :: ns, isVariadic)
      else
        expect (isSymbol ")")
        return ([n], false)

mutual

def expr : (fuel : Nat) → (level : Nat) → (strength : Nat) → Parse Expr
  | 0, _, _ => failure
  | fuel + 1, level, strength => do
    if levelLimit ≤ level then failure
    let line ← currentLine
    let first ← match (← current?).bind unaryOp? with
      | some op => do
        advance
        pure (.unary op (← expr fuel (level + 1) unaryStrength) line)
      | none => simple fuel level
    operators fuel level strength first

/-- The operators that follow and bind more strongly than what came before. -/
def operators : (fuel : Nat) → (level : Nat) → (strength : Nat) → Expr → Parse Expr
  | 0, _, _, _ => failure
  | fuel + 1, level, strength, first => do
    match (← current?).bind binaryOp? with
    | some (join, left, right) =>
      if strength < left then
        let line ← currentLine
        advance
        let second ← expr fuel (level + 1) right
        operators fuel level strength (join first second line)
      else return first
    | none => return first

def simple : (fuel : Nat) → (level : Nat) → Parse Expr
  | 0, _ => failure
  | fuel + 1, level => do
    match ← current? with
    | some (.number n) => advance; return .number n
    | some (.text b) => advance; return .text b
    | some (.keyword "nil") => advance; return .nil
    | some (.keyword "true") => advance; return .bool true
    | some (.keyword "false") => advance; return .bool false
    | some (.keyword "function") => advance; return .function (← functionBody fuel level [])
    | some (.symbol "...") => advance; if (← get).isVariadic then return .varargs else failure
    | some (.symbol "\x7b") => table fuel level
    | _ => suffixed fuel level

def suffixed : (fuel : Nat) → (level : Nat) → Parse Expr
  | 0, _ => failure
  | fuel + 1, level => do
    match ← current? with
    | some (.name n) =>
      let line ← currentLine
      advance
      suffixes fuel level (.name n line)
    | some (.symbol "(") =>
      advance
      let e ← expr fuel (level + 1) 0
      expect (isSymbol ")")
      suffixes fuel level (.single e)
    | _ => failure

def suffixes : (fuel : Nat) → (level : Nat) → Expr → Parse Expr
  | 0, _, _ => failure
  | fuel + 1, level, e => do
    match ← current? with
    | some (.symbol ".") =>
      advance
      let n ← name
      suffixes fuel level (.index e (.text (asciiBytes n.toList)) (← get).lastLine)
    | some (.symbol "[") =>
      advance
      let key ← expr fuel (level + 1) 0
      expect (isSymbol "]")
      suffixes fuel level (.index e key (← get).lastLine)
    | some (.symbol ":") =>
      advance
      let n ← name
      let line ← currentLine
      let args ← arguments fuel level
      suffixes fuel level (.method e n args line)
    | some (.symbol "(") | some (.symbol "\x7b") | some (.text _) =>
      let line ← currentLine
      let args ← arguments fuel level
      suffixes fuel level (.call e args line)
    | _ => return e

def arguments : (fuel : Nat) → (level : Nat) → Parse (List Expr)
  | 0, _ => failure
  | fuel + 1, level => do
    match ← current? with
    | some (.text b) => advance; return [.text b]
    | some (.symbol "\x7b") => return [← table fuel level]
    | some (.symbol "(") =>
      advance
      if ← accept (isSymbol ")") then return []
      let args ← exprs fuel level
      expect (isSymbol ")")
      return args
    | _ => failure

def exprs : (fuel : Nat) → (level : Nat) → Parse (List Expr)
  | 0, _ => failure
  | fuel + 1, level => do
    let e ← expr fuel (level + 1) 0
    if ← accept (isSymbol ",") then return e :: (← exprs fuel level) else return [e]

def table : (fuel : Nat) → (level : Nat) → Parse Expr
  | 0, _ => failure
  | fuel + 1, level => do
    expect (isSymbol "\x7b")
    return .table (← items fuel level)

def items : (fuel : Nat) → (level : Nat) → Parse (List Item)
  | 0, _ => failure
  | fuel + 1, level => do
    if ← accept (isSymbol "\x7d") then return []
    let i ← item fuel level
    if ← accept fun t => isSymbol "," t || isSymbol ";" t then return i :: (← items fuel level)
    expect (isSymbol "\x7d")
    return [i]

def item : (fuel : Nat) → (level : Nat) → Parse Item
  | 0, _ => failure
  | fuel + 1, level => do
    match ((← get).tokens.take 2).map Located.token with
    | [.name n, .symbol "="] =>
      advance
      advance
      return .named (.text (asciiBytes n.toList)) (← expr fuel (level + 1) 0) (← get).lastLine
    | .symbol "[" :: _ =>
      advance
      let key ← expr fuel (level + 1) 0
      expect (isSymbol "]")
      expect (isSymbol "=")
      return .named key (← expr fuel (level + 1) 0) (← get).lastLine
    | _ => return .positional (← expr fuel (level + 1) 0)

def functionBody : (fuel : Nat) → (level : Nat) → (first : List Name) → Parse FunctionBody
  | 0, _, _ => failure
  | fuel + 1, level, first => do
    expect (isSymbol "(")
    let (ns, isVariadic) ← if ← accept (isSymbol ")") then pure ([], false) else params (fuel + 1)
    inFunction isVariadic do
      declare (first ++ ns) false
      let body ← inScope (block fuel level)
      expect (isKeyword "end")
      return .mk (first ++ ns) isVariadic body

def block : (fuel : Nat) → (level : Nat) → Parse Block
  | 0, _ => failure
  | fuel + 1, level => do
    match ← current? with
    | none => return []
    | some t =>
      if isBlockEnd t then return []
      else if isKeyword "return" t then
        advance
        let isBare ← isAt fun t => isBlockEnd t || isSymbol ";" t
        let values ← if isBare || (← get).tokens.isEmpty then pure [] else exprs fuel level
        let _ ← accept (isSymbol ";")
        if (← get).tokens.isEmpty || (← isAt isBlockEnd) then return [.ret values] else failure
      else if isSymbol ";" t then
        advance
        block fuel level
      else
        let s ← statement fuel (level + 1)
        return s :: (← block fuel level)

def statement : (fuel : Nat) → (level : Nat) → Parse Stmt
  | 0, _ => failure
  | fuel + 1, level => do
    if levelLimit ≤ level then failure
    match ← current? with
    | some (.keyword "if") => advance; conditional fuel level
    | some (.keyword "while") =>
      advance
      let condition ← expr fuel (level + 1) 0
      expect (isKeyword "do")
      let body ← inLoop (inScope (block fuel level))
      expect (isKeyword "end")
      return .whileLoop condition body
    | some (.keyword "do") =>
      advance
      let body ← inScope (block fuel level)
      expect (isKeyword "end")
      return .block body
    | some (.keyword "for") => advance; forLoop fuel level
    | some (.keyword "repeat") =>
      advance
      inScope do
        let body ← inLoop (block fuel level)
        expect (isKeyword "until")
        return .repeatLoop body (← expr fuel (level + 1) 0)
    | some (.keyword "function") =>
      let line ← currentLine
      advance
      let n ← name
      let (target, isMethod) ← functionTarget fuel (.name n line)
      checkAssignable target
      let f ← functionBody fuel level (if isMethod then ["self"] else [])
      return .assign [target] [.function f] line
    | some (.keyword "local") => advance; localStatement fuel level
    | some (.symbol "::") =>
      advance
      let n ← name
      expect (isSymbol "::")
      if (← get).labels.contains n then failure
      modify fun s => { s with labels := n :: s.labels }
      return .label n
    | some (.keyword "break") =>
      advance
      if (← get).isInLoop then return .leave else failure
    | some (.keyword "goto") =>
      advance
      let n ← name
      modify fun s => { s with jumps := n :: s.jumps }
      return .jump n
    | _ => exprStatement fuel level

def conditional : (fuel : Nat) → (level : Nat) → Parse Stmt
  | 0, _ => failure
  | fuel + 1, level => do
    let condition ← expr fuel (level + 1) 0
    expect (isKeyword "then")
    let yes ← inScope (block fuel level)
    if ← accept (isKeyword "elseif") then return .branch condition yes [← conditional fuel level]
    else if ← accept (isKeyword "else") then
      let no ← inScope (block fuel level)
      expect (isKeyword "end")
      return .branch condition yes no
    else
      expect (isKeyword "end")
      return .branch condition yes []

def forLoop : (fuel : Nat) → (level : Nat) → Parse Stmt
  | 0, _ => failure
  | fuel + 1, level => do
    let line ← currentLine
    let n ← name
    if ← accept (isSymbol "=") then
      let first ← expr fuel (level + 1) 0
      expect (isSymbol ",")
      let last ← expr fuel (level + 1) 0
      let step ← if ← accept (isSymbol ",") then expr fuel (level + 1) 0 else pure (.number (.int 1))
      expect (isKeyword "do")
      let doLine := (← get).lastLine
      let body ← inScope do
        declare [n] false
        inLoop (inScope (block fuel level))
      expect (isKeyword "end")
      return .countLoop n first last step body doLine
    else
      let ns ← if ← accept (isSymbol ",") then names (fuel + 1) else pure []
      expect (isKeyword "in")
      let values ← exprs fuel level
      expect (isKeyword "do")
      let body ← inScope do
        declare (n :: ns) false
        inLoop (inScope (block fuel level))
      expect (isKeyword "end")
      return .eachLoop (n :: ns) values body line

def functionTarget : (fuel : Nat) → Expr → Parse (Expr × Bool)
  | 0, _ => failure
  | fuel + 1, e => do
    if ← accept (isSymbol ".") then
      let n ← name
      functionTarget fuel (.index e (.text (asciiBytes n.toList)) (← get).lastLine)
    else if ← accept (isSymbol ":") then
      let n ← name
      return (.index e (.text (asciiBytes n.toList)) (← get).lastLine, true)
    else return (e, false)

def localStatement : (fuel : Nat) → (level : Nat) → Parse Stmt
  | 0, _ => failure
  | fuel + 1, level => do
    if ← accept (isKeyword "function") then
      let n ← name
      declare [n] false
      return .declareFunction n (← functionBody fuel level [])
    else
      let line ← currentLine
      let ns ← attributedNames (fuel + 1)
      let values ← if ← accept (isSymbol "=") then exprs fuel level else pure []
      for (n, a) in ns do declare [n] (a != .plain)
      match ns, values with
      | [(n, .closing)], [value] => return .declareClosing n value line
      | _, _ => if ns.any (·.2 == .closing) then failure else return .declare (ns.map (·.1)) values

def exprStatement : (fuel : Nat) → (level : Nat) → Parse Stmt
  | 0, _ => failure
  | fuel + 1, level => do
    let e ← suffixed fuel level
    let isAssignment ← isAt fun t => isSymbol "=" t || isSymbol "," t
    if isAssignment then
      checkAssignable e
      let more ← targets fuel level
      expect (isSymbol "=")
      let values ← exprs fuel level
      return .assign (e :: more) values (← get).lastLine
    else
      match e with
      | .call .. | .method .. => return .call e
      | _ => failure

def targets : (fuel : Nat) → (level : Nat) → Parse (List Expr)
  | 0, _ => failure
  | fuel + 1, level => do
    if ← accept (isSymbol ",") then
      let e ← suffixed fuel (level + 1)
      checkAssignable e
      return e :: (← targets fuel (level + 1))
    else return []

end

def chunk (fuel : Nat) : Parse Block := do
  let body ← inScope (block fuel 0)
  let s ← get
  if s.tokens.isEmpty && s.jumps.isEmpty then return body else failure

end Parse

def parse? (source : Bytes) : Option Block :=
  match Token.ofText source with
  | none => none
  | some tokens => ((Parse.chunk (tokens.length * 16 + 64)).run { tokens }).map (·.1)

end Triage.Script
