import Triage.Host
import Triage.Session
import Triage.Script.Ast
import Triage.Script.Table

/-!
The state of a running script, and computations on it. A computation ends with a result, by raising a value, or not
within its fuel.
-/

namespace Triage.Script

inductive Builtin where
  | assert
  | error
  | getmetatable
  | ipairs
  | ipairsStep
  | next
  | pairs
  | pcall
  | print
  | rawequal
  | rawget
  | rawlen
  | rawset
  | select
  | setmetatable
  | tonumber
  | tostring
  | type
  | xpcall
  | concat
  | insert
  | pack
  | remove
  | sort
  | unpack
  | byte
  | char
  | find
  | format
  | gmatch
  | len
  | lower
  | match_
  | rep
  | reverse
  | sub
  | upper
  | abs
  | ceil
  | floor
  | fmod
  | mathType
  | max
  | min
  | sqrt
  | tointeger
  deriving DecidableEq, Repr

inductive Action where
  | quit
  | refresh
  | nextQuery
  | previousQuery
  | toggleMarks
  | invertMarks
  | clearMarks
  deriving DecidableEq, Repr

def Action.command : Action → Command
  | .quit => .quit
  | .refresh => .refresh
  | .nextQuery => .nextQuery
  | .previousQuery => .previousQuery
  | .toggleMarks => .toggleMarks
  | .invertMarks => .invertMarks
  | .clearMarks => .clearMarks

inductive Capability where
  | act (a : Action)
  | setStatus
  | getStatus
  | allMessages
  | markedMessages
  | selectedMessage
  | newQuery
  | logIndex
  | logLine (level : String)
  | tag
  | input
  | spawn
  | setTheme
  deriving DecidableEq, Repr

inductive HostObject where
  | command (c : Command)
  | message (m : Message)

abbrev Locals := List (Name × Nat)

inductive Function where
  | closure (body : FunctionBody) (locals : Locals)
  | builtin (b : Builtin)
  | capability (c : Capability)
  /-- Goes through the matches of a pattern; the cell holds where to look next. -/
  | matches_ (subject pattern : ByteArray) (cell : Nat)

structure Heap where
  cells : Array Value := #[]
  tables : Array Table := #[]
  functions : Array Function := #[]
  objects : Array HostObject := #[]
  /-- The table of globals. -/
  globals : Nat := 0
  /-- The metatable of all texts. -/
  textMeta : Nat := 0
  /-- The name of the script in positions. -/
  chunk : String := ""

namespace Heap

def cell (h : Heap) (r : Nat) : Value := h.cells.getD r .nil

def setCell (h : Heap) (r : Nat) (v : Value) : Heap := { h with cells := h.cells.setIfInBounds r v }

def newCell (h : Heap) (v : Value) : Nat × Heap := (h.cells.size, { h with cells := h.cells.push v })

def table (h : Heap) (r : Nat) : Table := h.tables.getD r {}

def setTable (h : Heap) (r : Nat) (t : Table) : Heap := { h with tables := h.tables.setIfInBounds r t }

def newTable (h : Heap) (t : Table) : Nat × Heap := (h.tables.size, { h with tables := h.tables.push t })

def newFunction (h : Heap) (f : Function) : Nat × Heap :=
  (h.functions.size, { h with functions := h.functions.push f })

def newObject (h : Heap) (o : HostObject) : Nat × Heap := (h.objects.size, { h with objects := h.objects.push o })

def rawSet (h : Heap) (r : Nat) (k : Key) (v : Value) : Heap := h.setTable r ((h.table r).set k v)

def metatable? (h : Heap) : Value → Option Nat
  | .table r => (h.table r).metatable
  | .text _ => some h.textMeta
  | _ => none

def metafield (h : Heap) (v : Value) (event : String) : Value :=
  match h.metatable? v with
  | some r => (h.table r).get (.text event.toUTF8)
  | none => .nil

end Heap

structure Machine (σ : Type) where
  heap : Heap := {}
  session : Session := {}
  host : σ

inductive Outcome (σ α : Type) where
  | done (a : α) (m : Machine σ)
  | raised (v : Value) (m : Machine σ)
  | exhausted

def Eval (σ α : Type) : Type := Machine σ → Outcome σ α

namespace Eval

variable {σ α β : Type}

@[inline] protected def pure (a : α) : Eval σ α := fun m => .done a m

@[inline] protected def bind (x : Eval σ α) (f : α → Eval σ β) : Eval σ β := fun m =>
  match x m with
  | .done a m => f a m
  | .raised v m => .raised v m
  | .exhausted => .exhausted

instance : Monad (Eval σ) where
  pure := Eval.pure
  bind := Eval.bind

instance : Inhabited (Eval σ α) := ⟨fun _ => .exhausted⟩

@[inline] def raise (v : Value) : Eval σ α := fun m => .raised v m

@[inline] def attempt (x : Eval σ α) : Eval σ (Except Value α) := fun m =>
  match x m with
  | .done a m => .done (.ok a) m
  | .raised v m => .done (.error v) m
  | .exhausted => .exhausted

@[inline] def readHeap (f : Heap → α) : Eval σ α := fun m => .done (f m.heap) m

@[inline] def onHeap (f : Heap → α × Heap) : Eval σ α := fun m =>
  let (a, heap) := f m.heap
  .done a { m with heap }

@[inline] def modifyHeap (f : Heap → Heap) : Eval σ Unit := fun m => .done () { m with heap := f m.heap }

@[inline] def readHost (f : σ → α) : Eval σ α := fun m => .done (f m.host) m

@[inline] def onHost (f : σ → α × σ) : Eval σ α := fun m =>
  let (a, host) := f m.host
  .done a { m with host }

@[inline] def modifyHost (f : σ → σ) : Eval σ Unit := fun m => .done () { m with host := f m.host }

@[inline] def onSession (f : Session → α × Session) : Eval σ α := fun m =>
  let (a, session) := f m.session
  .done a { m with session }

end Eval

/-- The functions under way from the inside out: the line at which each stands, or none for one that is no script. -/
structure Callers where
  lines : List (Option Nat) := []
  depth : Nat := 0
  /-- How many of the calls were not made by a call expression. -/
  hidden : Nat := 0

namespace Callers

def push (cs : Callers) (line : Option Nat) : Callers :=
  { lines := line :: cs.lines, depth := cs.depth + 1, hidden := if line.isSome then cs.hidden else cs.hidden + 1 }

/-- The same callers for a call that an operator or a loop makes. -/
def hide (cs : Callers) : Callers := { cs with hidden := cs.hidden + 1 }

def lineAt (cs : Callers) (level : Nat) : Option Nat := (cs.lines[level - 1]?).join

end Callers

/-- How deep calls may nest. -/
def depthLimit : Nat := 200000

/-- How deep calls may nest that no call expression makes. -/
def hiddenLimit : Nat := 200

def position (chunk : String) : Option Nat → String
  | some line => chunk ++ ":" ++ toString line ++ ": "
  | none => ""

def fail {σ α : Type} (callers : Callers) (message : String) (level : Nat := 1) : Eval σ α := fun m =>
  .raised (.text (position m.heap.chunk (callers.lineAt level) ++ message).toUTF8) m

inductive Flow where
  | next (locals : Locals)
  | leave
  | ret (values : List Value)
  | tailCall (f : Value) (args : List Value) (line : Nat)
  | jump (label : Name) (locals : Locals)

structure Context where
  locals : Locals
  varargs : List Value
  callers : Callers

/-- Where a counting loop ends: after so many further rounds, or past a double. -/
inductive CountLimit where
  | rounds (n : Nat)
  | bound (x : Float)

/-- A further step of an evaluation, which takes one unit of fuel. -/
inductive Task where
  | call (f : Value) (args : List Value) (callers : Callers)
  | eval (ctx : Context) (e : Expr)
  | exec (ctx : Context) (body : Block)
  /-- Goes on after a label of a block that was entered with the context's locals. -/
  | resume (ctx : Context) (body : Block) (label : Name) (locals : Locals)
  | whileLoop (ctx : Context) (condition : Expr) (body : Block)
  | repeatLoop (ctx : Context) (body : Block) (condition : Expr)
  | countLoop (ctx : Context) (name : Name) (current step : Num) (limit : CountLimit) (body : Block)
  | eachLoop (ctx : Context) (names : List Name) (f state control : Value) (body : Block) (line : Nat)
  | index (object key : Value) (callers : Callers)
  | setIndex (object key value : Value) (callers : Callers)
  | display (v : Value) (callers : Callers)

def Task.Result : Task → Type
  | .call .. => List Value
  | .eval .. => List Value
  | .exec .. => Flow
  | .resume .. => Flow
  | .whileLoop .. => Flow
  | .repeatLoop .. => Flow
  | .countLoop .. => Flow
  | .eachLoop .. => Flow
  | .index .. => Value
  | .setIndex .. => Unit
  | .display .. => ByteArray

abbrev Recur (σ : Type) := (t : Task) → Eval σ t.Result

namespace Recur

variable {σ : Type} (self : Recur σ)

@[inline] def call (f : Value) (args : List Value) (callers : Callers) : Eval σ (List Value) :=
  self (.call f args callers)

@[inline] def eval (ctx : Context) (e : Expr) : Eval σ (List Value) := self (.eval ctx e)

@[inline] def exec (ctx : Context) (body : Block) : Eval σ Flow := self (.exec ctx body)

@[inline] def index (object key : Value) (callers : Callers) : Eval σ Value := self (.index object key callers)

@[inline] def setIndex (object key value : Value) (callers : Callers) : Eval σ Unit :=
  self (.setIndex object key value callers)

@[inline] def display (v : Value) (callers : Callers) : Eval σ ByteArray := self (.display v callers)

@[inline] def call1 (f : Value) (args : List Value) (callers : Callers) : Eval σ Value :=
  return (← self.call f args callers).headD .nil

end Recur
end Triage.Script
