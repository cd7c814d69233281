import Triage.Program.Shell.Arithmetic
import Triage.Program.Shell.Parse
import Triage.Program.Shell.Word

/-! Processes within processes, the signals between them, and how time passes for them. -/

namespace Triage.Program.Shell

/-- Signals that do nothing unless they are trapped. -/
def harmless : List Nat := [0, 17, 18, 23, 28]

def isDeadly (s : State) (signal : Nat) : Bool :=
  signal == 9 || ((s.traps.lookup signal).isNone && !harmless.contains signal)

def deathBlow? (s : State) : Option Sent :=
  let blows := s.sent.filter fun x => x.pid == s.owner && isDeadly s x.signal
  blows.foldl (fun first x => match first with
    | some f => if x.time < f.time then some x else some f
    | none => some x) none

def passTime (start : Time) (target : Option Time) : Shell Unit := do
  let s ← get
  let isBefore (t : Time) : Bool := target.all (t ≤ ·)
  match deathBlow? s with
  | some x =>
    if isBefore x.time then
      set { s with now := max start x.time }
      throw (if x.signal = 19 then .never else .killed x.signal)
  | none => pure ()
  match target with
  | none => throw .never
  | some t =>
    if s.limit.any (· < t) then throw .never
    set { s with now := max s.now t }

def tick (cost : Time) : Shell Unit := do
  let now := (← get).now
  passTime now (some (now + cost))

def runText (self : Recur) (isLast : Bool) (text : String) : Shell Unit := do
  match parse? text with
  | some items => self.run isLast items
  | none =>
    let isOdd (c : Nat) : Bool := (text.toList.filter (·.toNat = c)).length % 2 == 1
    complain ("Syntax error: " ++
      if isOdd 0x22 || isOdd 0x27 then "Unterminated quoted string" else "end of file unexpected")
    throw (.exit 2)

def runTrap (self : Recur) (action : String) : Shell Unit := do
  let status := (← get).status
  runText self false action
  setStatus status

def heed (self : Recur) : Shell Unit := do
  let s ← get
  if s.sent.isEmpty then return
  passTime s.now (some s.now)
  let (due, rest) := s.sent.partition fun x => x.pid == s.owner && x.time ≤ s.now
  set { s with sent := rest }
  for x in due do
    match s.traps.lookup x.signal with
    | some action => if action != "" then runTrap self action
    | none => pure ()

/-- Goes back to a part of an earlier state after a computation, however that ends. -/
def restoring {α : Type} (restore : State → State → State) (body : Shell α) : Shell α := fun s =>
  let (result, t) := body s
  (result, restore s t)

def tested (body : Shell Unit) : Shell Unit :=
  restoring (fun s t => { t with isTested := s.isTested }) do
    modify ({ · with isTested := true })
    body

/-- Runs the last part of a process: what comes of it is always that the process stops. -/
def toEnd (self : Recur) (body : Shell Unit) : Shell Unit := do
  let stop : Stop ← tryCatch (do body; heed self; return .exit (← get).status) pure
  let s ← get
  let status : Nat ← match stop with
    | .exit n => pure n
    | .leave _ | .again _ => pure s.status
    | stop => throw stop
  match s.traps.lookup 0 with
  | some action =>
    set { s with traps := s.traps.filter (·.1 != 0), status }
    runText self false action
  | none => pure ()
  throw (.exit status)

def asChild (setup : State → State) (body : Shell Unit) : Shell Stop := fun s =>
  let start := { s with owner := s.nextPid, nextPid := s.nextPid + 1, now := s.now + startCost }
  let (result, t) := body (setup start)
  let stop := match result with
    | .ok () => .exit t.status
    | .error stop => stop
  (.ok stop, { t with toContext := s.toContext })

/-- What a subshell does not take over from its parent: traps, save for signals that are ignored, and loops. -/
def subshellState (s : State) : State := { s with traps := s.traps.filter (·.2 == ""), loops := 0 }

def settle (start : Time) (stop : Stop) : Shell Unit := do
  match stop with
  | .never => passTime start none
  | .killed signal =>
    passTime start (some (← get).now)
    write 2 (deathNote signal)
    setStatus (128 + signal)
  | .exit n =>
    passTime start (some (← get).now)
    setStatus n
  | _ => pure ()
  modify fun s => { s with reapedAt := s.now }

def foreground (setup : State → State) (body : Shell Unit) : Shell Unit := do
  let start := (← get).now
  settle start (← asChild setup body)

def laterOf (a b : Option Time) : Option Time := a.bind fun a => b.map (max a ·)

/-- When a capture is closed of which one writer ends at a time. -/
def closing (s : State) (capture : Nat) (writerEnd : Option Time) : Option Time :=
  (s.holds.filter (·.capture == capture)).foldl (fun t h => laterOf t h.endsAt) writerEnd

def captured (s : State) (capture : Nat) (writerEnd : Option Time) : Stream :=
  let endless := s.endless.lookup capture
  { chunks := written s.writes (.capture capture), endless,
    closesAt := if endless.isSome then none else closing s capture writerEnd }

def newCapture : Shell Nat := modifyGet fun s => (s.captures, { s with captures := s.captures + 1 })

def outputOf (self : Recur) (items : Script) : Shell String := do
  let n ← newCapture
  let start := (← get).now
  let stop ← asChild (fun s => (subshellState s).withSink 1 (.capture n)) (toEnd self (self.run true items))
  let status := (← get).status
  settle start stop
  let s ← get
  let out := captured s n (some s.now)
  passTime start out.closesAt
  modify fun t => { t with outputStatus := some t.status, status }
  let kept := (out.bytes.filter (· != 0)).reverse.dropWhile (· == 0x0A)
  return Text.Utf8.decodeLossy kept.reverse

def background (self : Recur) (c : Command) : Shell Unit := do
  let s ← get
  let pid := s.nextPid
  let setup (s : State) : State := { subshellState s with root := pid, input := {}, lastJob := none }
  let stop ← asChild setup (toEnd self (self.command true c))
  let t ← get
  let endsAt := match stop with
    | .never => none
    | _ => some t.now
  let status := match stop with
    | .killed signal => 128 + signal
    | .exit n => n
    | _ => 0
  let holds := s.sinks.filterMap fun
    | (_, .capture n) => some ⟨n, pid, endsAt⟩
    | _ => none
  set { t with
    now := s.now, input := s.input, holds := holds ++ t.holds, lastJob := some pid, status := 0,
    jobs := ⟨pid, s.owner, endsAt, status⟩ :: t.jobs }
  tick quickCost

def stopJob (pid signal : Nat) : Shell Unit := modify fun s =>
  let isOver (t : Option Time) : Bool := t.any (· ≤ s.now)
  { s with
    writes := s.writes.filter fun w => w.root != pid || w.time ≤ s.now,
    holds := s.holds.map fun h => if h.pid = pid ∧ !isOver h.endsAt then { h with endsAt := some s.now } else h,
    jobs := s.jobs.map fun j =>
      if j.pid = pid ∧ !isOver j.endsAt then { j with endsAt := some s.now, status := 128 + signal } else j }

def integerOf (s : State) (name : String) : Int := (Integer.read ((param? s name).getD "")).value

def expandPart (self : Recur) : Part → Shell (List Piece)
  | .text s _ => return [.kept s]
  | .param name isQuoted => do
    let s ← get
    if name == "@" then return (s.args.map (Piece.of isQuoted)).intersperse .gap
    else return [Piece.of isQuoted ((param? s name).getD "")]
  | .length name => do return [.kept (toString ((param? (← get) name).getD "").length)]
  | .fallback name kind alsoEmpty word isQuoted => do
    let value := (param? (← get) name).filter fun v => !alsoEmpty || v != ""
    match value, kind with
    | none, .replacement => return [Piece.of isQuoted ""]
    | none, .assignment =>
      let v ← self.text word
      setVar name v
      return [Piece.of isQuoted v]
    | some v, .value | some v, .assignment => return [Piece.of isQuoted v]
    | none, .value | some _, .replacement =>
      if isQuoted then return [.kept (← self.text word)] else self.expand word
  | .output items isQuoted => return [Piece.of isQuoted (← outputOf self items)]
  | .arithmetic parts isQuoted => do
    let text ← self.text parts
    match Arithmetic.eval? (integerOf (← get)) text with
    | some n => return [Piece.of isQuoted (toString n)]
    | none =>
      let cause := if text.contains '/' || text.contains '%' then "division by zero" else "expecting primary"
      complain ("arithmetic expression: " ++ cause ++ ": \"" ++ text ++ "\"")
      throw (.exit 2)

def expandWord (self : Recur) : Word → Shell (List Piece)
  | [] => return []
  | p :: rest => return (← expandPart self p) ++ (← expandWord self rest)

end Triage.Program.Shell
