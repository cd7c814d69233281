import Triage.Program.Shell.Builtin

/-! Running scripts: simple commands, pipelines, loops, and programs that are started by them. -/

namespace Triage.Program.Shell

def readsInput (program : String) (args : List String) : Bool :=
  ["cat", "head", "tail", "tr"].contains program && (args.all fun a => a.startsWith "-" || program == "tr")

def runTool (command program : String) (tool : Tool) (args : List String) : Shell Unit := do
  let s ← get
  let ran := tool command args s.input s.now
  let isLost := sinkOf s 1 == .closed && ran.output.chunks.any (! ·.bytes.isEmpty)
  writeAt s.now 2 (bytesOf ran.errors)
  for c in ran.output.chunks do writeAt c.time 1 c.bytes
  if readsInput program args then modify fun s => { s with input := { closesAt := s.input.closesAt } }
  match ran.output.endless, sinkOf s 1 with
  | some b, .capture n => modify fun s => { s with endless := (n, b) :: s.endless }
  | _, _ => pure ()
  passTime s.now ran.output.closesAt
  modify fun s => { s with reapedAt := s.now }
  if isLost then write 2 (command ++ ": write error: Bad file descriptor\n")
  setStatus (if isLost then 1 else ran.status)

inductive Invocation where
  | script (exitsOnError : Bool) (text : String) (name : Option String) (args : List String)
  | input
  | file (name : String)
  | incomplete

def invocation (exitsOnError : Bool) : List String → Invocation
  | [] => .input
  | arg :: rest =>
    match arg.toList with
    | '-' :: c :: cs =>
      let letters := c :: cs
      let exitsOnError := exitsOnError || letters.contains 'e'
      if letters.contains 'c' then
        match rest with
        | [] => .incomplete
        | text :: names => .script exitsOnError text names.head? names.tail
      else if letters.contains 's' then .input
      else invocation exitsOnError rest
    | _ => .file arg

def runShell (self : Recur) (command : String) (args : List String) : Shell Unit := do
  modify ({ · with name := command, args := [], status := 0, line := 1 })
  match invocation false args with
  | .script exitsOnError text name args =>
    modify ({ · with exitsOnError, name := name.getD command, args })
    toEnd self (runText self false text)
  | .input =>
    let s ← get
    passTime s.now s.input.closesAt
    modify ({ · with input := { closesAt := s.input.closesAt } })
    toEnd self (runText self false (Text.Utf8.decodeLossy s.input.bytes))
  | .file name =>
    write 2 (command ++ ": 0: cannot open " ++ name ++ ": No such file\n")
    throw (.exit 2)
  | .incomplete =>
    write 2 (command ++ ": 0: -c requires an argument\n")
    throw (.exit 2)

def freshState (s : State) : State :=
  { subshellState s with
    pid := s.owner, lastJob := none, exitsOnError := false, isTested := false, outputStatus := none,
    vars := s.vars.filter fun v => s.exports.contains v.1 }

def runProgram (self : Recur) (command program : String) (args : List String) : Shell Unit := do
  match program, Tool.named? program with
  | "sh", _ =>
    modify freshState
    runShell self command args
  | "kill", _ =>
    modify ({ · with name := "kill" })
    Builtin.kill self args
  | _, some tool => runTool command program tool args
  | _, none => pure ()

/-- Runs a command that the shell has to look for. A shell that has nothing left to do becomes that program. -/
def external (self : Recur) (isLast : Bool) (command : String) (args : List String) : Shell Unit := do
  match System.find command with
  | .error .permissionDenied => Builtin.failing (command ++ ": Permission denied") 126
  | .error _ => Builtin.failing (command ++ ": not found") 127
  | .ok program =>
    if isLast && (← get).traps.all (·.2 == "") then
      tick startCost
      runProgram self command program args
      throw (.exit (← get).status)
    else if program == "sh" then foreground id (runProgram self command program args)
    else
      tick startCost
      runProgram self command program args

def redirect (self : Recur) : Redirect → Shell Bool
  | .mk fd kind target => do
    let name ← self.text target
    let refuse (problem : String) : Shell Bool := do
      complain problem
      return false
    let connect (sink : Sink) : Shell Bool := do
      modify (·.withSink fd sink)
      return true
    let s ← get
    match kind with
    | .write =>
      match name with
      | "/dev/null" => connect .nothing
      | "/dev/stdout" => connect (sinkOf s 1)
      | "/dev/stderr" => connect (sinkOf s 2)
      | name =>
        match System.root.entryAt name, System.root.entryAt (FileTree.parent name) with
        | .directory, _ => refuse ("cannot create " ++ name ++ ": Is a directory")
        | .missing _, .missing _ =>
          if name.contains '/' then refuse ("cannot create " ++ name ++ ": Directory nonexistent")
          else connect .nothing
        | _, _ => connect .nothing
    | .read =>
      match Tool.openFile s.input s.now name with
      | .ok stream =>
        if fd = 0 then modify ({ · with input := stream })
        return true
      | .error "Is a directory" => return true
      | .error _ => refuse ("cannot open " ++ name ++ ": No such file")
    | .duplicate =>
      match name.toNat? with
      | some 0 => return true
      | some n =>
        match s.sinks.lookup n with
        | some sink => connect sink
        | none => refuse (toString n ++ ": Bad file descriptor")
      | none =>
        if name == "-" then
          if fd = 0 then modify ({ · with input := {} })
          connect .closed
        else refuse "Syntax error: Bad fd number"

def redirectAll (self : Recur) : List Redirect → Shell Bool
  | [] => return true
  | r :: rest => do if ← redirect self r then redirectAll self rest else return false

def redirected (self : Recur) (rs : List Redirect) (body : Shell Unit) : Shell Unit :=
  if rs.isEmpty then body
  else
    let isRead : Redirect → Bool
      | .mk _ kind _ => kind == .read
    restoring (fun s t => { t with sinks := s.sinks, input := if rs.any isRead then s.input else t.input }) do
      if ← redirectAll self rs then body else setStatus 2

def assign (self : Recur) (assigns : List (String × Word)) : Shell Unit := do
  for (name, w) in assigns do setVar name (← self.text w)

def assigned (self : Recur) (assigns : List (String × Word)) (body : Shell Unit) : Shell Unit :=
  if assigns.isEmpty then body
  else
    let isOne (v : String × String) : Bool := assigns.any (·.1 == v.1)
    restoring (fun s t => { t with vars := s.vars.filter isOne ++ t.vars.filter (! isOne ·), exports := s.exports }) do
      assign self assigns
      modify fun s => { s with exports := assigns.map (·.1) ++ s.exports }
      body

def replaceBy (self : Recur) (command : String) (args : List String) : Shell Unit := do
  match System.find command with
  | .error .permissionDenied =>
    complain ("exec: " ++ command ++ ": Permission denied")
    throw (.exit 126)
  | .error _ =>
    complain ("exec: " ++ command ++ ": not found")
    throw (.exit 127)
  | .ok program =>
    tick startCost
    modify subshellState
    runProgram self command program args
    throw (.exit (← get).status)

def simple (self : Recur) (isLast : Bool) (line : Nat) (assigns : List (String × Word)) (words : List Word)
    (rs : List Redirect) : Shell Unit := do
  tick quickCost
  modify ({ · with outputStatus := none, line })
  match ← self.fields words with
  | [] =>
    redirected self rs do
      assign self assigns
      setStatus ((← get).outputStatus.getD 0)
  | "exec" :: args =>
    if !(← redirectAll self rs) then throw (.exit 2)
    assign self assigns
    setStatus 0
    match args with
    | [] => pure ()
    | command :: args => replaceBy self command args
  | name :: args =>
    if Builtin.isSpecial name then assign self assigns
    redirected self rs do
      assigned self (if Builtin.isSpecial name then [] else assigns) do
        match Builtin.named? name with
        | some builtin => builtin self args
        | none => external self (isLast && rs.isEmpty) name args

structure Ended where
  stop : Stop
  endsAt : Option Time

def runStage (self : Recur) (start : Time) (setup : State → State) (c : Command) : Shell Ended := do
  modify ({ · with now := start })
  let stop ← asChild (setup ∘ subshellState) (toEnd self (self.command true c))
  let now := (← get).now
  return { stop, endsAt := match stop with | .never => none | _ => some now }

/-- Runs the parts of a pipeline, the first of them with what there is to read. One that would write for ever ends
with the one that reads from it. -/
def runStages (self : Recur) (start : Time) (input : Stream) : List Command → Shell (List Ended)
  | [] => return []
  | [c] => return [← runStage self start (fun s => { s with input }) c]
  | c :: rest => do
    let n ← newCapture
    let e ← runStage self start (fun s => { s.withSink 1 (.capture n) with input }) c
    let out := captured (← get) n e.endsAt
    let more ← runStages self start out rest
    let isWriting := out.endless.isSome || !out.chunks.isEmpty
    let e := match e.stop, more with
      | .never, next :: _ => if isWriting then { stop := .exit 141, endsAt := next.endsAt } else e
      | _, _ => e
    return e :: more

def pipeline (self : Recur) (isNegated : Bool) (stages : List Command) : Shell Unit := do
  let s ← get
  let ends ← runStages self s.now s.input stages
  modify ({ · with input := { closesAt := s.input.closesAt } })
  for e in ends do
    match e.stop with
    | .killed signal => writeAt (e.endsAt.getD s.now) 2 (bytesOf (deathNote signal))
    | _ => pure ()
  let last := match ends.getLast?.map (·.stop) with
    | some (.exit n) => n
    | some (.killed signal) => 128 + signal
    | _ => 0
  modify ({ · with now := s.now })
  passTime s.now (ends.foldl (fun t e => laterOf t e.endsAt) (some s.now))
  setStatus (if isNegated then (if last = 0 then 1 else 0) else last)

def endOnError : Shell Unit := do
  let s ← get
  if s.exitsOnError && !s.isTested && s.status != 0 then throw (.exit s.status)

def round (body : Shell Unit) : Shell Bool :=
  restoring (fun s t => { t with loops := s.loops }) do
    modify fun s => { s with loops := s.loops + 1 }
    let stop : Option Stop ← tryCatch (do body; return none) (return some ·)
    match stop with
    | none => return true
    | some (.leave n) => if n ≤ 1 then return false else throw (.leave (n - 1))
    | some (.again n) => if n ≤ 1 then return true else throw (.again (n - 1))
    | some stop => throw stop

def loop (self : Recur) (isUntil : Bool) (condition body : Script) (status : Nat) : Shell Unit := do
  let mut goesOn ← round (tested (self.run false condition))
  if goesOn && ((← get).status == 0) != isUntil then
    goesOn ← round (self.run false body)
    if goesOn then self (.loop isUntil condition body (← get).status)
    else setStatus 0
  else setStatus status

def each (self : Recur) (name : String) (body : Script) : List String → Shell Unit
  | [] => pure ()
  | v :: rest => do
    setVar name v
    if ← round (self.run false body) then self (.each name rest body)

def command (self : Recur) (isLast : Bool) : Command → Shell Unit
  | .simple line assigns words rs => do
    simple self isLast line assigns words rs
    endOnError
  | .group body rs => redirected self rs (self.run (isLast && rs.isEmpty) body)
  | .subshell body rs => do
    redirected self rs (foreground subshellState (toEnd self (self.run true body)))
    endOnError
  | .branch condition yes no => do
    tested (self.run false condition)
    if (← get).status = 0 then self.run isLast yes
    else
      setStatus 0
      self.run isLast no
  | .loop isUntil condition body => self (.loop isUntil condition body 0)
  | .each name words body => do
    let values ← self.fields words
    setStatus 0
    self (.each name values body)
  | .pipe isNegated stages => do
    match isNegated, stages with
    | true, [c] =>
      tested (self.command false c)
      modify fun s => { s with status := if s.status = 0 then 1 else 0 }
    | isNegated, stages =>
      pipeline self isNegated stages
      if !isNegated then endOnError
  | .both isAnd first second => do
    tested (self.command false first)
    if ((← get).status == 0) == isAnd then self.command isLast second

def runItems (self : Recur) (isLast : Bool) : Script → Shell Unit
  | [] => pure ()
  | .mk c isBackground :: rest => do
    heed self
    if isBackground then background self c else self.command (isLast && rest.isEmpty) c
    heed self
    runItems self isLast rest

def step (self : Recur) : (t : Task) → Shell t.Result
  | .run isLast items => runItems self isLast items
  | .command isLast c => command self isLast c
  | .loop isUntil condition body status => loop self isUntil condition body status
  | .each name values body => each self name body values
  | .expand w => expandWord self w

def perform : (fuel : Nat) → Recur
  | 0, _ => throw .never
  | fuel + 1, t => step (perform fuel) t

end Triage.Program.Shell
