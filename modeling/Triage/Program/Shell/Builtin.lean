import Triage.Program.Shell.Child
import Triage.Program.System

/-! The commands that a shell runs by itself. -/

namespace Triage.Program.Shell

abbrev Builtin := Recur → List String → Shell Unit

namespace Builtin

def abort {α : Type} (problem : String) : Shell α := do
  complain problem
  throw (.exit 2)

def failing (problem : String) (status : Nat := 2) : Shell Unit := do
  complain problem
  setStatus status

def output (name : String) (bytes : Bytes) : Shell Unit := do
  let s ← get
  if sinkOf s 1 == .closed && !bytes.isEmpty then failing (name ++ ": " ++ name ++ ": I/O error") 1
  else
    writeAt s.now 1 bytes
    setStatus 0

def succeed : Builtin := fun _ _ => setStatus 0

def echo : Builtin := fun _ args => do
  let (isOpen, words) := match args with
    | "-n" :: words => (true, words)
    | words => (false, words)
  let bs := bytesOf (" ".intercalate words)
  let (bs, isEnd) := Printf.unescape true bs.length bs
  output "echo" (if isOpen || isEnd then bs else bs ++ [0x0A])

def printf : Builtin := fun _ args => do
  match args with
  | [] => failing "printf: usage: printf format [arg ...]"
  | template :: args =>
    match Printf.run? template args with
    | some bs =>
      output "printf" bs
      for problem in Printf.problems template args do failing ("printf: " ++ problem) 1
    | none => failing "printf: missing format character"

def exit : Builtin := fun _ args => do
  match args with
  | [] => throw (.exit (← get).status)
  | n :: _ =>
    match n.toNat? with
    | some n => throw (.exit (n % 256))
    | none => abort ("exit: Illegal number: " ++ n)

def signalTo (signal : Nat) (target : String) : Shell Bool := do
  let s ← get
  let send (pid : Nat) : Shell Unit := modify fun s => { s with sent := s.sent ++ [⟨pid, s.now, signal⟩] }
  let isAll := target == "0" || target == "-1000"
  match target.toNat? with
  | none => if !isAll then return false
  | some pid =>
    if !isAll && pid != s.owner && pid != s.pid && pid != 1000 && !s.jobs.any (·.pid == pid) then return false
    if !isAll && !s.jobs.any (·.pid == pid) then send pid
  let isIgnored := (s.traps.lookup signal) == some "" && signal != 9
  for job in s.jobs do
    if (isAll || target == toString job.pid) && !harmless.contains signal && !isIgnored then
      if job.pid = s.owner then send job.pid else stopJob job.pid signal
  if isAll then
    send s.owner
    if s.owner != 1000 then send 1000
  return true

def killArguments : List String → Option (Nat × List String)
  | "--" :: targets => some (15, targets)
  | "-s" :: name :: targets | "-n" :: name :: targets => (signalOf? name).map (·, targets)
  | arg :: targets =>
    match arg.toList with
    | '-' :: c :: cs =>
      (signalOf? (.ofList (c :: cs))).map (·, if targets.head? == some "--" then targets.tail else targets)
    | _ => some (15, arg :: targets)
  | [] => some (15, [])

def kill : Builtin := fun _ args => do
  match killArguments args with
  | none => failing ("kill: Illegal option " ++ .ofList ((args.headD "").toList.take 2))
  | some (_, []) =>
    failing "kill: Usage: kill [-s sigspec | -signum | -sigspec] [pid | job]... or\nkill -l [exitstatus]"
  | some (signal, targets) =>
    setStatus 0
    for target in targets do
      let digits := if target.startsWith "-" then String.ofList (target.toList.drop 1) else target
      if digits.toNat?.isNone then failing ("kill: Illegal number: " ++ target)
      else if !(← signalTo signal target) then failing "kill: No such process\n" 1

def trap : Builtin := fun _ args => do
  let args := if args.head? == some "--" then args.tail else args
  let (action, names) : Option String × List String := match args with
    | [name] => (none, [name])
    | "-" :: names => (none, names)
    | action :: names => if (signalOf? action).isSome && action.toNat?.isSome then (none, action :: names)
      else (some action, names)
    | [] => (none, [])
  setStatus 0
  for name in names do
    match signalOf? name with
    | none => failing ("trap: " ++ name ++ ": bad trap") 1
    | some signal =>
      modify fun s =>
        let others := s.traps.filter (·.1 != signal)
        { s with traps := action.elim others fun a => (signal, a) :: others }

def waitFor (target : Option Time) : Shell Unit := do
  let s ← get
  let isTrapped (x : Sent) : Bool :=
    x.pid == s.owner && target.all (x.time ≤ ·) && (s.traps.lookup x.signal).any (· != "")
  match s.sent.find? isTrapped with
  | some x =>
    passTime s.now (some (max s.now x.time))
    setStatus (128 + x.signal)
  | none => passTime s.now target

def wait : Builtin := fun _ args => do
  let own := (← get).jobs.filter (·.parent == (← get).owner)
  setStatus 0
  if args.isEmpty then waitFor (own.foldl (fun t j => laterOf t j.endsAt) (some (← get).now))
  else
    for arg in args do
      match own.find? (toString ·.pid == arg) with
      | some job =>
        setStatus job.status
        waitFor job.endsAt
        let s ← get
        if 128 < job.status && job.endsAt.any (s.reapedAt < ·) then write 2 (deathNote (job.status - 128))
        modify ({ · with jobs := s.jobs.filter (·.pid != job.pid) })
      | none => setStatus 127

def comparison? : String → Option (Int → Int → Bool)
  | "-eq" => some (· == ·)
  | "-ne" => some (· != ·)
  | "-lt" => some (· < ·)
  | "-le" => some (· ≤ ·)
  | "-gt" => some (· > ·)
  | "-ge" => some (· ≥ ·)
  | _ => none

def integer (s : String) : Except String Int :=
  match (String.ofList (s.toList.filter (· != ' '))).toInt? with
  | some n => .ok n
  | none => .error ("Illegal number: " ++ s)

def isFile (kind : Char) (path : String) : Bool :=
  match System.root.entryAt path with
  | .missing _ => false
  | .directory => kind != 'f' && kind != 'h' && kind != 'L' && kind != 't'
  | .file bytes => kind != 'd' && kind != 'h' && kind != 'L' && kind != 't' && (kind != 's' || !bytes.isEmpty)

def holds : List String → Except String Bool
  | [] => .ok false
  | [s] => .ok (s != "")
  | "!" :: rest => (holds rest).map (!·)
  | ["-n", s] => .ok (s != "")
  | ["-z", s] => .ok (s == "")
  | [op, path] =>
    match op.toList with
    | ['-', c] =>
      if "defhLprstuwxSG".toList.contains c then .ok (isFile c path) else .error (op ++ ": unexpected operator")
    | _ => .error (op ++ ": unexpected operator")
  | [a, "=", b] => .ok (a == b)
  | [a, "!=", b] => .ok (a != b)
  | [a, op, b] =>
    match comparison? op with
    | some compare => do return compare (← integer a) (← integer b)
    | none => .error (op ++ ": unexpected operator")
  | _ => .error "too many arguments"

def splitWords (sep : String) : List String → List (List String)
  | [] => [[]]
  | w :: rest =>
    match splitWords sep rest with
    | [] => [[w]]
    | ws :: more => if w == sep then [] :: ws :: more else (w :: ws) :: more

def holdsAny (args : List String) : Except String Bool := do
  if args.length ≤ 3 then holds args
  else
    let answers ← (splitWords "-o" args).mapM fun ws => (splitWords "-a" ws).mapM holds
    return answers.any (·.all id)

def test (name : String) : Builtin := fun _ args => do
  match holdsAny args with
  | .ok answer => setStatus (if answer then 0 else 1)
  | .error problem => failing (name ++ ": " ++ problem)

def bracket : Builtin := fun self args => do
  if args.getLast? == some "]" then test "[" self args.dropLast else failing "[: missing ]"

def shift : Builtin := fun _ args => do
  let n := (args.head?.bind String.toNat?).getD 1
  if (← get).args.length < n then abort "shift: can't shift that many"
  else modify fun s => { s with args := s.args.drop n, status := 0 }

def setOptions : List String → State → State
  | [], s => s
  | "--" :: args, s => { s with args }
  | arg :: rest, s =>
    match arg.toList with
    | '-' :: letters => setOptions rest (if letters.contains 'e' then { s with exitsOnError := true } else s)
    | '+' :: letters => setOptions rest (if letters.contains 'e' then { s with exitsOnError := false } else s)
    | _ => { s with args := arg :: rest }

def setArgs : Builtin := fun _ args => modify fun s => { setOptions args s with status := 0 }

def export_ : Builtin := fun _ args => do
  for arg in args do
    let name := String.ofList (arg.toList.takeWhile (· != '='))
    if arg.contains '=' then setVar name (.ofList (arg.toList.drop (name.length + 1)))
    modify fun s => { s with exports := name :: s.exports }
  setStatus 0

def unset : Builtin := fun _ args =>
  modify fun s => { s with vars := s.vars.filter fun v => !args.contains v.1, status := 0 }

def assignFields : List String → List Char → Shell Unit
  | [], _ => pure ()
  | [name], cs =>
    let isBlank := Fields.isSeparator
    setVar name (.ofList ((cs.dropWhile isBlank).reverse.dropWhile isBlank).reverse)
  | name :: rest, cs => do
    let cs := cs.dropWhile Fields.isSeparator
    setVar name (.ofList (cs.takeWhile (! Fields.isSeparator ·)))
    assignFields rest (cs.dropWhile (! Fields.isSeparator ·))

def read : Builtin := fun _ args => do
  let names := args.filter (! ·.startsWith "-")
  let s ← get
  let (line, time, rest) := Stream.splitLine s.input.chunks []
  modify ({ · with input := { s.input with chunks := rest } })
  passTime s.now (if time.isSome then time.map (max s.now) else s.input.closesAt.map (max s.now))
  let text := Text.Utf8.decodeLossy line
  if s.vars.lookup "IFS" == some "" then setVar (names.headD "REPLY") text
  else assignFields names text.toList
  setStatus (if time.isSome then 0 else 1)

def cd : Builtin := fun _ args => do
  let path := args.headD "/"
  match System.root.entryAt path with
  | .directory =>
    setVar "PWD" path
    setStatus 0
  | _ => failing ("cd: can't cd to " ++ path)

def pwd : Builtin := fun _ _ => do output "pwd" (bytesOf (((param? (← get) "PWD").getD "/") ++ "\n"))

def loopCount (args : List String) : Shell Nat :=
  return min ((args.head?.bind String.toNat?).getD 1) (← get).loops

def leave : Builtin := fun _ args => do
  setStatus 0
  let n ← loopCount args
  if n != 0 then throw (.leave n)

def again : Builtin := fun _ args => do
  setStatus 0
  let n ← loopCount args
  if n != 0 then throw (.again n)

def eval : Builtin := fun self args => do
  setStatus 0
  runText self false (" ".intercalate args)

def isSpecial (name : String) : Bool :=
  ["break", ":", "continue", "eval", "exec", "exit", "export", "set", "shift", "trap", "unset"].contains name

def named? : String → Option Builtin
  | ":" | "true" => some succeed
  | "false" => some fun _ _ => setStatus 1
  | "echo" => some echo
  | "printf" => some printf
  | "exit" => some exit
  | "kill" => some kill
  | "trap" => some trap
  | "wait" => some wait
  | "test" => some (test "test")
  | "[" => some bracket
  | "shift" => some shift
  | "set" => some setArgs
  | "export" => some export_
  | "unset" => some unset
  | "read" => some read
  | "cd" => some cd
  | "pwd" => some pwd
  | "break" => some leave
  | "continue" => some again
  | "eval" => some eval
  | _ => none

end Builtin
end Triage.Program.Shell
