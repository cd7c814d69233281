import Triage.Error
import Triage.Program.Printf

/-! The small programs that scripts run: what each does with its arguments and its input. -/

namespace Triage.Program

structure Ran where
  output : Stream
  errors : String := ""
  status : Nat := 0

abbrev Tool := (command : String) → List String → Stream → Time → Ran

namespace Tool

def silent (status : Nat) : Tool := fun _ _ _ now => { output := { closesAt := some now }, status }

def failing (command : String) (now : Time) (problem : String) : Ran :=
  { output := { closesAt := some now }, errors := command ++ ": " ++ problem ++ "\n", status := 1 }

def misused (command : String) (now : Time) (problem : String) : Ran :=
  failing command now (problem ++ "\nTry '" ++ command ++ " --help' for more information.")

def isEchoOption (s : String) : Bool :=
  match s.toList with
  | '-' :: c :: cs => (c :: cs).all fun c => c == 'n' || c == 'e' || c == 'E'
  | _ => false

def echo : Tool := fun _ args _ now =>
  let options := args.takeWhile isEchoOption
  let words := args.drop options.length
  let letters := options.flatMap (·.toList)
  let bs := bytesOf (" ".intercalate words)
  let isEscaped := (letters.filter (· != 'n')).getLast? == some 'e'
  let (bs, isEnd) := if isEscaped then Printf.unescape true bs.length bs else (bs, false)
  { output := .once now (if letters.contains 'n' || isEnd then bs else bs ++ [0x0A]) }

def duration? (s : String) : Option (Option Time) :=
  if s == "infinity" || s == "inf" then some none
  else
    let cs := s.toList
    let (number, unit) : List Char × Nat := match cs.getLast? with
      | some 's' => (cs.dropLast, 1)
      | some 'm' => (cs.dropLast, 60)
      | some 'h' => (cs.dropLast, 3600)
      | some 'd' => (cs.dropLast, 86400)
      | _ => (cs, 1)
    let (whole, fraction) := number.span (· != '.')
    let fraction := fraction.drop 1
    let isNumber := (whole ++ fraction).all Char.isDigit && !(whole ++ fraction).isEmpty
    let digits := (fraction ++ List.replicate 6 '0').take 6
    if isNumber then some (some (((String.ofList (whole ++ digits)).toNat?.getD 0) * unit)) else none

def sleepEnd : List (Option Time) → Time → Option Time
  | [], now => some now
  | none :: _, _ => none
  | some d :: rest, now => sleepEnd rest (now + d)

def sleep : Tool := fun command args _ now =>
  if args.isEmpty then misused command now "missing operand"
  else
    match args.find? fun a => (duration? a).isNone with
    | some a => misused command now ("invalid time interval '" ++ a ++ "'")
    | none => { output := { closesAt := sleepEnd (args.filterMap duration?) now } }

def openFile (input : Stream) (now : Time) : String → Except String Stream
  | "-" => .ok (input.seenFrom now)
  | "/dev/null" => .ok { closesAt := some now }
  | "/dev/stdin" => .ok (input.seenFrom now)
  | "/dev/zero" => .ok { closesAt := none, endless := some 0 }
  | "/" | "/tmp" | "/etc" | "/dev" | "." | ".." => .error "Is a directory"
  | _ => .error "No such file or directory"

def append (a b : Stream) : Stream :=
  match a.closesAt with
  | none => a
  | some t => let b := b.seenFrom t; { b with chunks := a.chunks ++ b.chunks }

def catFiles (command : String) (input : Stream) (now : Time) : List String → Ran → Ran
  | [], ran => ran
  | name :: rest, ran =>
    match openFile input now name with
    | .ok s => catFiles command input now rest { ran with output := append ran.output s }
    | .error cause =>
      catFiles command input now rest
        { ran with errors := ran.errors ++ command ++ ": " ++ name ++ ": " ++ cause ++ "\n", status := 1 }

def cat : Tool := fun command args input now =>
  catFiles command input now (if args.isEmpty then ["-"] else args) { output := { closesAt := some now } }

structure Amount where
  inBytes : Bool := false
  isRest : Bool := false
  count : Nat := 10

def count? (s : String) : Option Nat :=
  match s.toList.getLast? with
  | some 'K' | some 'k' => (String.ofList s.toList.dropLast).toNat?.map (· * 1024)
  | some 'M' => (String.ofList s.toList.dropLast).toNat?.map (· * 1048576)
  | _ => s.toNat?

/-- A count which may have a sign. One sign stands for all but so much, the other for nothing. -/
def signedCount? (restSign : Char) (inBytes : Bool) (s : String) : Option Amount :=
  match s.toList with
  | c :: cs =>
    if c == '-' || c == '+' then (count? (.ofList cs)).map fun n => ⟨inBytes, c == restSign, n⟩
    else (count? s).map fun n => ⟨inBytes, false, n⟩
  | [] => none

def amount? (restSign : Char) : List String → Amount → Except String (Amount × List String)
  | [], a => .ok (a, [])
  | "-c" :: n :: rest, _ => read true n rest
  | "-n" :: n :: rest, _ => read false n rest
  | arg :: rest, a =>
    match arg.toList with
    | '-' :: 'c' :: n => read true (.ofList n) rest
    | '-' :: 'n' :: n => read false (.ofList n) rest
    | '-' :: c :: n => read false (.ofList (c :: n)) rest
    | _ => .ok (a, arg :: rest)
where
  read (inBytes : Bool) (n : String) (rest : List String) : Except String (Amount × List String) :=
    match signedCount? restSign inBytes n with
    | some a => .ok (a, if rest.head? == some "--" then rest.tail else rest)
    | none => .error ("invalid number of " ++ (if inBytes then "bytes" else "lines") ++ ": '" ++ n ++ "'")

def partOf (restSign : Char) (cut : Amount → Time → Stream → Stream) : Tool := fun command args input now =>
  match amount? restSign args {} with
  | .error problem => failing command now problem
  | .ok (a, files) =>
    match openFile input now (files.headD "-") with
    | .ok s => { output := cut a now s }
    | .error cause => failing command now ("cannot open '" ++ files.headD "" ++ "' for reading: " ++ cause)

def countLines (bs : Bytes) : Nat := bs.count 0x0A + if bs.getLastD 0x0A == 0x0A then 0 else 1

def firstLines (n : Nat) (bs : Bytes) : Bytes := (Stream.takeLine n bs).1

def head : Tool := partOf '-' fun a now s =>
  match a.isRest, a.inBytes with
  | false, true => s.take now a.count
  | false, false => s.takeLines now a.count
  | true, true => s.atEnd fun bs => bs.take (bs.length - a.count)
  | true, false => s.atEnd fun bs => firstLines (countLines bs - a.count) bs

def dropFirst (inBytes : Bool) (n : Nat) (bs : Bytes) : Bytes :=
  if inBytes then bs.drop n else bs.drop (firstLines n bs).length

def tail : Tool := partOf '+' fun a _ s =>
  s.atEnd fun bs =>
    let size := if a.inBytes then bs.length else countLines bs
    dropFirst a.inBytes (if a.isRest then a.count - 1 else size - a.count) bs

def classBytes (name : List Char) : Option Bytes :=
  let between (a b : Char) : Bytes := (List.range' a.toNat (b.toNat - a.toNat + 1)).map .ofNat
  match String.ofList name with
  | "upper" => some (between 'A' 'Z')
  | "lower" => some (between 'a' 'z')
  | "digit" => some (between '0' '9')
  | "alpha" => some (between 'A' 'Z' ++ between 'a' 'z')
  | "alnum" => some (between '0' '9' ++ between 'A' 'Z' ++ between 'a' 'z')
  | "space" => some [0x09, 0x0A, 0x0B, 0x0C, 0x0D, 0x20]
  | _ => none

def byteSet : (fuel : Nat) → Bytes → Bytes
  | 0, _ => []
  | _, [] => []
  | fuel + 1, 0x5B :: 0x3A :: rest =>
    let name := rest.takeWhile (· != 0x3A)
    match classBytes (name.map fun b => Char.ofNat b.toNat) with
    | some bs => bs ++ byteSet fuel (rest.drop (name.length + 2))
    | none => 0x5B :: byteSet fuel (0x3A :: rest)
  | fuel + 1, a :: 0x2D :: b :: rest =>
    (List.range' a.toNat (b.toNat + 1 - a.toNat)).map .ofNat ++ byteSet fuel rest
  | fuel + 1, b :: rest => b :: byteSet fuel rest

def setOf (s : String) : Bytes :=
  let bs := bytesOf s
  let (bs, _) := Printf.unescape false bs.length bs
  byteSet bs.length bs

def exchange (source target : Bytes) (b : UInt8) : UInt8 :=
  match source.idxOf? b with
  | some i => target.getD i (target.getLastD b)
  | none => b

def tr : Tool := fun command args input now =>
  let input := input.seenFrom now
  match args with
  | ["-d", set] => { output := input.mapBytes fun bs => bs.filter (! (setOf set).contains ·) }
  | [source, target] =>
    let source := setOf source
    let target := setOf target
    { output := input.mapBytes fun bs => bs.map (exchange source target) }
  | [set] =>
    misused command now ("missing operand after '" ++ set ++ "'\nTwo strings must be given when translating.")
  | _ => misused command now "missing operand"

def printf : Tool := fun command args _ now =>
  match args with
  | [] => misused command now "missing operand"
  | template :: args =>
    match Printf.run? template args with
    | some bs => { output := .once now bs }
    | none => failing command now "missing conversion specifier"

def named? : String → Option Tool
  | "true" => some (silent 0)
  | "false" => some (silent 1)
  | "echo" => some echo
  | "cat" => some cat
  | "sleep" => some sleep
  | "head" => some head
  | "tail" => some tail
  | "tr" => some tr
  | "printf" => some printf
  | _ => none

end Tool
end Triage.Program
