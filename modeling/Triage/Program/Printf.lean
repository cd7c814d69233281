import Triage.Program.Integer
import Triage.Program.Stream
import Triage.Script.Template

/-! Backslash escapes in text, and templates that are filled in over and over until all arguments are used. -/

namespace Triage.Program.Printf

def isOctal (b : UInt8) : Bool := 0x30 ≤ b && b ≤ 0x37

def octal (digits : Bytes) : UInt8 := .ofNat (digits.foldl (fun n d => n * 8 + (d.toNat - 0x30)) 0)

def simpleEscape? (b : UInt8) : Option UInt8 :=
  match Char.ofNat b.toNat with
  | 'a' => some 0x07
  | 'b' => some 0x08
  | 'f' => some 0x0C
  | 'n' => some 0x0A
  | 'r' => some 0x0D
  | 't' => some 0x09
  | 'v' => some 0x0B
  | '\\' => some 0x5C
  | _ => none

/-- A text with its escapes read, up to one that ends all output. In arguments a zero stands before octal digits. -/
def unescape (isArgument : Bool) : (fuel : Nat) → Bytes → Bytes × Bool
  | 0, bs => (bs, false)
  | _, [] => ([], false)
  | fuel + 1, 0x5C :: b :: rest =>
    if b == 0x63 && isArgument then ([], true)
    else
      let start := if isArgument && b == 0x30 then rest else b :: rest
      let digits := (start.take 3).takeWhile isOctal
      let isNumber := if isArgument then b == 0x30 else isOctal b
      let (bytes, rest) :=
        if isNumber then ([octal digits], start.drop digits.length)
        else
          match simpleEscape? b with
          | some e => ([e], rest)
          | none => ([0x5C, b], rest)
      let (more, isEnd) := unescape isArgument fuel rest
      (bytes ++ more, isEnd)
  | fuel + 1, b :: rest =>
    let (more, isEnd) := unescape isArgument fuel rest
    (b :: more, isEnd)

/-- An integer argument, or a quote before a character that stands for its code. What is left out counts as zero, as
does what is no number. -/
def integerOf (s : String) : Int :=
  match s.toList with
  | q :: c :: rest =>
    if q.toNat = 0x22 ∨ q.toNat = 0x27 then c.toNat else (Integer.read (.ofList (q :: c :: rest))).value
  | _ => (Integer.read s).value

def pad (l : Script.Layout) (bs : Bytes) : Bytes :=
  let fill := List.replicate (l.width - bs.length) 0x20
  if l.isLeft then bs ++ fill else fill ++ bs

def convert (l : Script.Layout) (letter : Char) (argument : String) : Bytes × Bool :=
  let cut (bs : Bytes) : Bytes := match l.precision with
    | some p => bs.take p
    | none => bs
  let unsigned := (Int64.ofInt (integerOf argument)).toUInt64.toNat
  let ascii (cs : List Char) : Bytes := bytesOf (.ofList cs)
  match letter with
  | 's' => (pad l (cut (bytesOf argument)), false)
  | 'b' =>
    let (bs, isEnd) := unescape true argument.utf8ByteSize (bytesOf argument)
    (pad l (cut bs), isEnd)
  | 'c' => (pad l ((bytesOf argument).take 1), false)
  | 'd' | 'i' => (ascii (l.integer (integerOf argument)), false)
  | 'u' => (ascii (l.unsigned 10 "" unsigned), false)
  | 'o' => (ascii (l.unsigned 8 "0" unsigned), false)
  | 'x' => (ascii (l.unsigned 16 "0x" unsigned), false)
  | 'X' => (ascii ((l.unsigned 16 "0X" unsigned).map Char.toUpper), false)
  | _ => ([], false)

def literals : List Script.TemplatePart → Bytes × List Script.TemplatePart
  | .literal b :: rest => let (bs, more) := literals rest; (b :: bs, more)
  | rest => ([], rest)

def fillOnce : (fuel : Nat) → List Script.TemplatePart → List String → Bytes × List String × Bool
  | 0, _, arguments => ([], arguments, false)
  | _, [], arguments => ([], arguments, false)
  | fuel + 1, .conversion l letter :: rest, arguments =>
    let (bs, isEnd) := convert l letter (arguments.headD "")
    if isEnd then (bs, [], true)
    else
      let (more, left, isEnd) := fillOnce fuel rest arguments.tail
      (bs ++ more, left, isEnd)
  | fuel + 1, parts, arguments =>
    let (bs, rest) := literals parts
    let (bs, _) := unescape false bs.length bs
    let (more, left, isEnd) := fillOnce fuel rest arguments
    (bs ++ more, left, isEnd)

def fill (parts : List Script.TemplatePart) : (fuel : Nat) → List String → Bytes
  | 0, _ => []
  | fuel + 1, arguments =>
    let (bs, left, isEnd) := fillOnce (2 * parts.length + 1) parts arguments
    if isEnd || left.isEmpty || left.length == arguments.length then bs else bs ++ fill parts fuel left

def letters (parts : List Script.TemplatePart) : List Char :=
  parts.filterMap fun
    | .conversion _ letter => some letter
    | .literal _ => none

def problems (template : String) (arguments : List String) : List String :=
  let bs := bytesOf template
  let letters := letters ((Script.templateParts bs.length bs).getD [])
  let isNumeric (letter : Char) : Bool := "diuoxX".toList.contains letter
  let isQuote (c : Char) : Bool := c.toNat == 0x22 || c.toNat == 0x27
  (arguments.zipIdx.filter fun (a, i) =>
    (letters[i % letters.length]?).any isNumeric && !a.toList.head?.any isQuote).filterMap fun (a, _) =>
      (Integer.problem? a).map fun problem => a ++ ": " ++ problem

def run? (template : String) (arguments : List String) : Option Bytes :=
  let bs := bytesOf template
  (Script.templateParts bs.length bs).map (fill · (arguments.length + 1) arguments)

end Triage.Program.Printf
