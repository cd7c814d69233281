/-!
Integers as they are written in commands: blanks, a sign, and digits, which are hexadecimal after `0x` and octal after
any other zero.
-/

namespace Triage.Program

structure Integer where
  value : Int := 0
  hasDigits : Bool := false
  rest : List Char := []
  deriving DecidableEq, Repr

namespace Integer

def digit? (base : Nat) (c : Char) : Option Nat :=
  let n := if c.isDigit then c.toNat - 48 else if c.isAlpha then c.toLower.toNat - 87 else base
  if n < base then some n else none

def digits (base : Nat) (n : Nat) : List Char → Nat × List Char
  | [] => (n, [])
  | c :: rest =>
    match digit? base c with
    | some d => digits base (n * base + d) rest
    | none => (n, c :: rest)

def magnitude (cs : List Char) : Nat × List Char :=
  match cs with
  | '0' :: x :: c :: rest =>
    if (x == 'x' || x == 'X') && (digit? 16 c).isSome then digits 16 0 (c :: rest) else digits 8 0 cs
  | '0' :: _ => digits 8 0 cs
  | _ => digits 10 0 cs

def read (s : String) : Integer :=
  let cs := s.toList.dropWhile fun c => c == ' ' || c == '\t' || c == '\n'
  let (isNegative, cs) := match cs with
    | '-' :: cs => (true, cs)
    | '+' :: cs => (false, cs)
    | cs => (false, cs)
  let (n, rest) := magnitude cs
  { value := if isNegative then -n else n, hasDigits := (cs.head?.any Char.isDigit), rest }

def problem? (s : String) : Option String :=
  let n := read s
  if !n.hasDigits then some "expected numeric value"
  else if n.rest.isEmpty then none
  else some "not completely converted"

end Integer
end Triage.Program
