import Triage.Error
import Triage.Text.Utf8

/-!
The tokens of JSON over bytes: blanks, literals, strings and numbers. A reader takes its token off the front of
the input. A string or number may also be passed over without being read, which asks less of it.
-/

namespace Triage.Json

abbrev Bytes := List UInt8

abbrev Reader := StateT Bytes (Except JsonFault)

def fault {α : Type} (f : JsonFault) : Reader α := fun _ => .error f

def isSpace (b : UInt8) : Bool := b == 0x20 || b == 0x0A || b == 0x0D || b == 0x09

def isDigit (b : UInt8) : Bool := 0x30 ≤ b && b ≤ 0x39

def byteOf (c : Char) : UInt8 := c.toUInt8

def peek? : Reader (Option UInt8) := fun input =>
  let input := input.dropWhile isSpace
  .ok (input.head?, input)

def drop (n : Nat) : Reader Unit := fun input => .ok ((), input.drop n)

def literal : List Char → Bytes → Except JsonFault Bytes
  | [], input => .ok input
  | _ :: _, [] => .error .endFault
  | c :: cs, b :: input => if b == byteOf c then literal cs input else .error .syntaxFault

def readLiteral (text : String) : Reader Unit := fun input => (literal text.toList input).map ((), ·)

def simpleEscape? (b : UInt8) : Option UInt8 :=
  match Char.ofNat b.toNat with
  | '"' => some 0x22
  | '\\' => some 0x5C
  | '/' => some 0x2F
  | 'b' => some 0x08
  | 'f' => some 0x0C
  | 'n' => some 0x0A
  | 'r' => some 0x0D
  | 't' => some 0x09
  | _ => none

def hexValue? (b : UInt8) : Option Nat :=
  if isDigit b then some (b.toNat - 0x30)
  else if 0x61 ≤ b && b ≤ 0x66 then some (b.toNat - 0x57)
  else if 0x41 ≤ b && b ≤ 0x46 then some (b.toNat - 0x37)
  else none

def hex4 : Bytes → Except JsonFault (Nat × Bytes)
  | a :: b :: c :: d :: rest =>
    match hexValue? a, hexValue? b, hexValue? c, hexValue? d with
    | some a, some b, some c, some d => .ok (((a * 16 + b) * 16 + c) * 16 + d, rest)
    | _, _, _, _ => .error .syntaxFault
  | _ => .error .endFault

def isLeading (n : Nat) : Bool := 0xD800 ≤ n && n ≤ 0xDBFF

def isTrailing (n : Nat) : Bool := 0xDC00 ≤ n && n ≤ 0xDFFF

def trailingHalf : Bytes → Except JsonFault (Nat × Bytes)
  | [] => .error .endFault
  | [b] => if b == 0x5C then .error .endFault else .error .syntaxFault
  | b :: u :: rest =>
    if b == 0x5C && u == 0x75 then
      match hex4 rest with
      | .ok (n, rest) => if isTrailing n then .ok (n, rest) else .error .syntaxFault
      | .error f => .error f
    else .error .syntaxFault

def unicodeEscape (input : Bytes) : Except JsonFault (Char × Bytes) :=
  match hex4 input with
  | .error f => .error f
  | .ok (n, rest) =>
    if isTrailing n then .error .syntaxFault
    else if isLeading n then
      match trailingHalf rest with
      | .ok (m, rest) => .ok (.ofNat (0x10000 + (n - 0xD800) * 0x400 + (m - 0xDC00)), rest)
      | .error f => .error f
    else .ok (.ofNat n, rest)

inductive StringUnit where
  | close (rest : Bytes)
  | text (bytes : Bytes) (rest : Bytes)

inductive Mode where
  | read
  | skip
  deriving DecidableEq

def stringUnit (mode : Mode) : Bytes → Except JsonFault StringUnit
  | [] => .error .endFault
  | b :: rest =>
    if b == 0x22 then .ok (.close rest)
    else if b == 0x5C then
      match rest with
      | [] => .error .endFault
      | e :: rest =>
        match simpleEscape? e, mode with
        | some c, _ => .ok (.text [c] rest)
        | none, .read =>
          if e == 0x75 then (unicodeEscape rest).map fun (c, rest) => .text (Text.Utf8.encode (.singleton c)) rest
          else .error .syntaxFault
        | none, .skip =>
          if e == 0x75 then (hex4 rest).map fun (_, rest) => .text [] rest else .error .syntaxFault
    else if b < 0x20 then .error .syntaxFault
    else .ok (.text [b] rest)

def stringFrom (mode : Mode) : (fuel : Nat) → (acc : Bytes) → Bytes → Except JsonFault (Bytes × Bytes)
  | 0, _, _ => .error .endFault
  | fuel + 1, acc, input =>
    match stringUnit mode input with
    | .error f => .error f
    | .ok (.close rest) => .ok (acc.reverse, rest)
    | .ok (.text bytes rest) => stringFrom mode fuel (bytes.reverseAux acc) rest

def readString : Reader String := fun input =>
  match stringFrom .read (input.length + 1) [] (input.drop 1) with
  | .error f => .error f
  | .ok (bytes, rest) =>
    match Text.Utf8.decode? bytes with
    | some s => .ok (s, rest)
    | none => .error .syntaxFault

def skipString : Reader Unit := fun input =>
  (stringFrom .skip (input.length + 1) [] (input.drop 1)).map fun (_, rest) => ((), rest)

structure Number where
  negative : Bool := false
  digits : List UInt8
  fraction : Option (List UInt8) := none
  exponent : Option Int := none

def natOf (digits : List UInt8) : Nat := digits.foldl (fun n d => n * 10 + (d.toNat - 0x30)) 0

/-- What a number that stops too early is: its end, when it is read at the end of the text; else malformed. -/
def cutFault (mode : Mode) (rest : Bytes) : JsonFault :=
  match mode, rest with
  | .read, [] => .endFault
  | _, _ => .syntaxFault

def digits1 (mode : Mode) (input : Bytes) : Except JsonFault (List UInt8 × Bytes) :=
  match input.span isDigit with
  | ([], rest) => .error (cutFault mode rest)
  | (ds, rest) => .ok (ds, rest)

def wholePart (mode : Mode) (input : Bytes) : Except JsonFault (List UInt8 × Bytes) :=
  match digits1 mode input with
  | .ok (0x30 :: _ :: _, _) => .error .syntaxFault
  | answer => answer

def fractionPart (mode : Mode) : Bytes → Except JsonFault (Option (List UInt8) × Bytes)
  | 0x2E :: rest => (digits1 mode rest).map fun (ds, rest) => (some ds, rest)
  | rest => .ok (none, rest)

def exponentDigits (mode : Mode) (negative : Bool) (rest : Bytes) : Except JsonFault (Option Int × Bytes) :=
  (digits1 mode rest).map fun (ds, rest) => (some (if negative then -(natOf ds : Int) else natOf ds), rest)

def exponentPart (mode : Mode) : Bytes → Except JsonFault (Option Int × Bytes)
  | e :: rest =>
    if e == 0x65 || e == 0x45 then
      match rest with
      | 0x2B :: rest => exponentDigits mode false rest
      | 0x2D :: rest => exponentDigits mode true rest
      | rest => exponentDigits mode false rest
    else .ok (none, e :: rest)
  | [] => .ok (none, [])

def numberFrom (mode : Mode) (negative : Bool) (input : Bytes) : Except JsonFault (Number × Bytes) := do
  let (digits, rest) ← wholePart mode input
  let (fraction, rest) ← fractionPart mode rest
  let (exponent, rest) ← exponentPart mode rest
  pure (⟨negative, digits, fraction, exponent⟩, rest)

def number (mode : Mode) : Bytes → Except JsonFault (Number × Bytes)
  | 0x2D :: rest => numberFrom mode true rest
  | rest => numberFrom mode false rest

/-- The least magnitude that no double stands for: halfway past the largest one. -/
def tooLargeFrom : Nat := Nat.pow 2 1024 - Nat.pow 2 970

namespace Number

def isTooLarge (n : Number) : Bool :=
  let all := (n.digits ++ n.fraction.getD []).dropWhile (· == 0x30)
  let point : Int := n.exponent.getD 0 - (n.fraction.getD []).length
  let size : Int := all.length + point
  if all.isEmpty || size < 308 then false
  else if 310 < size then true
  else if 0 ≤ point then tooLargeFrom ≤ natOf all * Nat.pow 10 point.toNat
  else tooLargeFrom * Nat.pow 10 (-point).toNat ≤ natOf all

/-- A number written without fraction and exponent that fits into 64 bits, with or without a sign; zero with a
minus is none. -/
def integer? (n : Number) : Option Int :=
  if n.fraction.isSome || n.exponent.isSome then none
  else
    let m := natOf n.digits
    if n.negative then (if m = 0 || 0x8000000000000000 < m then none else some (-(m : Int)))
    else if m < 0x10000000000000000 then some m
    else none

end Number

def readNumber : Reader Number := fun input =>
  match number .read input with
  | .error f => .error f
  | .ok (n, rest) => if n.isTooLarge then .error .syntaxFault else .ok (n, rest)

def skipNumber : Reader Unit := fun input => (number .skip input).map fun (_, rest) => ((), rest)

end Triage.Json
