import Triage.Decimal.Digits

/-! Numbers of the script language: 64-bit integers that wrap, and doubles. Their text, and reading them. -/

namespace Triage.Script

inductive Num where
  | int (n : Int64)
  | float (x : Float)

abbrev Bytes := List UInt8

def asciiBytes (cs : List Char) : Bytes := cs.map (·.toUInt8)

namespace Num

def text : Num → List Char
  | .int n => (toString n.toInt).toList
  | .float x =>
    let cs := Decimal.render .general x
    if cs.all fun c => c.isDigit || c == '-' then cs ++ ['.', '0'] else cs

def isSpace (b : UInt8) : Bool := b == 0x20 || (0x09 ≤ b && b ≤ 0x0D)

def isDigit (b : UInt8) : Bool := 0x30 ≤ b && b ≤ 0x39

def hexValue? (b : UInt8) : Option Nat :=
  if isDigit b then some (b.toNat - 0x30)
  else if 0x61 ≤ b && b ≤ 0x66 then some (b.toNat - 0x57)
  else if 0x41 ≤ b && b ≤ 0x46 then some (b.toNat - 0x37)
  else none

def isHexDigit (b : UInt8) : Bool := (hexValue? b).isSome

def natOf (base : Nat) (digits : Bytes) : Nat :=
  digits.foldl (fun n d => n * base + (hexValue? d).getD 0) 0

def ofDecimal (m : Nat) (e : Int) : Float :=
  let size : Int := (Nat.toDigits 10 m).length + e
  if m = 0 || size < -400 then 0.0
  else if 400 < size then 1.0 / 0.0
  else Float.ofScientific m (e < 0) e.natAbs

def ofBinary (m : Nat) (e : Int) : Float := (Float.ofNat m).scaleB (max (-5000) (min 5000 e))

def exponent? (isMark : UInt8 → Bool) : Bytes → Option (Option Int)
  | [] => some none
  | b :: rest =>
    if !isMark b then none
    else
      let (negative, ds) := match rest with
        | 0x2B :: ds => (false, ds)
        | 0x2D :: ds => (true, ds)
        | ds => (false, ds)
      if ds.isEmpty || !ds.all isDigit then none
      else some (some (if negative then -(natOf 10 ds : Int) else natOf 10 ds))

def splitDigits (isDigit : UInt8 → Bool) (bs : Bytes) : Option (Bytes × Option Bytes × Bytes) :=
  let (whole, rest) := bs.span isDigit
  let (fraction, rest) : Option Bytes × Bytes := match rest with
    | 0x2E :: rest => let (ds, rest) := rest.span isDigit; (some ds, rest)
    | rest => (none, rest)
  if whole.isEmpty && (fraction.getD []).isEmpty then none else some (whole, fraction, rest)

def negate (negative : Bool) : Num → Num
  | .int n => .int (if negative then -n else n)
  | .float x => .float (if negative then -x else x)

def decimal? (negative : Bool) (bs : Bytes) : Option Num :=
  match splitDigits isDigit bs with
  | none => none
  | some (whole, fraction, rest) =>
    match exponent? (fun b => b == 0x65 || b == 0x45) rest with
    | none => none
    | some e =>
      let m := natOf 10 whole
      let limit := if negative then 0x8000000000000000 else 0x7FFFFFFFFFFFFFFF
      if fraction.isNone && e.isNone && m ≤ limit then some (negate negative (.int (.ofNat m)))
      else
        let ds := fraction.getD []
        some (negate negative (.float (ofDecimal (natOf 10 (whole ++ ds)) (e.getD 0 - ds.length))))

def hexadecimal? (negative : Bool) (bs : Bytes) : Option Num :=
  match splitDigits isHexDigit bs with
  | none => none
  | some (whole, fraction, rest) =>
    match exponent? (fun b => b == 0x70 || b == 0x50) rest with
    | none => none
    | some e =>
      if fraction.isNone && e.isNone then some (negate negative (.int (.ofNat (natOf 16 whole))))
      else
        let ds := fraction.getD []
        some (negate negative (.float (ofBinary (natOf 16 (whole ++ ds)) (e.getD 0 - 4 * ds.length))))

def unsigned? (negative : Bool) : Bytes → Option Num
  | 0x30 :: x :: rest => if x == 0x78 || x == 0x58 then hexadecimal? negative rest
    else decimal? negative (0x30 :: x :: rest)
  | bs => decimal? negative bs

def parse? (bs : Bytes) : Option Num :=
  match ((bs.dropWhile isSpace).reverse.dropWhile isSpace).reverse with
  | 0x2D :: rest => unsigned? true rest
  | 0x2B :: rest => unsigned? false rest
  | rest => unsigned? false rest

def toFloat : Num → Float
  | .int n => n.toFloat
  | .float x => x

def toInt? : Num → Option Int64
  | .int n => some n
  | .float x =>
    match Decimal.integer? x with
    | some n => if -0x8000000000000000 ≤ n && n < 0x8000000000000000 then some (.ofInt n) else none
    | none => none

def order? : Num → Num → Option Ordering
  | .int a, .int b => some (compare a.toInt b.toInt)
  | .int a, .float y => Decimal.compareInt a.toInt y
  | .float x, .int b => (Decimal.compareInt b.toInt x).map Ordering.swap
  | .float x, .float y => if x < y then some .lt else if y < x then some .gt else if x == y then some .eq else none

end Num
end Triage.Script
