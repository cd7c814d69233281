/-! Doubles as exact binary fractions, and the way back. -/

namespace Triage.Decimal

inductive Exact where
  | finite (negative : Bool) (mantissa : Nat) (exponent : Int)
  | infinite (negative : Bool)
  | undefined
  deriving DecidableEq

def exactOf (x : Float) : Exact :=
  let bits := x.toBits.toNat
  let negative := bits / 0x8000000000000000 == 1
  let biased : Nat := bits / 0x10000000000000 % 2048
  let fraction : Nat := bits % 0x10000000000000
  if biased == 2047 then (if fraction == 0 then .infinite negative else .undefined)
  else if biased == 0 then .finite negative fraction (-1074)
  else .finite negative (0x10000000000000 + fraction) ((biased : Int) - 1075)

def roundHalfEven (num den : Nat) : Nat :=
  let q := num / den
  let r := num % den
  if 2 * r > den || (2 * r == den && q % 2 == 1) then q + 1 else q

/-- The double of a fraction that some double holds exactly. -/
def ofExact (negative : Bool) (mantissa : Nat) (exponent : Int) : Float :=
  let x := (Float.ofNat mantissa).scaleB exponent
  if negative then -x else x

def integer? (x : Float) : Option Int :=
  match exactOf x with
  | .finite negative m e =>
    let signed (n : Nat) : Int := if negative then -n else n
    if 0 ≤ e then some (signed (m * Nat.pow 2 e.toNat))
    else
      let d : Nat := Nat.pow 2 (-e).toNat
      if m % d == 0 then some (signed (m / d)) else none
  | _ => none

def floor? (x : Float) : Option Int :=
  match exactOf x with
  | .finite negative m e =>
    let signed : Int := if negative then -m else m
    if 0 ≤ e then some (signed * Nat.pow 2 e.toNat) else some (Int.fdiv signed (Nat.pow 2 (-e).toNat))
  | _ => none

/-- The remainder of a division whose quotient is cut toward zero; it has the sign of the dividend. -/
def remainder (a b : Float) : Float :=
  match exactOf a, exactOf b with
  | .finite negative m e, .finite _ n f =>
    if n == 0 then 0.0 / 0.0
    else
      let low := min e f
      let r := (m * Nat.pow 2 (e - low).toNat) % (n * Nat.pow 2 (f - low).toNat)
      ofExact negative r low
  | .finite .., .infinite _ => a
  | _, _ => 0.0 / 0.0

def compareInt (n : Int) (x : Float) : Option Ordering :=
  match exactOf x with
  | .undefined => none
  | .infinite negative => some (if negative then .gt else .lt)
  | .finite negative m e =>
    let signed : Int := if negative then -m else m
    if 0 ≤ e then some (compare n (signed * Nat.pow 2 e.toNat)) else some (compare (n * Nat.pow 2 (-e).toNat) signed)

end Triage.Decimal
