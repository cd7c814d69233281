import Triage.Decimal.Double

/-! The decimal text of a double with a fixed number of significant digits, trailing zeros dropped. -/

namespace Triage.Decimal

structure Format where
  digits : Nat
  lowExponent : Int
  highExponent : Int

/-- Fourteen digits; positional from 0.0001 up to fourteen digits before the point. -/
def Format.general : Format := ⟨14, -4, 14⟩

def leadingExponent (num den : Nat) : Int :=
  let guess : Int := (Nat.toDigits 10 num).length - (Nat.toDigits 10 den).length
  let isBelow := if 0 ≤ guess then num < den * Nat.pow 10 guess.toNat else num * Nat.pow 10 (-guess).toNat < den
  if isBelow then guess - 1 else guess

def roundedDigits (count : Nat) (num den : Nat) : List Char × Int :=
  let lead := leadingExponent num den
  let shift : Int := count - 1 - lead
  let n :=
    if 0 ≤ shift then roundHalfEven (num * Nat.pow 10 shift.toNat) den
    else roundHalfEven num (den * Nat.pow 10 (-shift).toNat)
  if n = Nat.pow 10 count then (Nat.toDigits 10 (n / 10), lead + 1) else (Nat.toDigits 10 n, lead)

def dropTrailingZeros (ds : List Char) : List Char := (ds.reverse.dropWhile (· == '0')).reverse

def withFraction (whole fraction : List Char) : List Char :=
  if fraction.isEmpty then whole else whole ++ '.' :: fraction

def exponentText (e : Int) : List Char :=
  let ds := Nat.toDigits 10 e.natAbs
  (if e < 0 then '-' else '+') :: (if ds.length < 2 then '0' :: ds else ds)

def positional (f : Format) (ds : List Char) (lead : Int) : List Char :=
  if f.lowExponent ≤ lead && lead < f.highExponent then
    if 0 ≤ lead then
      let whole := lead.toNat + 1
      withFraction (ds.take whole) (dropTrailingZeros (ds.drop whole))
    else withFraction ['0'] (dropTrailingZeros (List.replicate ((-lead).toNat - 1) '0' ++ ds))
  else withFraction (ds.take 1) (dropTrailingZeros (ds.drop 1)) ++ 'e' :: exponentText lead

def render (f : Format) (x : Float) : List Char :=
  match exactOf x with
  | .undefined => "-nan".toList
  | .infinite negative => (if negative then "-inf" else "inf").toList
  | .finite negative m e =>
    let body :=
      if m = 0 then ['0']
      else
        let (ds, lead) :=
          if 0 ≤ e then roundedDigits f.digits (m * Nat.pow 2 e.toNat) 1
          else roundedDigits f.digits m (Nat.pow 2 (-e).toNat)
        positional f ds lead
    if negative then '-' :: body else body

def signed (x : Float) (body : (m : Nat) → (e : Int) → List Char) : List Char :=
  match exactOf x with
  | .finite negative m e => (if negative then ['-'] else []) ++ body m e
  | _ => render .general x

def fixed (places : Nat) (x : Float) : List Char :=
  signed x fun m e =>
    let n :=
      if 0 ≤ e then m * Nat.pow 2 e.toNat * Nat.pow 10 places
      else roundHalfEven (m * Nat.pow 10 places) (Nat.pow 2 (-e).toNat)
    let ds := Nat.toDigits 10 n
    let ds := List.replicate (places + 1 - ds.length) '0' ++ ds
    withFraction (ds.take (ds.length - places)) (ds.drop (ds.length - places))

def scientific (places : Nat) (x : Float) : List Char :=
  signed x fun m e =>
    let (ds, lead) : List Char × Int :=
      if m = 0 then (List.replicate (places + 1) '0', 0)
      else if 0 ≤ e then roundedDigits (places + 1) (m * Nat.pow 2 e.toNat) 1
      else roundedDigits (places + 1) m (Nat.pow 2 (-e).toNat)
    withFraction (ds.take 1) (ds.drop 1) ++ 'e' :: exponentText lead

end Triage.Decimal
