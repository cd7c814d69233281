import Triage.Decimal.Digits
import Triage.Script.Number

/-! Templates with conversions, such as `%-5d`: their parts, and how one conversion writes its value. -/

namespace Triage.Script

structure Layout where
  isLeft : Bool := false
  hasPlus : Bool := false
  hasSpace : Bool := false
  isAlternate : Bool := false
  hasZeros : Bool := false
  width : Nat := 0
  precision : Option Nat := none

inductive TemplatePart where
  | literal (b : UInt8)
  | conversion (layout : Layout) (letter : Char)

namespace Layout

def setFlag (l : Layout) (b : UInt8) : Option Layout :=
  match Char.ofNat b.toNat with
  | '-' => some { l with isLeft := true }
  | '+' => some { l with hasPlus := true }
  | ' ' => some { l with hasSpace := true }
  | '#' => some { l with isAlternate := true }
  | '0' => some { l with hasZeros := true }
  | _ => none

def flags (l : Layout) : Bytes → Layout × Bytes
  | [] => (l, [])
  | b :: rest =>
    match l.setFlag b with
    | some l => flags l rest
    | none => (l, b :: rest)

/-- Width and precision have at most two digits; more are taken for the letter and so refused. -/
def measures (l : Layout) (bs : Bytes) : Layout × Bytes :=
  let ds := (bs.take 2).takeWhile Num.isDigit
  let l := { l with width := Num.natOf 10 ds }
  match bs.drop ds.length with
  | 0x2E :: rest =>
    let ps := (rest.take 2).takeWhile Num.isDigit
    ({ l with precision := some (Num.natOf 10 ps) }, rest.drop ps.length)
  | rest => (l, rest)

def pad (l : Layout) (mayUseZeros : Bool) (cs : List Char) : List Char :=
  let missing := l.width - cs.length
  if l.isLeft then cs ++ List.replicate missing ' '
  else if l.hasZeros && mayUseZeros then
    match cs with
    | '-' :: rest => '-' :: List.replicate missing '0' ++ rest
    | '+' :: rest => '+' :: List.replicate missing '0' ++ rest
    | cs => List.replicate missing '0' ++ cs
  else List.replicate missing ' ' ++ cs

def withSign (l : Layout) (cs : List Char) : List Char :=
  match cs with
  | '-' :: _ => cs
  | _ => if l.hasPlus then '+' :: cs else if l.hasSpace then ' ' :: cs else cs

def digits (l : Layout) (ds : List Char) : List Char :=
  List.replicate (l.precision.getD 1 - ds.length) '0' ++ ds

def integer (l : Layout) (n : Int) : List Char :=
  let ds := l.digits (Nat.toDigits 10 n.natAbs)
  l.pad l.precision.isNone (l.withSign (if n < 0 then '-' :: ds else ds))

def unsigned (l : Layout) (base : Nat) (lead : String) (n : Nat) : List Char :=
  let ds := l.digits (Nat.toDigits base n)
  l.pad l.precision.isNone (if l.isAlternate && n != 0 then lead.toList ++ ds else ds)

def float (l : Layout) (letter : Char) (x : Float) : List Char :=
  let p := l.precision.getD 6
  let body := match letter with
    | 'f' => Decimal.fixed p x
    | 'e' => Decimal.scientific p x
    | _ => Decimal.render ⟨max p 1, -4, (max p 1 : Nat)⟩ x
  l.pad true (l.withSign body)

end Layout

def templateParts : (fuel : Nat) → Bytes → Option (List TemplatePart)
  | _, [] => some []
  | 0, _ :: _ => none
  | fuel + 1, b :: rest =>
    if b != 0x25 then (templateParts fuel rest).map (.literal b :: ·)
    else
      match rest with
      | 0x25 :: rest => (templateParts fuel rest).map (.literal 0x25 :: ·)
      | rest =>
        let (l, rest) := Layout.flags {} rest
        let (l, rest) := l.measures rest
        match rest with
        | letter :: rest => (templateParts fuel rest).map (.conversion l (.ofNat letter.toNat) :: ·)
        | [] => none

end Triage.Script
