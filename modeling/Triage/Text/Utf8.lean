/-!
Reading bytes as text. A machine takes one byte at a time; a byte that cannot go on with the character
under way ends it, and each such maximal broken part is one replacement character.
-/

namespace Triage.Text.Utf8

/-- A character under way: its bits so far, the continuation bytes still owed, and the range of the next one. -/
structure Pending where
  bits : Nat
  owed : Nat
  low : UInt8
  high : UInt8

inductive Lead where
  | char (c : Char)
  | start (p : Pending)
  | broken

def lead (b : UInt8) : Lead :=
  let n := b.toNat
  if n < 0x80 then .char (.ofNat n)
  else if n < 0xC2 then .broken
  else if n < 0xE0 then .start ⟨n - 0xC0, 1, 0x80, 0xBF⟩
  else if n == 0xE0 then .start ⟨0, 2, 0xA0, 0xBF⟩
  else if n == 0xED then .start ⟨0xD, 2, 0x80, 0x9F⟩
  else if n < 0xF0 then .start ⟨n - 0xE0, 2, 0x80, 0xBF⟩
  else if n == 0xF0 then .start ⟨0, 3, 0x90, 0xBF⟩
  else if n < 0xF4 then .start ⟨n - 0xF0, 3, 0x80, 0xBF⟩
  else if n == 0xF4 then .start ⟨4, 3, 0x80, 0x8F⟩
  else .broken

inductive Step where
  | wait (p : Pending)
  | char (c : Char)
  | broken (after : Lead)

def step (p : Pending) (b : UInt8) : Step :=
  if p.low ≤ b && b ≤ p.high then
    let bits := p.bits * 64 + (b.toNat - 0x80)
    if p.owed ≤ 1 then .char (.ofNat bits) else .wait ⟨bits, p.owed - 1, 0x80, 0xBF⟩
  else .broken (lead b)

def replacement : Char := '\uFFFD'

def Lead.emit (out : String) : Lead → String × Option Pending
  | .char c => (out.push c, none)
  | .start p => (out, some p)
  | .broken => (out.push replacement, none)

def decodeFrom (out : String) : Option Pending → List UInt8 → String
  | none, [] => out
  | some _, [] => out.push replacement
  | none, b :: rest => let (out, p) := (lead b).emit out; decodeFrom out p rest
  | some p, b :: rest =>
    match step p b with
    | .wait q => decodeFrom out (some q) rest
    | .char c => decodeFrom (out.push c) none rest
    | .broken next => let (out, q) := next.emit (out.push replacement); decodeFrom out q rest

/-- The text of any bytes: each maximal broken part becomes one replacement character. -/
def decodeLossy (bytes : List UInt8) : String := decodeFrom "" none bytes

def validFrom : Option Pending → List UInt8 → Bool
  | p, [] => p.isNone
  | none, b :: rest =>
    match lead b with
    | .char _ => validFrom none rest
    | .start p => validFrom (some p) rest
    | .broken => false
  | some p, b :: rest =>
    match step p b with
    | .wait q => validFrom (some q) rest
    | .char _ => validFrom none rest
    | .broken _ => false

def isValid (bytes : List UInt8) : Bool := validFrom none bytes

def decode? (bytes : List UInt8) : Option String :=
  if isValid bytes then some (decodeLossy bytes) else none

def encode (s : String) : List UInt8 := s.toUTF8.data.toList

end Triage.Text.Utf8
