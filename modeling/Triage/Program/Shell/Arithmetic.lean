import Triage.Program.Integer

/-! Integer expressions of the shell, over variables given by a function. -/

namespace Triage.Program.Shell.Arithmetic

inductive Token where
  | number (n : Int)
  | sign (s : String)
  deriving DecidableEq, Repr

def signs : List String :=
  ["<<", ">>", "<=", ">=", "==", "!=", "&&", "||", "+", "-", "*", "/", "%", "<", ">", "(", ")", "!"]

def isNameChar (c : Char) : Bool := c.isAlphanum || c == '_'

def tokens (value : String → Int) : (fuel : Nat) → List Char → Option (List Token)
  | 0, cs => if cs.isEmpty then some [] else none
  | _, [] => some []
  | fuel + 1, c :: rest =>
    if c == ' ' || c == '\t' || c == '\n' then tokens value fuel rest
    else if isNameChar c then
      let (word, rest) := (c :: rest).span isNameChar
      let word := String.ofList word
      let n := if c.isDigit then (Integer.read word).value else value word
      (tokens value fuel rest).map (.number n :: ·)
    else
      match signs.find? (·.toList.isPrefixOf (c :: rest)) with
      | some s => (tokens value fuel ((c :: rest).drop s.length)).map (.sign s :: ·)
      | none => none

def truth (b : Bool) : Int := if b then 1 else 0

def operator? : String → Option (Nat × (Int → Int → Option Int))
  | "*" => some (10, fun a b => some (a * b))
  | "/" => some (10, fun a b => if b = 0 then none else some (a.tdiv b))
  | "%" => some (10, fun a b => if b = 0 then none else some (a.tmod b))
  | "+" => some (9, fun a b => some (a + b))
  | "-" => some (9, fun a b => some (a - b))
  | "<<" => some (8, fun a b => some (a * Nat.pow 2 b.toNat))
  | ">>" => some (8, fun a b => some (a.fdiv (Nat.pow 2 b.toNat)))
  | "<" => some (7, fun a b => some (truth (a < b)))
  | "<=" => some (7, fun a b => some (truth (a ≤ b)))
  | ">" => some (7, fun a b => some (truth (b < a)))
  | ">=" => some (7, fun a b => some (truth (b ≤ a)))
  | "==" => some (6, fun a b => some (truth (a = b)))
  | "!=" => some (6, fun a b => some (truth (a ≠ b)))
  | "&&" => some (2, fun a b => some (truth (a ≠ 0 ∧ b ≠ 0)))
  | "||" => some (1, fun a b => some (truth (a ≠ 0 ∨ b ≠ 0)))
  | _ => none

mutual

def operand : (fuel : Nat) → List Token → Option (Int × List Token)
  | 0, _ => none
  | _, .number n :: rest => some (n, rest)
  | fuel + 1, .sign "-" :: rest => (operand fuel rest).map fun (n, rest) => (-n, rest)
  | fuel + 1, .sign "+" :: rest => operand fuel rest
  | fuel + 1, .sign "!" :: rest => (operand fuel rest).map fun (n, rest) => (truth (n = 0), rest)
  | fuel + 1, .sign "(" :: rest =>
    match expression fuel 0 rest with
    | some (n, .sign ")" :: rest) => some (n, rest)
    | _ => none
  | _, _ => none

def expression : (fuel : Nat) → (strength : Nat) → List Token → Option (Int × List Token)
  | 0, _, _ => none
  | fuel + 1, strength, ts => (operand fuel ts).bind fun (n, rest) => operators fuel strength n rest

def operators : (fuel : Nat) → (strength : Nat) → Int → List Token → Option (Int × List Token)
  | 0, _, _, _ => none
  | fuel + 1, strength, first, ts =>
    match ts with
    | .sign s :: rest =>
      match operator? s with
      | some (binds, apply) =>
        if strength < binds then
          (expression fuel binds rest).bind fun (second, rest) =>
            (apply first second).bind fun n => operators fuel strength n rest
        else some (first, ts)
      | none => some (first, ts)
    | ts => some (first, ts)

end

def eval? (value : String → Int) (text : String) : Option Int :=
  match tokens value text.length text.toList with
  | some [] => some 0
  | some ts =>
    match expression (4 * ts.length + 8) 0 ts with
    | some (n, []) => some n
    | _ => none
  | none => none

end Triage.Program.Shell.Arithmetic
