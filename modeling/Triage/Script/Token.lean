import Triage.Script.Number

/-! Tokens of script text, each with the line on which it ends. -/

namespace Triage.Script

inductive Token where
  | name (text : String)
  | keyword (text : String)
  | symbol (text : String)
  | number (n : Num)
  | text (bytes : Bytes)

structure Located where
  token : Token
  line : Nat

namespace Token

def keywords : List String :=
  ["and", "break", "do", "else", "elseif", "end", "false", "for", "function", "goto", "if", "in", "local", "nil",
   "not", "or", "repeat", "return", "then", "true", "until", "while"]

def longSymbols : List String := ["...", "<<", ">>", "//", "==", "~=", "<=", ">=", "::", ".."]

def shortSymbols : List Char :=
  ['+', '-', '*', '/', '%', '^', '#', '&', '~', '|', '<', '>', '=', '(', ')', '\x7b', '\x7d', '[', ']', ';', ':',
   ',', '.']

def isNameStart (b : UInt8) : Bool := (0x41 ≤ b && b ≤ 0x5A) || (0x61 ≤ b && b ≤ 0x7A) || b == 0x5F

def isNamePart (b : UInt8) : Bool := isNameStart b || Num.isDigit b

def isBreak (b : UInt8) : Bool := b == 0x0A || b == 0x0D

/-- A line break is one byte or two different ones. -/
def afterBreak : Bytes → Bytes
  | a :: b :: rest => if isBreak b && a != b then rest else b :: rest
  | _ :: rest => rest
  | [] => []

def stringOf (bs : Bytes) : String := .ofList (bs.map fun b => Char.ofNat b.toNat)

def longOpen? : Bytes → Option (Nat × Bytes)
  | 0x5B :: rest =>
    let (marks, rest) := rest.span (· == 0x3D)
    match rest with
    | 0x5B :: rest => some (marks.length, rest)
    | _ => none
  | _ => none

def longClose? (level : Nat) : Bytes → Option Bytes
  | 0x5D :: rest =>
    let (marks, rest) := rest.span (· == 0x3D)
    match rest with
    | 0x5D :: rest => if marks.length = level then some rest else none
    | _ => none
  | _ => none

/-- The content up to the closing bracket; every line break in it counts as a line feed. -/
def longBody (level : Nat) : (fuel : Nat) → (line : Nat) → (acc : Bytes) → Bytes → Option (Bytes × Nat × Bytes)
  | 0, _, _, _ => none
  | _ + 1, _, _, [] => none
  | fuel + 1, line, acc, b :: rest =>
    match longClose? level (b :: rest) with
    | some after => some (acc.reverse, line, after)
    | none =>
      if isBreak b then longBody level fuel (line + 1) (0x0A :: acc) (afterBreak (b :: rest))
      else longBody level fuel line (b :: acc) rest

def longText (level line : Nat) (input : Bytes) : Option (Bytes × Nat × Bytes) :=
  match input with
  | b :: rest =>
    if isBreak b then longBody level (rest.length + 1) (line + 1) [] (afterBreak (b :: rest))
    else longBody level (input.length + 1) line [] input
  | [] => none

def wideBytes (n : Nat) : Bytes :=
  let tail (k : Nat) : UInt8 := .ofNat (0x80 + n / Nat.pow 64 k % 64)
  if n < 0x80 then [.ofNat n]
  else if n < 0x800 then [.ofNat (0xC0 + n / 64), tail 0]
  else if n < 0x10000 then [.ofNat (0xE0 + n / 0x1000), tail 1, tail 0]
  else if n < 0x200000 then [.ofNat (0xF0 + n / 0x40000), tail 2, tail 1, tail 0]
  else if n < 0x4000000 then [.ofNat (0xF8 + n / 0x1000000), tail 3, tail 2, tail 1, tail 0]
  else [.ofNat (0xFC + n / 0x40000000), tail 4, tail 3, tail 2, tail 1, tail 0]

def letterEscape? (b : UInt8) : Option UInt8 :=
  match Char.ofNat b.toNat with
  | 'a' => some 7
  | 'b' => some 8
  | 'f' => some 12
  | 'n' => some 10
  | 'r' => some 13
  | 't' => some 9
  | 'v' => some 11
  | '\\' => some 0x5C
  | '"' => some 0x22
  | '\'' => some 0x27
  | _ => none

def escape? : Bytes → Option (Bytes × Nat × Bytes)
  | [] => none
  | b :: rest =>
    match letterEscape? b with
    | some c => some ([c], 0, rest)
    | none =>
      if isBreak b then some ([0x0A], 1, afterBreak (b :: rest))
      else if b == 0x78 then
        match rest with
        | h :: l :: rest =>
          match Num.hexValue? h, Num.hexValue? l with
          | some h, some l => some ([.ofNat (h * 16 + l)], 0, rest)
          | _, _ => none
        | _ => none
      else if b == 0x7A then
        let (blanks, rest) := rest.span Num.isSpace
        some ([], (blanks.filter (· == 0x0A)).length, rest)
      else if b == 0x75 then
        match rest with
        | 0x7B :: rest =>
          let (ds, rest) := rest.span Num.isHexDigit
          match rest with
          | 0x7D :: rest =>
            let n := Num.natOf 16 ds
            if ds.isEmpty || 0x80000000 ≤ n then none else some (wideBytes n, 0, rest)
          | _ => none
        | _ => none
      else if Num.isDigit b then
        let ds := (b :: rest).take 3 |>.takeWhile Num.isDigit
        let n := Num.natOf 10 ds
        if 255 < n then none else some ([.ofNat n], 0, (b :: rest).drop ds.length)
      else none

def shortBody (quote : UInt8) : (fuel : Nat) → (line : Nat) → (acc : Bytes) → Bytes → Option (Bytes × Nat × Bytes)
  | 0, _, _, _ => none
  | _ + 1, _, _, [] => none
  | fuel + 1, line, acc, b :: rest =>
    if b == quote then some (acc.reverse, line, rest)
    else if isBreak b then none
    else if b == 0x5C then
      match escape? rest with
      | some (bytes, lines, rest) => shortBody quote fuel (line + lines) (bytes.reverseAux acc) rest
      | none => none
    else shortBody quote fuel line (b :: acc) rest

/-- The bytes that belong to a numeral; a sign belongs to it only after a mark of its exponent. -/
def numeralBytes (isMark : UInt8 → Bool) : Bytes → Bytes × Bytes
  | [] => ([], [])
  | b :: rest =>
    if isMark b then
      match rest with
      | s :: after =>
        if s == 0x2B || s == 0x2D then let (ds, rest) := numeralBytes isMark after; (b :: s :: ds, rest)
        else let (ds, rest) := numeralBytes isMark (s :: after); (b :: ds, rest)
      | [] => ([b], [])
    else if Num.isHexDigit b || b == 0x2E then let (ds, rest) := numeralBytes isMark rest; (b :: ds, rest)
    else ([], b :: rest)

def numeral? (input : Bytes) : Option (Num × Bytes) :=
  let isHex := match input with
    | 0x30 :: x :: _ => x == 0x78 || x == 0x58
    | _ => false
  let (bs, rest) :=
    if isHex then
      let (bs, rest) := numeralBytes (fun b => b == 0x70 || b == 0x50) (input.drop 2)
      (input.take 2 ++ bs, rest)
    else numeralBytes (fun b => b == 0x65 || b == 0x45) input
  if (rest.head?.map isNamePart).getD false then none else (Num.parse? bs).map (·, rest)

def afterComment (line : Nat) (input : Bytes) : Option (Nat × Bytes) :=
  match longOpen? input with
  | some (level, body) => (longText level line body).map fun (_, line, rest) => (line, rest)
  | none => some (line, input.dropWhile (! isBreak ·))

def beginsWith (symbol : String) (input : Bytes) : Bool :=
  (asciiBytes symbol.toList).isPrefixOf input

def symbol? (input : Bytes) : Option (String × Bytes) :=
  match longSymbols.find? (beginsWith · input) with
  | some s => some (s, input.drop s.length)
  | none =>
    match input with
    | b :: rest =>
      if shortSymbols.contains (Char.ofNat b.toNat) then some (.singleton (Char.ofNat b.toNat), rest) else none
    | [] => none

def scan : (fuel : Nat) → (line : Nat) → (acc : List Located) → Bytes → Option (List Located)
  | 0, _, _, _ => none
  | _ + 1, _, acc, [] => some acc.reverse
  | fuel + 1, line, acc, b :: rest =>
    let input := b :: rest
    if isBreak b then scan fuel (line + 1) acc (afterBreak input)
    else if Num.isSpace b then scan fuel line acc rest
    else if beginsWith "--" input then
      match afterComment line (input.drop 2) with
      | some (line, rest) => scan fuel line acc rest
      | none => none
    else if isNameStart b then
      let (word, rest) := input.span isNamePart
      let word := stringOf word
      let token := if keywords.contains word then Token.keyword word else .name word
      scan fuel line (⟨token, line⟩ :: acc) rest
    else if Num.isDigit b || (b == 0x2E && (rest.head?.map Num.isDigit).getD false) then
      match numeral? input with
      | some (n, rest) => scan fuel line (⟨.number n, line⟩ :: acc) rest
      | none => none
    else if b == 0x22 || b == 0x27 then
      match shortBody b input.length line [] rest with
      | some (bytes, line, rest) => scan fuel line (⟨.text bytes, line⟩ :: acc) rest
      | none => none
    else
      match longOpen? input with
      | some (level, body) =>
        match longText level line body with
        | some (bytes, line, rest) => scan fuel line (⟨.text bytes, line⟩ :: acc) rest
        | none => none
      | none =>
        match symbol? input with
        | some (s, rest) => scan fuel line (⟨.symbol s, line⟩ :: acc) rest
        | none => none

def ofText (source : Bytes) : Option (List Located) := scan (source.length + 1) 1 [] source

end Token
end Triage.Script
