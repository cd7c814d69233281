import Triage.Script.Number

/-!
Text patterns: classes, sets, repetitions, captures, balanced pairs and frontiers. Matching goes along the pattern
and backtracks; it either finds where a match ends, finds none, or meets a malformed pattern.
-/

namespace Triage.Script.Pattern

inductive Member where
  | range (low high : UInt8)
  | cls (letter : UInt8)

inductive Single where
  | any
  | byte (b : UInt8)
  | cls (letter : UInt8)
  | set (isNegated : Bool) (members : List Member)

structure Malformed where
  message : String

def isLower (b : UInt8) : Bool := 0x61 ≤ b && b ≤ 0x7A

def isUpper (b : UInt8) : Bool := 0x41 ≤ b && b ≤ 0x5A

def isLetter (b : UInt8) : Bool := isLower b || isUpper b

def isGraph (b : UInt8) : Bool := 0x21 ≤ b && b ≤ 0x7E

def smallClass? (letter b : UInt8) : Option Bool :=
  match Char.ofNat letter.toNat with
  | 'a' => some (isLetter b)
  | 'c' => some (b < 0x20 || b == 0x7F)
  | 'd' => some (Num.isDigit b)
  | 'g' => some (isGraph b)
  | 'l' => some (isLower b)
  | 'p' => some (isGraph b && !isLetter b && !Num.isDigit b)
  | 's' => some (Num.isSpace b)
  | 'u' => some (isUpper b)
  | 'w' => some (isLetter b || Num.isDigit b)
  | 'x' => some (Num.isHexDigit b)
  | _ => none

def inClass (letter b : UInt8) : Bool :=
  if isUpper letter then
    match smallClass? (letter + 0x20) b with
    | some isIn => !isIn
    | none => letter == b
  else (smallClass? letter b).getD (letter == b)

def Member.test (b : UInt8) : Member → Bool
  | .range low high => low ≤ b && b ≤ high
  | .cls letter => inClass letter b

def Single.test (b : UInt8) : Single → Bool
  | .any => true
  | .byte c => b == c
  | .cls letter => inClass letter b
  | .set isNegated members => members.any (·.test b) != isNegated

/-- The members of a set up to its bracket; the first byte is a member even if it is a bracket. -/
def setMembers : (isFirst : Bool) → Bytes → Option (List Member × Bytes)
  | _, [] => none
  | isFirst, b :: rest =>
    if b == 0x5D && !isFirst then some ([], rest)
    else
      let add (m : Member) (rest : Option (List Member × Bytes)) := rest.map fun (ms, rest) => (m :: ms, rest)
      match b, rest with
      | 0x25, letter :: rest => add (.cls letter) (setMembers false rest)
      | b, 0x2D :: 0x5D :: rest => add (.range b b) (setMembers false (0x2D :: 0x5D :: rest))
      | b, 0x2D :: high :: rest => add (.range b high) (setMembers false rest)
      | b, rest => add (.range b b) (setMembers false rest)

def single? : Bytes → Except Malformed (Single × Bytes)
  | 0x25 :: [] => .error ⟨"malformed pattern (ends with '%')"⟩
  | 0x25 :: letter :: rest => .ok (.cls letter, rest)
  | 0x5B :: rest =>
    let (isNegated, rest) := match rest with
      | 0x5E :: rest => (true, rest)
      | rest => (false, rest)
    match setMembers true rest with
    | some (members, rest) => .ok (.set isNegated members, rest)
    | none => .error ⟨"malformed pattern (missing ']')"⟩
  | 0x2E :: rest => .ok (.any, rest)
  | b :: rest => .ok (.byte b, rest)
  | [] => .error ⟨"malformed pattern"⟩

inductive Extent where
  | opened
  | length (n : Nat)
  | position

structure Capture where
  start : Nat
  extent : Extent

abbrev Captures := List Capture

abbrev Found := Except Malformed (Option (Nat × Captures))

def closeCapture (stop : Nat) : Captures → Option Captures
  | [] => none
  | c :: cs =>
    match c.extent with
    | .opened => some ({ c with extent := .length (stop - c.start) } :: cs)
    | _ => (closeCapture stop cs).map (c :: ·)

def balancedFrom (text : Array UInt8) (opening closing : UInt8) : (fuel depth i : Nat) → Option Nat
  | 0, _, _ => none
  | fuel + 1, depth, i =>
    match text[i]? with
    | none => none
    | some b =>
      if b == closing then
        if depth ≤ 1 then some (i + 1) else balancedFrom text opening closing fuel (depth - 1) (i + 1)
      else balancedFrom text opening closing fuel (if b == opening then depth + 1 else depth) (i + 1)

def countWhile (text : Array UInt8) (test : UInt8 → Bool) : (fuel i : Nat) → Nat
  | 0, _ => 0
  | fuel + 1, i => if (text[i]?.map test).getD false then countWhile text test fuel (i + 1) + 1 else 0

def tryDown (k : Nat → Found) : Nat → Found
  | 0 => k 0
  | n + 1 =>
    match k (n + 1) with
    | .ok none => tryDown k n
    | found => found

def matchFrom (text : Array UInt8) : (fuel : Nat) → Bytes → Nat → Captures → Found
  | 0, _, _, _ => .error ⟨"pattern too complex"⟩
  | _ + 1, [], i, cs => .ok (some (i, cs))
  | fuel + 1, p :: ps, i, cs =>
    let here (test : UInt8 → Bool) : Bool := (text[i]?.map test).getD false
    let ordinary : Unit → Found := fun _ =>
      match single? (p :: ps) with
      | .error e => .error e
      | .ok (s, rest) =>
        match rest with
        | 0x3F :: rest =>
          if here s.test then
            match matchFrom text fuel rest (i + 1) cs with
            | .ok none => matchFrom text fuel rest i cs
            | found => found
          else matchFrom text fuel rest i cs
        | 0x2B :: rest =>
          if here s.test then
            tryDown (fun n => matchFrom text fuel rest (i + 1 + n) cs) (countWhile text s.test text.size (i + 1))
          else .ok none
        | 0x2A :: rest => tryDown (fun n => matchFrom text fuel rest (i + n) cs) (countWhile text s.test text.size i)
        | 0x2D :: rest =>
          match matchFrom text fuel rest i cs with
          | .ok none => if here s.test then matchFrom text fuel (p :: ps) (i + 1) cs else .ok none
          | found => found
        | rest => if here s.test then matchFrom text fuel rest (i + 1) cs else .ok none
    match p, ps with
    | 0x28, 0x29 :: rest => matchFrom text fuel rest i (⟨i, .position⟩ :: cs)
    | 0x28, rest => matchFrom text fuel rest i (⟨i, .opened⟩ :: cs)
    | 0x29, rest =>
      match closeCapture i cs with
      | some cs => matchFrom text fuel rest i cs
      | none => .error ⟨"invalid pattern capture"⟩
    | 0x24, [] => .ok (if i = text.size then some (i, cs) else none)
    | 0x25, 0x62 :: rest =>
      match rest with
      | opening :: closing :: rest =>
        if text[i]? == some opening then
          match balancedFrom text opening closing text.size 1 (i + 1) with
          | some j => matchFrom text fuel rest j cs
          | none => .ok none
        else .ok none
      | _ => .error ⟨"malformed pattern (missing arguments to '%b')"⟩
    | 0x25, 0x66 :: rest =>
      match rest with
      | 0x5B :: _ =>
        match single? rest with
        | .error e => .error e
        | .ok (s, rest) =>
          let before := if i = 0 then 0 else text.getD (i - 1) 0
          if !s.test before && s.test (text.getD i 0) then matchFrom text fuel rest i cs else .ok none
      | _ => .error ⟨"missing '[' after '%f' in pattern"⟩
    | 0x25, d :: rest =>
      if Num.isDigit d then
        match cs.reverse[d.toNat - 0x31]? with
        | some ⟨start, .length n⟩ =>
          if 0x31 ≤ d && i + n ≤ text.size && text.extract start (start + n) == text.extract i (i + n) then
            matchFrom text fuel rest (i + n) cs
          else .ok none
        | _ => .error ⟨"invalid capture index"⟩
      else ordinary ()
    | _, _ => ordinary ()

structure Match where
  start : Nat
  stop : Nat
  captures : Captures

/-- The first match at an index or after it; an anchored pattern matches only there. -/
def searchFrom (text : Array UInt8) (pattern : Bytes) (isAnchored : Bool) :
    (fuel i : Nat) → Except Malformed (Option Match)
  | 0, _ => .ok none
  | fuel + 1, i =>
    match matchFrom text (2 * (text.size + pattern.length) + 2) pattern i [] with
    | .error e => .error e
    | .ok (some (stop, cs)) => .ok (some ⟨i, stop, cs.reverse⟩)
    | .ok none => if isAnchored then .ok none else searchFrom text pattern isAnchored fuel (i + 1)

def search (text : Array UInt8) (pattern : Bytes) (i : Nat) : Except Malformed (Option Match) :=
  match pattern with
  | 0x5E :: rest => searchFrom text rest true (text.size + 1 - i) i
  | _ => searchFrom text pattern false (text.size + 1 - i) i

end Triage.Script.Pattern
