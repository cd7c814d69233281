import Triage.Program.Shell.Syntax

/-! Trees of shell scripts. A text that is no script gives none. -/

namespace Triage.Program.Shell

abbrev Parse := ReaderT Nat (StateT (List Char) Option)

namespace Parse

def peek? : Parse (Option Char) := return (← get).head?

def next? : Parse (Option Char) := do
  match ← get with
  | [] => return none
  | c :: rest =>
    set rest
    return some c

def drop (n : Nat) : Parse Unit := modify (·.drop n)

def isBlank (c : Char) : Bool := c == ' ' || c == '\t'

def isMeta (c : Char) : Bool :=
  isBlank c || c == '\n' || c == ';' || c == '&' || c == '|' || c == '<' || c == '>' || c == '(' || c == ')'

def isNameChar (c : Char) : Bool := c.isAlphanum || c == '_'

def isName (s : String) : Bool :=
  match s.toList with
  | c :: cs => !c.isDigit && isNameChar c && cs.all isNameChar
  | [] => false

def skipBlanks : (fuel : Nat) → Parse Unit
  | 0 => pure ()
  | fuel + 1 => do
    match ← get with
    | '\\' :: '\n' :: rest =>
      set rest
      skipBlanks fuel
    | '#' :: rest => set (rest.dropWhile (· != '\n'))
    | c :: rest =>
      if isBlank c then
        set rest
        skipBlanks fuel
    | [] => pure ()

def skipLines : (fuel : Nat) → Parse Unit
  | 0 => pure ()
  | fuel + 1 => do
    skipBlanks fuel
    if (← peek?) == some '\n' then
      drop 1
      skipLines fuel

def accept (s : String) : Parse Bool := do
  skipBlanks (← get).length
  if s.toList.isPrefixOf (← get) then
    drop s.length
    return true
  else return false

def expect (s : String) : Parse Unit := do
  if ← accept s then pure () else failure

def plainWord : Parse String := do
  skipBlanks (← get).length
  return .ofList ((← get).takeWhile (! isMeta ·))

def acceptWord (s : String) : Parse Bool := do
  if (← plainWord) == s then
    drop s.length
    return true
  else return false

def expectWord (s : String) : Parse Unit := do
  skipLines (← get).length
  if ← acceptWord s then pure () else failure

def paramName : Parse (Option String) := do
  match ← get with
  | c :: rest =>
    if c.isDigit || "$#?!@*-".toList.contains c then
      set rest
      return some c.toString
    else if isNameChar c then
      let (name, rest) := (c :: rest).span isNameChar
      set rest
      return some (.ofList name)
    else return none
  | [] => return none

/-- Quotes make a field even of nothing, except around all parameters at once. -/
def quoted (ps : List Part) : List Part :=
  match ps with
  | [.param "@" true] => ps
  | ps => .text "" true :: ps

def fallbackOf : Char → Parse Fallback
  | '-' => return .value
  | '=' => return .assignment
  | '+' => return .replacement
  | _ => failure

/-- The text up to a backquote, and what follows it. A backslash takes the meaning of some characters after it. -/
def untilBackquote : List Char → Option (List Char × List Char)
  | [] => none
  | '\\' :: c :: rest =>
    (untilBackquote rest).map fun (cs, rest) => (if "$`\\".toList.contains c then c :: cs else '\\' :: c :: cs, rest)
  | c :: rest => if c == '`' then some ([], rest) else (untilBackquote rest).map fun (cs, rest) => (c :: cs, rest)

mutual

def backquoted : (fuel : Nat) → (isQuoted : Bool) → Parse Part
  | 0, _ => failure
  | fuel + 1, isQuoted => do
    match untilBackquote (← get) with
    | none => failure
    | some (cs, rest) =>
      set cs
      let items ← script fuel
      if !(← get).isEmpty then failure
      set rest
      return .output items isQuoted

def dollar : (fuel : Nat) → (isQuoted : Bool) → Parse Part
  | 0, _ => failure
  | fuel + 1, isQuoted => do
    match ← get with
    | '(' :: '(' :: rest =>
      set rest
      let parts ← arithmeticParts fuel 0
      return .arithmetic parts isQuoted
    | '(' :: rest =>
      set rest
      let items ← script fuel
      expect ")"
      return .output items isQuoted
    | '\x7b' :: '#' :: rest =>
      set rest
      match ← paramName with
      | some name =>
        expect "\x7d"
        return .length name
      | none => failure
    | '\x7b' :: rest =>
      set rest
      match ← paramName with
      | some name => braced fuel name isQuoted
      | none => failure
    | _ =>
      match ← paramName with
      | some name => return .param name isQuoted
      | none => return .text "$" isQuoted

def braced : (fuel : Nat) → String → (isQuoted : Bool) → Parse Part
  | 0, _, _ => failure
  | fuel + 1, name, isQuoted => do
    match ← get with
    | '\x7d' :: rest =>
      set rest
      return .param name isQuoted
    | ':' :: c :: rest =>
      set rest
      return .fallback name (← fallbackOf c) true (← wordParts fuel true) isQuoted
    | c :: rest =>
      set rest
      return .fallback name (← fallbackOf c) false (← wordParts fuel true) isQuoted
    | [] => failure

def arithmeticParts : (fuel : Nat) → (depth : Nat) → Parse (List Part)
  | 0, _ => failure
  | fuel + 1, depth => do
    match ← next? with
    | some '(' => return .text "(" true :: (← arithmeticParts fuel (depth + 1))
    | some ')' =>
      if depth = 0 then
        match ← next? with
        | some ')' => return []
        | _ => failure
      else return .text ")" true :: (← arithmeticParts fuel (depth - 1))
    | some '$' => do
      let p ← dollar fuel true
      return p :: (← arithmeticParts fuel depth)
    | some c => return .text c.toString true :: (← arithmeticParts fuel depth)
    | none => failure

def quotedParts : (fuel : Nat) → Parse (List Part)
  | 0 => failure
  | fuel + 1 => do
    match ← next? with
    | none => failure
    | some '"' => return []
    | some '\\' =>
      match ← next? with
      | some '\n' => quotedParts fuel
      | some c =>
        let kept := if "$`\"\\".toList.contains c then c.toString else "\\" ++ c.toString
        return .text kept true :: (← quotedParts fuel)
      | none => failure
    | some '$' => do
      let p ← dollar fuel true
      return p :: (← quotedParts fuel)
    | some '`' => do
      let p ← backquoted fuel true
      return p :: (← quotedParts fuel)
    | some c => return .text c.toString true :: (← quotedParts fuel)

def wordParts : (fuel : Nat) → (inBraces : Bool) → Parse (List Part)
  | 0, _ => failure
  | fuel + 1, inBraces => do
    match ← get with
    | [] => if inBraces then failure else return []
    | c :: rest =>
      if inBraces && c == '\x7d' then
        set rest
        return []
      else if !inBraces && isMeta c then return []
      else
        set rest
        if c.toNat = 0x27 then
          let (quoted, rest) := rest.span (·.toNat != 0x27)
          match rest with
          | _ :: rest =>
            set rest
            return .text (.ofList quoted) true :: (← wordParts fuel inBraces)
          | [] => failure
        else if c == '"' then
          let ps ← quotedParts fuel
          return quoted ps ++ (← wordParts fuel inBraces)
        else if c == '\\' then
          match rest with
          | '\n' :: rest =>
            set rest
            wordParts fuel inBraces
          | c :: rest =>
            set rest
            return .text c.toString true :: (← wordParts fuel inBraces)
          | [] => return [.text "\\" true]
        else if c == '$' then
          let p ← dollar fuel false
          return p :: (← wordParts fuel inBraces)
        else if c == '`' then
          let p ← backquoted fuel false
          return p :: (← wordParts fuel inBraces)
        else return .text c.toString false :: (← wordParts fuel inBraces)

def redirect? : (fuel : Nat) → Parse (Option Redirect)
  | 0 => failure
  | fuel + 1 => do
    skipBlanks fuel
    let (digits, rest) := (← get).span Char.isDigit
    let fd? := (String.ofList digits).toNat?
    let read (kind : RedirectKind) (usual : Nat) (rest : List Char) : Parse (Option Redirect) := do
      set rest
      skipBlanks fuel
      let target ← wordParts fuel false
      if target.isEmpty then failure
      return some (.mk (fd?.getD usual) kind target)
    match rest with
    | '>' :: '&' :: rest => read .duplicate 1 rest
    | '<' :: '&' :: rest => read .duplicate 0 rest
    | '>' :: '>' :: rest => read .write 1 rest
    | '>' :: '|' :: rest => read .write 1 rest
    | '>' :: rest => read .write 1 rest
    | '<' :: '<' :: _ => failure
    | '<' :: rest => read .read 0 rest
    | _ => return none

def redirects : (fuel : Nat) → Parse (List Redirect)
  | 0 => failure
  | fuel + 1 => do
    match ← redirect? fuel with
    | some r => return r :: (← redirects fuel)
    | none => return []

def simpleParts : (fuel : Nat) → Parse (List Word × List Redirect)
  | 0 => failure
  | fuel + 1 => do
    match ← redirect? fuel with
    | some r =>
      let (ws, rs) ← simpleParts fuel
      return (ws, r :: rs)
    | none =>
      match ← peek? with
      | none => return ([], [])
      | some c =>
        if isMeta c then return ([], [])
        else
          let w ← wordParts fuel false
          let (ws, rs) ← simpleParts fuel
          return (w :: ws, rs)

def command : (fuel : Nat) → Parse Command
  | 0 => failure
  | fuel + 1 => do
    if ← accept "(" then
      let body ← script fuel
      expect ")"
      return .subshell body (← redirects fuel)
    else if ← acceptWord "\x7b" then
      let body ← script fuel
      expectWord "\x7d"
      return .group body (← redirects fuel)
    else if ← acceptWord "if" then branch fuel
    else if ← acceptWord "while" then loop fuel false
    else if ← acceptWord "until" then loop fuel true
    else if ← acceptWord "for" then
      let name ← plainWord
      drop name.length
      let words ← if ← acceptWord "in" then
          let (ws, _) ← simpleParts fuel
          pure ws
        else pure [[Part.param "@" true]]
      let _ ← accept ";"
      expectWord "do"
      let body ← script fuel
      expectWord "done"
      return .each name words body
    else
      let line := (← read) - (← get).count '\n'
      let (ws, rs) ← simpleParts fuel
      if ws.isEmpty && rs.isEmpty then failure
      let (assigns, words) := splitAssigns ws
      return .simple line assigns words rs
where
  /-- The name and value of a word that assigns. -/
  assign? (w : Word) : Option (String × Word) :=
    let isPlain : Part → Bool
      | .text _ q => !q
      | _ => false
    let start := (w.takeWhile isPlain).flatMap fun
      | .text s _ => s.toList
      | _ => []
    let name := String.ofList (start.takeWhile (· != '='))
    if isName name && start.contains '=' then some (name, dropChars (name.length + 1) w) else none
  dropChars : Nat → Word → Word
    | 0, w => w
    | n + 1, .text _ _ :: rest => dropChars n rest
    | _, w => w
  splitAssigns : List Word → List (String × Word) × List Word
    | [] => ([], [])
    | w :: ws =>
      match assign? w with
      | some a =>
        let (as, ws) := splitAssigns ws
        (a :: as, ws)
      | none => ([], w :: ws)

def branch : (fuel : Nat) → Parse Command
  | 0 => failure
  | fuel + 1 => do
    let condition ← script fuel
    expectWord "then"
    let yes ← script fuel
    skipLines fuel
    if ← acceptWord "elif" then return .branch condition yes [.mk (← branch fuel) false]
    else if ← acceptWord "else" then
      let no ← script fuel
      expectWord "fi"
      return .branch condition yes no
    else
      expectWord "fi"
      return .branch condition yes []

def loop : (fuel : Nat) → (isUntil : Bool) → Parse Command
  | 0, _ => failure
  | fuel + 1, isUntil => do
    let condition ← script fuel
    expectWord "do"
    let body ← script fuel
    expectWord "done"
    return .loop isUntil condition body

def stages : (fuel : Nat) → Parse (List Command)
  | 0 => failure
  | fuel + 1 => do
    let c ← command fuel
    skipBlanks fuel
    match ← get with
    | '|' :: '|' :: _ => return [c]
    | '|' :: rest =>
      set rest
      skipLines fuel
      return c :: (← stages fuel)
    | _ => return [c]

def pipeline : (fuel : Nat) → Parse Command
  | 0 => failure
  | fuel + 1 => do
    let isNegated ← acceptWord "!"
    match ← stages fuel, isNegated with
    | [c], false => return c
    | cs, isNegated => return .pipe isNegated cs

def joined : (fuel : Nat) → Command → Parse Command
  | 0, _ => failure
  | fuel + 1, first => do
    if ← accept "&&" then
      skipLines fuel
      joined fuel (.both true first (← pipeline fuel))
    else if ← accept "||" then
      skipLines fuel
      joined fuel (.both false first (← pipeline fuel))
    else return first

def script : (fuel : Nat) → Parse Script
  | 0 => failure
  | fuel + 1 => do
    skipLines fuel
    let w ← plainWord
    let isEnd := (match ← peek? with
      | none => true
      | some c => c == ')') || ["then", "elif", "else", "fi", "do", "done", "\x7d"].contains w
    if isEnd then return []
    else
      let c ← joined fuel (← pipeline fuel)
      skipBlanks fuel
      match ← get with
      | '&' :: rest =>
        set rest
        return .mk c true :: (← script fuel)
      | ';' :: rest =>
        set rest
        return .mk c false :: (← script fuel)
      | '\n' :: rest =>
        set rest
        return .mk c false :: (← script fuel)
      | _ => return [.mk c false]

end

end Parse

def parse? (text : String) : Option Script :=
  match ((Parse.script (8 * text.length + 64)).run (text.toList.count '\n' + 1)).run text.toList with
  | some (items, []) => some items
  | _ => none

end Triage.Program.Shell
