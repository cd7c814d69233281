import Triage.Script.Machine
import Triage.Script.Operators
import Triage.Script.Pattern
import Triage.Script.Template

/-! The functions that scripts find among the globals. -/

namespace Triage.Script.Library

variable {σ : Type}

def bytes (b : Bytes) : ByteArray := ⟨b.toArray⟩

def textOf (cs : List Char) : Value := .text (String.ofList cs).toUTF8

def arg (args : List Value) (n : Nat) : Value := args.getD (n - 1) .nil

def badArgument {α : Type} (callers : Callers) (n : Nat) (b : Builtin) (problem : String) : Eval σ α :=
  fail callers ("bad argument #" ++ toString n ++ " to '" ++ reprStr b ++ "' (" ++ problem ++ ")")

def checkAny (b : Builtin) (args : List Value) (n : Nat) (callers : Callers) : Eval σ Unit :=
  if args.length < n then badArgument callers n b "value expected" else pure ()

def checkTable (b : Builtin) (args : List Value) (n : Nat) (callers : Callers) : Eval σ Nat :=
  match arg args n with
  | .table r => pure r
  | v => badArgument callers n b ("table expected, got " ++ v.typeName)

def checkText (b : Builtin) (args : List Value) (n : Nat) (callers : Callers) : Eval σ ByteArray :=
  match (arg args n).plainText? with
  | some t => pure t
  | none => badArgument callers n b ("string expected, got " ++ (arg args n).typeName)

def checkInt (b : Builtin) (args : List Value) (n : Nat) (callers : Callers) : Eval σ Int :=
  match (arg args n).toNum? with
  | some m =>
    match m.toInt? with
    | some i => pure i.toInt
    | none => badArgument callers n b "number has no integer representation"
  | none => badArgument callers n b ("number expected, got " ++ (arg args n).typeName)

def optInt (b : Builtin) (args : List Value) (n : Nat) (default : Int) (callers : Callers) : Eval σ Int :=
  if (arg args n).isNil then pure default else checkInt b args n callers

def checkNum (b : Builtin) (args : List Value) (n : Nat) (callers : Callers) : Eval σ Num :=
  match (arg args n).toNum? with
  | some m => pure m
  | none => badArgument callers n b ("number expected, got " ++ (arg args n).typeName)

def int (n : Int) : Value := .int (.ofInt n)

def error (args : List Value) (callers : Callers) : Eval σ (List Value) := do
  let level ← optInt .error args 2 1 callers
  match arg args 1 with
  | .text message =>
    if 0 < level then
      let chunk ← Eval.readHeap (·.chunk)
      Eval.raise (.text ((position chunk (callers.lineAt level.toNat)).toUTF8 ++ message))
    else Eval.raise (.text message)
  | v => Eval.raise v

def assert (args : List Value) (callers : Callers) : Eval σ (List Value) := do
  checkAny .assert args 1 callers
  if (arg args 1).isTrue then pure args
  else error [args.getD 1 (ascii "assertion failed!")] callers

def select (args : List Value) (callers : Callers) : Eval σ (List Value) := do
  let rest := args.drop 1
  match arg args 1 with
  | .text b =>
    if b == "#".toUTF8 then pure [int rest.length] else selectFrom rest (← checkInt .select args 1 callers)
  | _ => selectFrom rest (← checkInt .select args 1 callers)
where
  selectFrom (rest : List Value) (n : Int) : Eval σ (List Value) :=
    let start := if n < 0 then (rest.length : Int) + n else n - 1
    if start < 0 then badArgument callers 1 .select "index out of range" else pure (rest.drop start.toNat)

def next (args : List Value) (callers : Callers) : Eval σ (List Value) := do
  let r ← checkTable .next args 1 callers
  let t ← Eval.readHeap (·.table r)
  let after := match arg args 2 with
    | .nil => t.next? none
    | v => (Key.of? v).bind fun k => t.next? (some k)
  match after with
  | some (some e) => pure [e.key.value, e.value]
  | some none => pure [.nil]
  | none => fail callers "invalid key to 'next'"

def setmetatable (args : List Value) (callers : Callers) : Eval σ (List Value) := do
  let r ← checkTable .setmetatable args 1 callers
  let chosen ← match arg args 2 with
    | .nil => pure none
    | .table m => pure (some m)
    | _ => badArgument callers 2 .setmetatable "nil or table expected"
  if !(← Eval.readHeap (·.metafield (.table r) "__metatable")).isNil then
    fail callers "cannot change a protected metatable"
  Eval.modifyHeap fun h => h.setTable r { h.table r with metatable := chosen }
  pure [.table r]

def getmetatable (args : List Value) (callers : Callers) : Eval σ (List Value) := do
  checkAny .getmetatable args 1 callers
  match arg args 1 with
  | .object _ => pure [.bool false]
  | v =>
    match ← Eval.readHeap (·.metatable? v) with
    | none => pure [.nil]
    | some m =>
      match ← Eval.readHeap (·.metafield v "__metatable") with
      | .nil => pure [.table m]
      | shown => pure [shown]

def rawset (args : List Value) (callers : Callers) : Eval σ (List Value) := do
  let r ← checkTable .rawset args 1 callers
  match Key.of? (arg args 2) with
  | some k =>
    Eval.modifyHeap fun h => h.rawSet r k (arg args 3)
    pure [.table r]
  | none => fail (callers.push none) (if (arg args 2).isNil then "table index is nil" else "table index is NaN")

def tonumberBase (base : Nat) (b : Bytes) : Value :=
  let trimmed := ((b.dropWhile Num.isSpace).reverse.dropWhile Num.isSpace).reverse
  let (isNegative, ds) := match trimmed with
    | 0x2D :: ds => (true, ds)
    | ds => (false, ds)
  let digit? (b : UInt8) : Option Nat :=
    let n := if Num.isDigit b then b.toNat - 0x30 else if Pattern.isLetter b then b.toNat % 32 + 9 else 99
    if n < base then some n else none
  let n := ds.foldl (fun acc d => acc.bind fun n => (digit? d).map (n * base + ·)) (some 0)
  match n with
  | some n => if ds.isEmpty then .nil else int (if isNegative then -n else n)
  | none => .nil

def tonumber (args : List Value) (callers : Callers) : Eval σ (List Value) := do
  match arg args 2 with
  | .nil =>
    checkAny .tonumber args 1 callers
    pure [((arg args 1).toNum?.map Value.ofNum).getD .nil]
  | _ =>
    let base ← checkInt .tonumber args 2 callers
    match arg args 1 with
    | .text b =>
      if 2 ≤ base && base ≤ 36 then pure [tonumberBase base.toNat b.toList]
      else badArgument callers 2 .tonumber "base out of range"
    | v => badArgument callers 1 .tonumber ("string expected, got " ++ v.typeName)

section Tables

variable (self : Recur σ)

def lengthOf (r : Nat) (callers : Callers) : Eval σ Int := do
  match ← Eval.readHeap (·.metafield (.table r) "__len") with
  | .nil => return (← Eval.readHeap fun h => (h.table r).border : Nat)
  | handler =>
    match (← self.call1 handler [.table r] (callers.push none)).toInt? with
    | some n => pure n.toInt
    | none => fail callers "object length is not an integer"

def getAt (r : Nat) (i : Int) (callers : Callers) : Eval σ Value := self.index (.table r) (int i) callers

def setAt (r : Nat) (i : Int) (v : Value) (callers : Callers) : Eval σ Unit :=
  self.setIndex (.table r) (int i) v callers

def collect (r : Nat) (callers : Callers) : (count : Nat) → (i : Int) → Eval σ (List Value)
  | 0, _ => pure []
  | n + 1, i => do
    let v ← getAt self r i callers
    return v :: (← collect r callers n (i + 1))

def concat (args : List Value) (callers : Callers) : Eval σ (List Value) := do
  let r ← checkTable .concat args 1 callers
  let separator ← if (arg args 2).isNil then pure ByteArray.empty else checkText .concat args 2 callers
  let first ← optInt .concat args 3 1 callers
  let last ← if (arg args 4).isNil then lengthOf self r callers else checkInt .concat args 4 callers
  let vs ← collect self r (callers.push none) (last - first + 1).toNat first
  let texts ← pieces vs first
  pure [.text (join separator texts)]
where
  pieces : List Value → Int → Eval σ (List ByteArray)
    | [], _ => pure []
    | v :: rest, i =>
      match v.plainText? with
      | some t => do return t :: (← pieces rest (i + 1))
      | none => fail callers ("invalid value (at index " ++ toString i ++ ") in table for 'concat'")
  join (separator : ByteArray) : List ByteArray → ByteArray
    | [] => .empty
    | t :: rest => rest.foldl (fun acc t => acc ++ separator ++ t) t

def shiftUp (r : Nat) (callers : Callers) : (count : Nat) → (from_ : Int) → Eval σ Unit
  | 0, _ => pure ()
  | n + 1, i => do
    setAt self r (i + n + 1) (← getAt self r (i + n) callers) callers
    shiftUp r callers n i

def insert (args : List Value) (callers : Callers) : Eval σ (List Value) := do
  let r ← checkTable .insert args 1 callers
  let inner := callers.push none
  let last := (← lengthOf self r callers) + 1
  match args.length with
  | 2 => setAt self r last (arg args 2) inner
  | 3 =>
    let i ← checkInt .insert args 2 callers
    if i < 1 || last < i then badArgument callers 2 .insert "position out of bounds"
    shiftUp self r inner (last - i).toNat i
    setAt self r i (arg args 3) inner
  | _ => fail callers "wrong number of arguments to 'insert'"
  pure []

def shiftDown (r : Nat) (callers : Callers) : (count : Nat) → (i : Int) → Eval σ Unit
  | 0, _ => pure ()
  | n + 1, i => do
    setAt self r i (← getAt self r (i + 1) callers) callers
    shiftDown r callers n (i + 1)

def remove (args : List Value) (callers : Callers) : Eval σ (List Value) := do
  let r ← checkTable .remove args 1 callers
  let inner := callers.push none
  let size ← lengthOf self r callers
  let i ← optInt .remove args 2 size callers
  if i != size && (i < 1 || size + 1 < i) then
    badArgument callers 2 .remove "position out of bounds"
  let removed ← getAt self r i inner
  shiftDown self r inner (size - i).toNat i
  setAt self r (max i size) .nil inner
  pure [removed]

def pack (args : List Value) : Eval σ (List Value) :=
  Eval.onHeap fun h =>
    let t := (Table.ofList args 1).set (.text "n".toUTF8) (int args.length)
    let (r, h) := h.newTable t
    ([.table r], h)

def unpack (args : List Value) (callers : Callers) : Eval σ (List Value) := do
  let first ← optInt .unpack args 2 1 callers
  match arg args 1 with
  | .table r =>
    let last ← if (arg args 3).isNil then lengthOf self r callers else checkInt .unpack args 3 callers
    if last - first ≥ 1000000 then fail callers "too many results to unpack"
    collect self r (callers.push none) (last - first + 1).toNat first
  | v =>
    let last ← checkInt .unpack args 3 callers
    if last < first then pure [] else fail callers ("attempt to index a " ++ v.typeName ++ " value")

def goesBefore (order : Value) (callers : Callers) (a b : Value) : Eval σ Bool := do
  match order with
  | .nil =>
    match Operators.less? a b with
    | some isLess => pure isLess
    | none =>
      let handler ← Eval.readHeap fun h =>
        let own := h.metafield a "__lt"
        if own.isNil then h.metafield b "__lt" else own
      if handler.isNil then
        fail callers ("attempt to compare " ++ a.typeName ++ " with " ++ b.typeName)
      else return (← self.call1 handler [a, b] callers).isTrue
  | f => return (← self.call1 f [a, b] callers).isTrue

def swap (vs : Array Value) (i j : Nat) : Array Value :=
  let a := vs.getD i .nil
  (vs.setIfInBounds i (vs.getD j .nil)).setIfInBounds j a

def orderPair (before : Value → Value → Eval σ Bool) (vs : Array Value) (i j : Nat) : Eval σ (Array Value) := do
  if ← before (vs.getD j .nil) (vs.getD i .nil) then pure (swap vs i j) else pure vs

def scanUp (before : Value → Value → Eval σ Bool) (callers : Callers) (vs : Array Value) (pivot : Value) (last : Nat) :
    (fuel i : Nat) → Eval σ Nat
  | 0, i => pure i
  | fuel + 1, i => do
    if ← before (vs.getD i .nil) pivot then
      if i = last then fail callers "invalid order function for sorting"
      scanUp before callers vs pivot last fuel (i + 1)
    else pure i

def scanDown (before : Value → Value → Eval σ Bool) (callers : Callers) (vs : Array Value) (pivot : Value)
    (first : Nat) : (fuel j : Nat) → Eval σ Nat
  | 0, j => pure j
  | fuel + 1, j => do
    if ← before pivot (vs.getD j .nil) then
      if j < first then fail callers "invalid order function for sorting"
      scanDown before callers vs pivot first fuel (j - 1)
    else pure j

def partition (before : Value → Value → Eval σ Bool) (callers : Callers) (pivot : Value) (up : Nat) :
    (fuel : Nat) → Array Value → (i j : Nat) → Eval σ (Array Value × Nat)
  | 0, vs, i, _ => pure (vs, i)
  | fuel + 1, vs, i, j => do
    let i ← scanUp before callers vs pivot (up - 1) vs.size (i + 1)
    let j ← scanDown before callers vs pivot i vs.size (j - 1)
    if j < i then pure (swap vs (up - 1) i, i) else partition before callers pivot up fuel (swap vs i j) i j

def sortRange (before : Value → Value → Eval σ Bool) (callers : Callers) :
    (fuel : Nat) → Array Value → (lo up : Nat) → Eval σ (Array Value)
  | 0, vs, _, _ => pure vs
  | fuel + 1, vs, lo, up => do
    if up ≤ lo then return vs
    let vs ← orderPair before vs lo up
    if up - lo = 1 then return vs
    let p := (lo + up) / 2
    let vs ← if ← before (vs.getD p .nil) (vs.getD lo .nil) then pure (swap vs p lo) else orderPair before vs p up
    if up - lo = 2 then return vs
    let pivot := vs.getD p .nil
    let (vs, p) ← partition before callers pivot up vs.size (swap vs p (up - 1)) lo (up - 1)
    if p - lo < up - p then
      let vs ← sortRange before callers fuel vs lo (p - 1)
      sortRange before callers fuel vs (p + 1) up
    else
      let vs ← sortRange before callers fuel vs (p + 1) up
      sortRange before callers fuel vs lo (p - 1)

def storeAll (r : Nat) (callers : Callers) : List Value → Int → Eval σ Unit
  | [], _ => pure ()
  | v :: rest, i => do
    setAt self r i v callers
    storeAll r callers rest (i + 1)

def sort (args : List Value) (callers : Callers) : Eval σ (List Value) := do
  let r ← checkTable .sort args 1 callers
  let inner := callers.push none
  let size ← lengthOf self r callers
  if size ≤ 1 then return []
  match arg args 2 with
  | .nil | .function _ => pure ()
  | v => badArgument callers 2 .sort ("function expected, got " ++ v.typeName)
  let vs ← collect self r inner size.toNat 1
  let sorted ← sortRange (goesBefore self (arg args 2) inner) inner (2 * vs.length + 2) vs.toArray 0 (vs.length - 1)
  storeAll self r inner sorted.toList 1
  pure []

end Tables

def startIndex (i size : Int) : Int := if 0 < i then i else if i = 0 then 1 else if i < -size then 1 else size + i + 1

def stopIndex (j size : Int) : Int :=
  if size < j then size else if 0 ≤ j then j else if j < -size then 0 else size + j + 1

def sub (args : List Value) (callers : Callers) : Eval σ (List Value) := do
  let t ← checkText .sub args 1 callers
  let i := startIndex (← checkInt .sub args 2 callers) t.size
  let j := stopIndex (← optInt .sub args 3 (-1) callers) t.size
  pure [.text (if j < i then .empty else t.extract (i - 1).toNat j.toNat)]

def mapBytes (b : Builtin) (f : UInt8 → UInt8) (args : List Value) (callers : Callers) : Eval σ (List Value) := do
  let t ← checkText b args 1 callers
  pure [.text (bytes (t.toList.map f))]

def rep (args : List Value) (callers : Callers) : Eval σ (List Value) := do
  let t ← checkText .rep args 1 callers
  let n ← checkInt .rep args 2 callers
  let separator ← if (arg args 3).isNil then pure ByteArray.empty else checkText .rep args 3 callers
  if n ≤ 0 then return [.text .empty]
  if 100000000 < (t.size + separator.size) * n.toNat then fail callers "resulting string too large"
  let more := (List.replicate (n.toNat - 1) ()).foldl (fun acc _ => acc ++ separator ++ t) t
  pure [.text more]

def byte (args : List Value) (callers : Callers) : Eval σ (List Value) := do
  let t ← checkText .byte args 1 callers
  let first ← optInt .byte args 2 1 callers
  let i := startIndex first t.size
  let j := stopIndex (← optInt .byte args 3 (if (arg args 2).isNil then 1 else startIndex first t.size) callers) t.size
  pure (if j < i then [] else (t.extract (i - 1).toNat j.toNat).toList.map fun b => int b.toNat)

def charBytes (args : List Value) (callers : Callers) : List Value → Nat → Eval σ Bytes
  | [], _ => pure []
  | _ :: rest, n => do
    let c ← checkInt .char args n callers
    if c < 0 || 255 < c then badArgument callers n .char "value out of range"
    return .ofNat c.toNat :: (← charBytes args callers rest (n + 1))

def captureValue (text : ByteArray) (c : Pattern.Capture) : Value :=
  match c.extent with
  | .length n => .text (text.extract c.start (c.start + n))
  | .position => int (c.start + 1)
  | .opened => .nil

def matchValues (text : ByteArray) (m : Pattern.Match) : List Value :=
  if m.captures.isEmpty then [.text (text.extract m.start m.stop)] else m.captures.map (captureValue text)

def find (args : List Value) (callers : Callers) : Eval σ (List Value) := do
  let t ← checkText .find args 1 callers
  let p ← checkText .find args 2 callers
  let i := startIndex (← optInt .find args 3 1 callers) t.size
  if t.size + 1 < i then return [.nil]
  let start := (i - 1).toNat
  if (arg args 4).isTrue then
    let at? := (List.range (t.size + 1 - start)).find? fun k => t.extract (start + k) (start + k + p.size) == p
    return match at? with
      | some k => [int (start + k + 1), int (start + k + p.size)]
      | none => [.nil]
  match Pattern.search t.data p.toList start with
  | .error e => fail callers e.message
  | .ok none => pure [.nil]
  | .ok (some m) => pure (int (m.start + 1) :: int m.stop :: m.captures.map (captureValue t))

def match_ (args : List Value) (callers : Callers) : Eval σ (List Value) := do
  let t ← checkText .match_ args 1 callers
  let p ← checkText .match_ args 2 callers
  let i := startIndex (← optInt .match_ args 3 1 callers) t.size
  if t.size + 1 < i then return [.nil]
  match Pattern.search t.data p.toList (i - 1).toNat with
  | .error e => fail callers e.message
  | .ok none => pure [.nil]
  | .ok (some m) => pure (matchValues t m)

def gmatch (args : List Value) (callers : Callers) : Eval σ (List Value) := do
  let t ← checkText .gmatch args 1 callers
  let p ← checkText .gmatch args 2 callers
  let i := startIndex (← optInt .gmatch args 3 1 callers) t.size
  Eval.onHeap fun h =>
    let (cell, h) := h.newCell (int (-(min (i - 1) (t.size + 1)) - 1))
    let (f, h) := h.newFunction (.matches_ t p cell)
    ([.function f], h)

/-- The first match from an index on that does not end where the last one did. -/
def nextMatch (text : Array UInt8) (pattern : Bytes) (last : Option Nat) :
    (fuel i : Nat) → Except Pattern.Malformed (Option Pattern.Match)
  | 0, _ => .ok none
  | fuel + 1, i =>
    match Pattern.searchFrom text pattern false (text.size + 1 - i) i with
    | .error e => .error e
    | .ok none => .ok none
    | .ok (some m) => if some m.stop = last then nextMatch text pattern last fuel (m.start + 1) else .ok (some m)

/-- The cell holds the end of the last match, or below zero where to look for the first. -/
def matchesStep (t p : ByteArray) (cell : Nat) (callers : Callers) : Eval σ (List Value) := do
  let at_ ← Eval.readHeap (·.cell cell)
  let (start, last) : Nat × Option Nat := match at_ with
    | .int n => if n.toInt < 0 then ((-n.toInt - 1).toNat, none) else (n.toInt.toNat, some n.toInt.toNat)
    | _ => (0, none)
  match nextMatch t.data p.toList last (t.size + 2) start with
  | .error e => fail callers e.message
  | .ok none => pure [.nil]
  | .ok (some m) =>
    Eval.modifyHeap (·.setCell cell (int m.stop))
    pure (matchValues t m)

def formatParts (self : Recur σ) (args : List Value) (callers : Callers) : List TemplatePart → Nat → Eval σ ByteArray
  | [], _ => pure .empty
  | .literal b :: rest, n => do return ⟨#[b]⟩ ++ (← formatParts self args callers rest n)
  | .conversion l letter :: rest, n => do
    let written ← match letter with
      | 'd' | 'i' => do pure (String.ofList (l.integer (← checkInt .format args n callers))).toUTF8
      | 'x' => do
        let cs := l.unsigned 16 "0x" (Int64.ofInt (← checkInt .format args n callers)).toUInt64.toNat
        pure (String.ofList cs).toUTF8
      | 'X' => do
        let cs := l.unsigned 16 "0X" (Int64.ofInt (← checkInt .format args n callers)).toUInt64.toNat
        pure (String.ofList (cs.map Char.toUpper)).toUTF8
      | 'o' => do
        pure (String.ofList (l.unsigned 8 "0" (Int64.ofInt (← checkInt .format args n callers)).toUInt64.toNat)).toUTF8
      | 'c' => do pure ⟨#[.ofNat ((← checkInt .format args n callers) % 256).toNat]⟩
      | 'f' | 'e' | 'g' => do
        pure (String.ofList (l.float letter (← checkNum .format args n callers).toFloat)).toUTF8
      | 's' => do
        checkAny .format args n callers
        let t ← self.display (arg args n) callers
        let t := match l.precision with
          | some p => t.extract 0 p
          | none => t
        let fill : ByteArray := bytes (List.replicate (l.width - t.size) 0x20)
        pure (if l.isLeft then t ++ fill else fill ++ t)
      | c => fail callers ("invalid conversion '%" ++ c.toString ++ "' to 'format'")
    return written ++ (← formatParts self args callers rest (n + 1))

def format (self : Recur σ) (args : List Value) (callers : Callers) : Eval σ (List Value) := do
  let t ← checkText .format args 1 callers
  match templateParts t.size t.toList with
  | some parts => return [.text (← formatParts self args callers parts 2)]
  | none => fail callers "invalid conversion '%' to 'format'"

def integral (x : Float) (n : Option Int) : Value :=
  match n with
  | some n => if -0x8000000000000000 ≤ n && n < 0x8000000000000000 then int n else .float x
  | none => .float x

def abs (args : List Value) (callers : Callers) : Eval σ (List Value) := do
  match ← checkNum .abs args 1 callers with
  | .int n => pure [.int (if n.toInt < 0 then -n else n)]
  | .float x => pure [.float x.abs]

def floor (args : List Value) (callers : Callers) : Eval σ (List Value) := do
  match ← checkNum .floor args 1 callers with
  | .int n => pure [.int n]
  | .float x => pure [integral x.floor (Decimal.floor? x)]

def ceil (args : List Value) (callers : Callers) : Eval σ (List Value) := do
  match ← checkNum .ceil args 1 callers with
  | .int n => pure [.int n]
  | .float x => pure [integral x.ceil ((Decimal.floor? (-x)).map (- ·))]

def fmod (args : List Value) (callers : Callers) : Eval σ (List Value) := do
  match ← checkNum .fmod args 1 callers, ← checkNum .fmod args 2 callers with
  | .int a, .int b =>
    if b == 0 then badArgument callers 2 .fmod "zero" else pure [int (Int.tmod a.toInt b.toInt)]
  | a, b => pure [.float (Decimal.remainder a.toFloat b.toFloat)]

def extreme (b : Builtin) (beats : Ordering) (args : List Value) (callers : Callers) :
    Nat → Num → List Value → Eval σ (List Value)
  | _, best, [] => pure [.ofNum best]
  | n, best, _ :: rest => do
    let v ← checkNum b args n callers
    extreme b beats args callers (n + 1) (if v.order? best == some beats then v else best) rest

def mathType (args : List Value) (callers : Callers) : Eval σ (List Value) := do
  checkAny .mathType args 1 callers
  match arg args 1 with
  | .int _ => pure [ascii "integer"]
  | .float _ => pure [ascii "float"]
  | _ => pure [.nil]

def pcall (self : Recur σ) (args : List Value) (callers : Callers) : Eval σ (List Value) := do
  checkAny .pcall args 1 callers
  match ← Eval.attempt (self.call (arg args 1) (args.drop 1) (callers.push none)) with
  | .ok vs => pure (.bool true :: vs)
  | .error v => pure [.bool false, v]

def xpcall (self : Recur σ) (args : List Value) (callers : Callers) : Eval σ (List Value) := do
  match ← Eval.attempt (self.call (arg args 1) (args.drop 2) (callers.push none)) with
  | .ok vs => pure (.bool true :: vs)
  | .error v => return .bool false :: (← self.call (arg args 2) [v] (callers.push none))

def ipairsStep (self : Recur σ) (args : List Value) (callers : Callers) : Eval σ (List Value) := do
  let i := (← checkInt .ipairsStep args 2 callers) + 1
  match ← self.index (arg args 1) (int i) (callers.push none) with
  | .nil => pure [.nil]
  | v => pure [int i, v]

def builtin (b : Builtin) : Eval σ Value :=
  Eval.onHeap fun h => let (r, h) := h.newFunction (.builtin b); (.function r, h)

def pairs (self : Recur σ) (args : List Value) (callers : Callers) : Eval σ (List Value) := do
  checkAny .pairs args 1 callers
  match ← Eval.readHeap (·.metafield (arg args 1) "__pairs") with
  | .nil => return [← builtin .next, arg args 1, .nil]
  | handler =>
    let vs ← self.call handler [arg args 1] (callers.push none)
    pure [arg vs 1, arg vs 2, arg vs 3]

def run (self : Recur σ) (b : Builtin) (args : List Value) (callers : Callers) : Eval σ (List Value) :=
  match b with
  | .assert => assert args callers
  | .error => error args callers
  | .getmetatable => getmetatable args callers
  | .ipairs => do
    checkAny .ipairs args 1 callers
    return [← builtin .ipairsStep, arg args 1, int 0]
  | .ipairsStep => ipairsStep self args callers
  | .next => next args callers
  | .pairs => pairs self args callers
  | .pcall => pcall self args callers
  /- The terminal belongs to the screen, so what a script prints is dropped. -/
  | .print => pure []
  | .rawequal => do
    checkAny .rawequal args 2 callers
    pure [.bool ((arg args 1).rawEqual (arg args 2))]
  | .rawget => do
    let r ← checkTable .rawget args 1 callers
    return [← Eval.readHeap fun h => ((Key.of? (arg args 2)).map (h.table r).get).getD .nil]
  | .rawlen =>
    match arg args 1 with
    | .table r => do return [int (← Eval.readHeap fun h => (h.table r).border)]
    | .text t => pure [int t.size]
    | _ => badArgument callers 1 .rawlen "table or string expected"
  | .rawset => rawset args callers
  | .select => select args callers
  | .setmetatable => setmetatable args callers
  | .tonumber => tonumber args callers
  | .tostring => do
    checkAny .tostring args 1 callers
    return [.text (← self.display (arg args 1) callers)]
  | .type => do
    checkAny .type args 1 callers
    pure [ascii (arg args 1).typeName]
  | .xpcall => xpcall self args callers
  | .concat => concat self args callers
  | .insert => insert self args callers
  | .pack => pack args
  | .remove => remove self args callers
  | .sort => sort self args callers
  | .unpack => unpack self args callers
  | .byte => byte args callers
  | .char => do return [.text (bytes (← charBytes args callers args 1))]
  | .find => find args callers
  | .format => format self args callers
  | .gmatch => gmatch args callers
  | .len => do return [int (← checkText .len args 1 callers).size]
  | .lower => mapBytes .lower (fun b => if Pattern.isUpper b then b + 0x20 else b) args callers
  | .match_ => match_ args callers
  | .rep => rep args callers
  | .reverse => do return [.text (bytes (← checkText .reverse args 1 callers).toList.reverse)]
  | .sub => sub args callers
  | .upper => mapBytes .upper (fun b => if Pattern.isLower b then b - 0x20 else b) args callers
  | .abs => abs args callers
  | .ceil => ceil args callers
  | .floor => floor args callers
  | .fmod => fmod args callers
  | .mathType => mathType args callers
  | .max => do extreme .max .gt args callers 2 (← checkNum .max args 1 callers) (args.drop 1)
  | .min => do extreme .min .lt args callers 2 (← checkNum .min args 1 callers) (args.drop 1)
  | .sqrt => do return [.float (← checkNum .sqrt args 1 callers).toFloat.sqrt]
  | .tointeger => do
    checkAny .tointeger args 1 callers
    pure [((arg args 1).num?.bind Num.toInt?).elim .nil .int]

end Triage.Script.Library
