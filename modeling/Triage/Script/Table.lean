import Triage.Script.Value

/-!
Tables. The values at 1, 2, … stand in slots as far as more than half of the slots are used; all others stand in a
rest of limited room. When the rest is full, slots and rest are laid out anew.
-/

namespace Triage.Script

structure Entry where
  key : Key
  value : Value

structure Table where
  slots : Array Value := #[]
  rest : Array Entry := #[]
  room : Nat := 0
  metatable : Option Nat := none

instance : Inhabited Table := ⟨{}⟩

namespace Table

def slot? (t : Table) : Key → Option Nat
  | .int n => let i := n.toInt; if 1 ≤ i && i ≤ t.slots.size then some (i.toNat - 1) else none
  | _ => none

def position? (t : Table) (k : Key) : Option Nat := t.rest.findIdx? (·.key == k)

def get (t : Table) (k : Key) : Value :=
  match t.slot? k with
  | some i => t.slots.getD i .nil
  | none =>
    match t.rest.find? (·.key == k) with
    | some e => e.value
    | none => .nil

def getInt (t : Table) (n : Int) : Value := t.get (.int (.ofInt n))

def usedInts (t : Table) : List Int :=
  let fromSlots := (List.range t.slots.size).filter fun i => !(t.slots.getD i .nil).isNil
  fromSlots.map (fun (i : Nat) => (i : Int) + 1) ++
    t.rest.toList.filterMap fun e =>
      match e.key with
      | .int n => if e.value.isNil then none else some n.toInt
      | _ => none

/-- The greatest power of two such that more than half of the slots up to it would be used. -/
def slotCount (used : List Int) : Nat :=
  let used := used.filter (1 ≤ ·)
  (List.range 32).foldl (fun best i =>
    let n := Nat.pow 2 i
    if n / 2 < used.length && n / 2 < (used.filter (· ≤ (n : Int))).length then n else best) 0

def roomFor (n : Nat) : Nat :=
  if n = 0 then 0 else (List.range 64).foldr (fun i best => if n ≤ Nat.pow 2 i then Nat.pow 2 i else best) n

def relayout (t : Table) (k : Key) (v : Value) : Table :=
  let used := t.usedInts ++ (match k with | .int n => [n.toInt] | _ => [])
  let count := slotCount used
  let entries := (List.range t.slots.size).map (fun i => (⟨.int (.ofNat (i + 1)), t.slots.getD i .nil⟩ : Entry)) ++
    t.rest.toList ++ [⟨k, v⟩]
  let live := entries.filter (! ·.value.isNil)
  let inSlots (e : Entry) : Bool := match e.key with
    | .int n => 1 ≤ n.toInt && n.toInt ≤ count
    | _ => false
  let slots := (live.filter inSlots).foldl (fun slots e =>
    match e.key with
    | .int n => slots.setIfInBounds (n.toInt.toNat - 1) e.value
    | _ => slots) (Array.replicate count .nil)
  let rest := (live.filter (! inSlots ·)).toArray
  { t with slots, rest, room := roomFor rest.size }

def set (t : Table) (k : Key) (v : Value) : Table :=
  match t.slot? k with
  | some i => { t with slots := t.slots.setIfInBounds i v }
  | none =>
    match t.position? k with
    | some i => { t with rest := t.rest.setIfInBounds i ⟨k, v⟩ }
    | none =>
      if v.isNil then t
      else if t.rest.size < t.room then { t with rest := t.rest.push ⟨k, v⟩ }
      else t.relayout k v

def ofList (vs : List Value) (room : Nat) : Table := { slots := vs.toArray, room := roomFor room }

def search (isUsed : Nat → Bool) : (fuel : Nat) → (low high : Nat) → Nat
  | 0, low, _ => low
  | fuel + 1, low, high =>
    if high ≤ low + 1 then low
    else
      let middle := (low + high) / 2
      if isUsed middle then search isUsed fuel middle high else search isUsed fuel low middle

def searchUp (isUsed : Nat → Bool) : (fuel : Nat) → (low : Nat) → Nat
  | 0, low => low
  | fuel + 1, low =>
    let high := low * 2
    if isUsed high then searchUp isUsed fuel high else search isUsed 64 low high

/-- A border: an index in use, or zero, after which the next is not. -/
def border (t : Table) : Nat :=
  let isUsed (n : Nat) : Bool := !(t.getInt n).isNil
  let n := t.slots.size
  if 0 < n && !isUsed n then (if 2 ≤ n && isUsed (n - 1) then n - 1 else search isUsed 64 0 n)
  else if isUsed (n + 1) then searchUp isUsed 63 (if n = 0 then 1 else n)
  else n

def next? (t : Table) (k : Option Key) : Option (Option Entry) :=
  let slotEntries := (List.range t.slots.size).map fun i => (⟨.int (.ofNat (i + 1)), t.slots.getD i .nil⟩ : Entry)
  let entries := slotEntries ++ t.rest.toList
  let after : Option (List Entry) := match k with
    | none => some entries
    | some k =>
      match entries.dropWhile (fun (e : Entry) => e.key != k) with
      | _ :: rest => some rest
      | [] => none
  after.map fun (es : List Entry) => es.find? (! ·.value.isNil)

def sequence (t : Table) : List Value := go (t.slots.size + t.rest.size + 1) 1
where
  go : Nat → Nat → List Value
    | 0, _ => []
    | fuel + 1, i =>
      match t.getInt i with
      | .nil => []
      | v => v :: go fuel (i + 1)

end Table
end Triage.Script
