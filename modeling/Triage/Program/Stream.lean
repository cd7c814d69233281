import Triage.Text.Utf8

/-! Bytes as they come in time. -/

namespace Triage.Program

abbrev Time := Nat

abbrev Bytes := List UInt8

def bytesOf (s : String) : Bytes := Text.Utf8.encode s

structure Chunk where
  time : Time
  bytes : Bytes

/-- Chunks in the order of their times, and when the stream closes, if it ever does. After the chunks of an endless
stream comes one byte over and over. -/
structure Stream where
  chunks : List Chunk := []
  closesAt : Option Time := some 0
  endless : Option UInt8 := none

namespace Stream

def once (now : Time) (bytes : Bytes) : Stream := { chunks := [⟨now, bytes⟩], closesAt := some now }

def seenFrom (now : Time) (s : Stream) : Stream :=
  { s with chunks := s.chunks.map fun c => { c with time := max now c.time }, closesAt := s.closesAt.map (max now) }

def bytes (s : Stream) : Bytes := s.chunks.flatMap (·.bytes)

def mapBytes (f : Bytes → Bytes) (s : Stream) : Stream :=
  { s with
    chunks := s.chunks.map fun c => { c with bytes := f c.bytes }
    endless := s.endless.bind fun b => (f [b]).head?
    closesAt := s.closesAt }

def takeChunks : Nat → List Chunk → List Chunk × Option Time × Nat
  | left, [] => ([], none, left)
  | left, c :: rest =>
    if left ≤ c.bytes.length then ([{ c with bytes := c.bytes.take left }], some c.time, 0)
    else
      let (taken, time, left) := takeChunks (left - c.bytes.length) rest
      (c :: taken, time, left)

def take (now : Time) (n : Nat) (s : Stream) : Stream :=
  if n = 0 then { closesAt := some now }
  else
    let (chunks, time, left) := takeChunks n s.chunks
    match time, s.endless with
    | some t, _ => { chunks, closesAt := some t }
    | none, some b =>
      let t := (chunks.getLast?.map (·.time)).getD now
      { chunks := chunks ++ [⟨t, List.replicate left b⟩], closesAt := some t }
    | none, none => { chunks, closesAt := s.closesAt }

def takeLine : Nat → Bytes → Bytes × Nat
  | 0, _ => ([], 0)
  | n, [] => ([], n)
  | n + 1, b :: rest =>
    let (taken, left) := takeLine (if b = 0x0A then n else n + 1) rest
    (b :: taken, left)

def takeLineChunks : Nat → List Chunk → List Chunk × Option Time
  | _, [] => ([], none)
  | n, c :: rest =>
    let (taken, left) := takeLine n c.bytes
    if left = 0 then ([{ c with bytes := taken }], some c.time)
    else
      let (more, time) := takeLineChunks left rest
      (c :: more, time)

def takeLines (now : Time) (n : Nat) (s : Stream) : Stream :=
  if n = 0 then { closesAt := some now }
  else
    let (chunks, time) := takeLineChunks n s.chunks
    { chunks, closesAt := time.or (if s.endless.isSome then none else s.closesAt) }

def splitLine : List Chunk → Bytes → Bytes × Option Time × List Chunk
  | [], line => (line, none, [])
  | c :: rest, line =>
    match c.bytes.span (· != 0x0A) with
    | (bs, _ :: more) => (line ++ bs, some c.time, { c with bytes := more } :: rest)
    | (bs, []) => splitLine rest (line ++ bs)

def atEnd (f : Bytes → Bytes) (s : Stream) : Stream :=
  match s.closesAt, s.endless with
  | some t, none => once t (f s.bytes)
  | _, _ => { closesAt := none }

end Stream
end Triage.Program
