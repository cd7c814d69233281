import Triage.Program.Shell.State

/-! What words expand to: pieces of text first, and then fields. -/

namespace Triage.Program.Shell

inductive Piece where
  | kept (s : String)
  | loose (s : String)
  | gap
  deriving DecidableEq, Repr

namespace Piece

def of (isQuoted : Bool) (s : String) : Piece := if isQuoted then .kept s else .loose s

def text : Piece → String
  | .kept s | .loose s => s
  | .gap => " "

end Piece

def textOf (ps : List Piece) : String := .join (ps.map Piece.text)

structure Fields where
  done : List String := []
  current : Option String := none

namespace Fields

def close (f : Fields) : Fields :=
  match f.current with
  | some s => { done := s :: f.done }
  | none => f

def add (f : Fields) (s : String) : Fields := { f with current := some (f.current.getD "" ++ s) }

def isSeparator (c : Char) : Bool := c == ' ' || c == '\t' || c == '\n'

def addPiece (f : Fields) : Piece → Fields
  | .kept s => f.add s
  | .loose s => s.toList.foldl (fun f c => if isSeparator c then f.close else f.add c.toString) f
  | .gap => f.close

def toList (f : Fields) : List String := f.close.done.reverse

end Fields

def fields (ps : List Piece) : List String := (ps.foldl Fields.addPiece {}).toList

inductive Task where
  /-- Runs commands, after which the process may have nothing left to do. -/
  | run (isLast : Bool) (items : Script)
  | command (isLast : Bool) (c : Command)
  | loop (isUntil : Bool) (condition body : Script) (status : Nat)
  | each (name : String) (values : List String) (body : Script)
  | expand (w : Word)

def Task.Result : Task → Type
  | .run .. => Unit
  | .command .. => Unit
  | .loop .. => Unit
  | .each .. => Unit
  | .expand _ => List Piece

abbrev Recur := (t : Task) → Shell t.Result

namespace Recur

@[inline] def run (self : Recur) (isLast : Bool) (items : Script) : Shell Unit := self (.run isLast items)

@[inline] def command (self : Recur) (isLast : Bool) (c : Command) : Shell Unit := self (.command isLast c)

@[inline] def expand (self : Recur) (w : Word) : Shell (List Piece) := self (.expand w)

def text (self : Recur) (w : Word) : Shell String := return textOf (← self.expand w)

def fields (self : Recur) (ws : List Word) : Shell (List String) := do
  let mut out := []
  for w in ws do
    out := out ++ Shell.fields (← self.expand w)
  return out

end Recur
end Triage.Program.Shell
