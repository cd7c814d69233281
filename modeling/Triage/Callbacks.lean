import Triage.Error

/-! Callbacks that wait under their handles. Taking one removes it, so each is called at most once. -/

namespace Triage

structure Callbacks (α : Type) where
  entries : List (Handle × α) := []
  deriving Repr, Inhabited

inductive Offer (α : Type) where
  | nothing
  | function (f : α)
  | other

namespace Callbacks

variable {α : Type}

def get? (cs : Callbacks α) (h : Handle) : Option α := cs.entries.lookup h

def contains (cs : Callbacks α) (h : Handle) : Bool := (cs.get? h).isSome

def discard (cs : Callbacks α) (h : Handle) : Callbacks α := ⟨cs.entries.filter (·.1 != h)⟩

def insert (cs : Callbacks α) (h : Handle) (f : α) : Callbacks α := ⟨(h, f) :: (cs.discard h).entries⟩

/-- A function is stored, no callback stores nothing, and anything else is refused. -/
def register (cs : Callbacks α) (h : Handle) : Offer α → Except Error (Callbacks α)
  | .nothing => .ok cs
  | .function f => .ok (cs.insert h f)
  | .other => .error (.invalidClosure h)

def take (cs : Callbacks α) (h : Handle) : Option (α × Callbacks α) :=
  (cs.get? h).map (·, cs.discard h)

end Callbacks
end Triage
