import Triage.Handle

/-! The open prompts. Only the top one is shown; closing it uncovers the one below. -/

namespace Triage

structure Prompt where
  label : String
  placeholder : String
  handle : Handle
  deriving DecidableEq, Repr, Inhabited

structure PromptOptions where
  label : String
  placeholder : String
  callback : Option Nat
  deriving DecidableEq, Repr

structure Prompts where
  stack : List Prompt := []
  deriving DecidableEq, Repr, Inhabited

namespace Prompts

def push (ps : Prompts) (p : Prompt) : Prompts := ⟨p :: ps.stack⟩

def top? (ps : Prompts) : Option Prompt := ps.stack.head?

def pop (ps : Prompts) : Option Prompt × Prompts := (ps.stack.head?, ⟨ps.stack.tail⟩)

def size (ps : Prompts) : Nat := ps.stack.length

end Prompts
end Triage
