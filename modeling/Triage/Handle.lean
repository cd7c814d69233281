/-! Handles name callbacks that wait for their call. -/

namespace Triage

structure Handle where
  text : String
  deriving DecidableEq, Repr, Inhabited

structure HandleGenerator where
  stem : String
  count : Nat := 0
  deriving DecidableEq, Repr, Inhabited

namespace HandleGenerator

def handle (stem : String) (n : Nat) : Handle := ⟨stem ++ "_" ++ toString n⟩

def next (g : HandleGenerator) : Handle × HandleGenerator :=
  (handle g.stem (g.count + 1), { g with count := g.count + 1 })

end HandleGenerator
end Triage
