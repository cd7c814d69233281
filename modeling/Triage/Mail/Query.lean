/-! A named search query. -/

namespace Triage

structure SearchQuery where
  name : String
  text : String
  deriving DecidableEq, Repr, Inhabited

namespace SearchQuery

def ellipsis : Char := '…'

/-- A text of more than `limit` characters is shortened to `limit`, the last an ellipsis; a limit of zero
leaves the ellipsis alone. -/
def shorten (limit : Nat) (cs : List Char) : List Char :=
  if limit < cs.length then cs.take (limit - 1) ++ [ellipsis] else cs

def ofText (text : String) (limit : Nat) : SearchQuery :=
  ⟨.ofList (shorten limit text.toList), text⟩

end SearchQuery
end Triage
