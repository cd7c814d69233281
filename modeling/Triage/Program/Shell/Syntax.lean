/-! Shell scripts as trees. -/

namespace Triage.Program.Shell

inductive RedirectKind where
  | write
  | read
  | duplicate
  deriving DecidableEq, Repr

inductive Fallback where
  | value
  /-- Besides, the parameter is set to the word. -/
  | assignment
  /-- The word stands for a parameter that is set. -/
  | replacement
  deriving DecidableEq, Repr

mutual

inductive Part where
  | text (s : String) (isQuoted : Bool)
  | param (name : String) (isQuoted : Bool)
  | length (name : String)
  /-- A parameter, or a word where it is unset, which an empty one may count as. -/
  | fallback (name : String) (kind : Fallback) (alsoEmpty : Bool) (word : List Part) (isQuoted : Bool)
  | output (items : List Item) (isQuoted : Bool)
  | arithmetic (parts : List Part) (isQuoted : Bool)

inductive Redirect where
  | mk (fd : Nat) (kind : RedirectKind) (target : List Part)

inductive Command where
  /-- A command, and the line on which it begins. -/
  | simple (line : Nat) (assigns : List (String × List Part)) (words : List (List Part)) (redirects : List Redirect)
  | group (body : List Item) (redirects : List Redirect)
  | subshell (body : List Item) (redirects : List Redirect)
  | branch (condition yes no : List Item)
  | loop (isUntil : Bool) (condition body : List Item)
  | each (name : String) (words : List (List Part)) (body : List Item)
  | pipe (isNegated : Bool) (stages : List Command)
  /-- Two commands, the second run only if the first succeeds, or only if it fails. -/
  | both (isAnd : Bool) (first second : Command)

inductive Item where
  | mk (command : Command) (isBackground : Bool)

end

abbrev Word := List Part
abbrev Script := List Item

instance : Inhabited Part := ⟨.text "" false⟩
instance : Inhabited Command := ⟨.group [] []⟩

end Triage.Program.Shell
