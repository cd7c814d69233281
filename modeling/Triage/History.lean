/-! What was submitted to each prompt, and a cursor over it. -/

namespace Triage

/-- The entries of one prompt, oldest first. The cursor stands one past the end when no entry is recalled. -/
structure Recall where
  entries : List String := []
  cursor : Nat := 0
  deriving DecidableEq, Repr, Inhabited

namespace Recall

def get? (r : Recall) : Option String := r.entries[r.cursor]?

def last? (r : Recall) : Option String := r.entries.getLast?

def reset (r : Recall) : Recall := { r with cursor := r.entries.length }

/-- An empty value is not recorded, and a value recorded before moves to the end. -/
def add (r : Recall) (value : String) : Recall :=
  if value = "" then r else reset { r with entries := r.entries.filter (· != value) ++ [value] }

def previous (r : Recall) : Option String × Recall :=
  if r.cursor = 0 then (none, r)
  else let moved := { r with cursor := r.cursor - 1 }; (moved.get?, moved)

def next (r : Recall) : Option String × Recall :=
  let moved := { r with cursor := min (r.cursor + 1) r.entries.length }
  (moved.get?, moved)

end Recall

structure History where
  recalls : List (String × Recall) := []
  deriving DecidableEq, Repr, Inhabited

namespace History

def recallOf (h : History) (label : String) : Recall := (h.recalls.lookup label).getD {}

def setRecall (h : History) (label : String) (r : Recall) : History :=
  ⟨(label, r) :: h.recalls.filter (·.1 != label)⟩

def add (h : History) (label value : String) : History := h.setRecall label ((h.recallOf label).add value)

def reset (h : History) (label : String) : History := h.setRecall label (h.recallOf label).reset

def previous (h : History) (label : String) : Option String × History :=
  let (entry, r) := (h.recallOf label).previous
  (entry, h.setRecall label r)

def next (h : History) (label : String) : Option String × History :=
  let (entry, r) := (h.recallOf label).next
  (entry, h.setRecall label r)

end History
end Triage
