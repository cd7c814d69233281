import Triage.Mail.Thread

/-! The message list: the rows of the current result, the selected row and the marked ones. -/

namespace Triage

/-- Where the message of each row stands, as its thread and its place in there. Rows go thread by thread, each thread's
messages from the last to the first. -/
def rowIndex (threads : List Thread) : List (Nat × Nat) :=
  threads.zipIdx.flatMap fun (t, i) => (List.range t.messageCount).map fun j => (i, t.messageCount - j - 1)

theorem rowIndex_map {f : Thread → Thread} (hf : ∀ t, (f t).messageCount = t.messageCount) (threads : List Thread) :
    rowIndex (threads.map f) = rowIndex threads := by
  unfold rowIndex
  rw [List.zipIdx_map, List.flatMap_map]
  simp only [Prod.map, id_eq, hf]

/-- The index is made when threads are loaded and never again, so whatever else changes them keeps it right. -/
structure Listing where
  threads : List Thread := []
  index : List (Nat × Nat) := rowIndex threads
  selected : Nat := 0
  marked : List Nat := []
  indexed : index = rowIndex threads := by rfl
  deriving DecidableEq, Repr

namespace Listing

instance : Inhabited Listing := ⟨{}⟩

def ofThreads (threads : List Thread) : Listing := { threads }

@[simp]
theorem threads_ofThreads (threads : List Thread) : (ofThreads threads).threads = threads := rfl

def count (l : Listing) : Nat := l.index.length

def messageAt? (l : Listing) (place : Nat × Nat) : Option Message := l.threads[place.1]?.bind (·.messages[place.2]?)

def get? (l : Listing) (row : Nat) : Option Message := l.index[row]?.bind l.messageAt?

def rows (l : Listing) : List Message := (List.range l.count).filterMap l.get?

def selectedMessage? (l : Listing) : Option Message := l.get? l.selected

def isMarked (l : Listing) (row : Nat) : Bool := l.marked.contains row

def markedMessages (l : Listing) : List Message := l.marked.filterMap l.get?

/-- A new result clears the marks and keeps the selection as far as its last row allows. -/
def setThreads (l : Listing) (threads : List Thread) : Listing :=
  let loaded : Listing := { threads, index := rowIndex threads, selected := l.selected }
  { loaded with selected := min l.selected (loaded.count - 1) }

def select (l : Listing) (row : Nat) : Bool × Listing :=
  if row < l.count then (true, { l with selected := row }) else (false, l)

def move (l : Listing) (delta : Int) : Listing :=
  if l.count = 0 then l else { l with selected := min (l.selected + delta).toNat (l.count - 1) }

def insertRow (row : Nat) : List Nat → List Nat
  | [] => [row]
  | r :: rest => if row < r then row :: r :: rest else r :: insertRow row rest

def toggle (l : Listing) (row : Nat) : Listing :=
  if l.count ≤ row then l
  else if row ∈ l.marked then { l with marked := l.marked.filter (· != row) }
  else { l with marked := insertRow row l.marked }

def invert (l : Listing) : Listing :=
  { l with marked := (List.range l.count).filter (! l.marked.contains ·) }

def clearMarks (l : Listing) : Listing := { l with marked := [] }

def applyTags (l : Listing) (ids : List MessageId) (operations : List String) : Listing :=
  { l with
    threads := l.threads.map (·.applyTags ids operations)
    indexed := l.indexed.trans (rowIndex_map (·.messageCount_applyTags ids operations) l.threads).symm }

end Listing
end Triage
