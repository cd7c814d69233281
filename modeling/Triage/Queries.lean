import Triage.Mail.Query

/-! The saved queries and the one selected. -/

namespace Triage

structure Queries where
  all : List SearchQuery
  selected : Nat
  selected_lt : selected < all.length

namespace Queries

def inbox : SearchQuery := ⟨"INBOX", "query:INBOX"⟩

/-- The length of the name of a query typed by the user. -/
def nameLength : Nat := 10

def ofSaved : List SearchQuery → Queries
  | [] => ⟨[inbox], 0, by decide⟩
  | q :: qs => ⟨q :: qs, 0, by simp⟩

instance : Inhabited Queries := ⟨ofSaved []⟩

def current (q : Queries) : SearchQuery := q.all.get ⟨q.selected, q.selected_lt⟩

def select (q : Queries) (index : Nat) : Bool × Queries :=
  if h : index < q.all.length then (true, ⟨q.all, index, h⟩) else (false, q)

theorem length_pos (q : Queries) : 0 < q.all.length := Nat.lt_of_le_of_lt (Nat.zero_le _) q.selected_lt

def selectNext (q : Queries) : Queries :=
  ⟨q.all, (q.selected + 1) % q.all.length, Nat.mod_lt _ q.length_pos⟩

def selectPrevious (q : Queries) : Queries :=
  ⟨q.all, (q.selected + q.all.length - 1) % q.all.length, Nat.mod_lt _ q.length_pos⟩

def selectLast (q : Queries) : Queries :=
  ⟨q.all, q.all.length - 1, Nat.sub_lt q.length_pos Nat.one_pos⟩

def add (q : Queries) (query : SearchQuery) : Queries :=
  ⟨q.all ++ [query], q.selected, by have := q.selected_lt; simp; omega⟩

def addText (q : Queries) (text : String) : Queries :=
  (q.add (SearchQuery.ofText text nameLength)).selectLast

end Queries
end Triage
