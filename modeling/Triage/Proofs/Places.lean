import Triage.Listing

/-! Where messages stand. The index that a listing stores names every message of its threads once and in row order, so
the rows are the messages of one thread after the other, each thread's from the last to the first. -/

namespace Triage.Listing

def placesFrom (i : Nat) : List Thread → List (Nat × Nat)
  | [] => []
  | t :: rest => (List.range t.messageCount).reverse.map (i, ·) ++ placesFrom (i + 1) rest

def places (l : Listing) : List (Nat × Nat) := placesFrom 0 l.threads

def Before (p q : Nat × Nat) : Prop := p.1 < q.1 ∨ p.1 = q.1 ∧ q.2 < p.2

theorem map_sub_range (n : Nat) : (List.range n).map (fun j => n - j - 1) = (List.range n).reverse := by
  refine List.ext_getElem (by simp) fun j _ _ => ?_
  simp only [List.getElem_map, List.getElem_range, List.getElem_reverse, List.length_range]
  omega

theorem zipIdx_flatMap_eq (ts : List Thread) (i : Nat) :
    ((ts.zipIdx i).flatMap fun (t, i) => (List.range t.messageCount).map fun j => (i, t.messageCount - j - 1)) =
      placesFrom i ts := by
  induction ts generalizing i with
  | nil => rfl
  | cons t rest ih =>
    rw [List.zipIdx_cons, List.flatMap_cons, ih, placesFrom, ← map_sub_range, List.map_map]
    rfl

theorem index_eq_places (l : Listing) : l.index = l.places := l.indexed.trans (zipIdx_flatMap_eq l.threads 0)

theorem mem_placesFrom {i : Nat} {ts : List Thread} {p : Nat × Nat} :
    p ∈ placesFrom i ts ↔ i ≤ p.1 ∧ (ts[p.1 - i]?.bind (·.messages[p.2]?)).isSome := by
  induction ts generalizing i with
  | nil => simp [placesFrom]
  | cons t rest ih =>
    obtain ⟨j, k⟩ := p
    rw [placesFrom, List.mem_append, ih, List.mem_map]
    simp only [List.mem_reverse, List.mem_range, Prod.mk.injEq]
    by_cases hij : i ≤ j
    · obtain ⟨d, rfl⟩ := Nat.exists_eq_add_of_le hij
      cases d with
      | zero =>
        have hrest : ¬ i + 1 ≤ i := Nat.not_succ_le_self i
        simp [Thread.messageCount, hrest]
      | succ d =>
        have hrest : i + (d + 1) - (i + 1) = d := by omega
        simp [hrest]
    · have hne : i ≠ j := fun h => hij (Nat.le_of_eq h)
      simp [hij, hne]
      omega

theorem placesFrom_pairwise (i : Nat) (ts : List Thread) : (placesFrom i ts).Pairwise Before := by
  induction ts generalizing i with
  | nil => exact .nil
  | cons t rest ih =>
    refine List.pairwise_append.mpr ⟨?_, ih (i + 1), ?_⟩
    · rw [List.pairwise_map, List.pairwise_reverse]
      exact List.pairwise_lt_range.imp fun hlt => .inr ⟨rfl, hlt⟩
    · intro p hp q hq
      obtain ⟨j, -, rfl⟩ := List.mem_map.mp hp
      exact .inl (mem_placesFrom.mp hq).1

theorem map_placesFrom (before ts : List Thread) :
    (placesFrom before.length ts).map (messageAt? { threads := before ++ ts }) =
      (ts.flatMap (·.messages.reverse)).map some := by
  induction ts generalizing before with
  | nil => rfl
  | cons t rest ih =>
    have hthread : (before ++ t :: rest)[before.length]? = some t := by simp
    have hhere : ((List.range t.messageCount).reverse.map (before.length, ·)).map
        (messageAt? { threads := before ++ t :: rest }) = t.messages.reverse.map some := by
      rw [List.map_map, List.map_reverse, List.map_reverse]
      refine congrArg List.reverse (List.ext_getElem (by simp [Thread.messageCount]) fun j hj _ => ?_)
      simp [messageAt?]
    have hrest := ih (before ++ [t])
    rw [List.length_append, List.append_assoc] at hrest
    rw [placesFrom, List.map_append, hhere, List.flatMap_cons, List.map_append]
    exact congrArg _ hrest

theorem map_getElem?_range {α : Type} (xs : List α) : (List.range xs.length).map (xs[·]?) = xs.map some :=
  List.ext_getElem (by simp) fun _ _ _ => by simp

variable (l : Listing)

theorem map_index : l.index.map l.messageAt? = (l.threads.flatMap (·.messages.reverse)).map some := by
  rw [index_eq_places]
  exact map_placesFrom [] l.threads

theorem get?_eq_getElem? (row : Nat) : l.get? row = (l.threads.flatMap (·.messages.reverse))[row]? := by
  have hrow : l.index[row]?.map l.messageAt? = ((l.threads.flatMap (·.messages.reverse))[row]?).map some := by
    rw [← List.getElem?_map, ← List.getElem?_map, map_index]
  unfold get?
  cases hp : l.index[row]? with
  | none =>
    rw [hp] at hrow
    exact (Option.map_eq_none_iff.mp hrow.symm).symm
  | some p =>
    rw [hp] at hrow
    obtain ⟨m, hm, hp⟩ := Option.map_eq_some_iff.mp hrow.symm
    exact hp.symm.trans hm.symm

theorem length_index : l.index.length = (l.threads.flatMap (·.messages.reverse)).length := by
  rw [← List.length_map l.messageAt?, map_index, List.length_map]

/-- No row of the index is missing from the list of all messages, and none has another message there. -/
theorem rows_eq : l.rows = l.threads.flatMap (·.messages.reverse) := by
  have hget : l.get? = ((l.threads.flatMap (·.messages.reverse))[·]?) := funext l.get?_eq_getElem?
  have hall := congrArg (·.filterMap id) (map_getElem?_range (l.threads.flatMap (·.messages.reverse)))
  rw [rows, count, length_index, hget]
  simpa [List.filterMap_map] using hall

theorem count_eq : l.count = l.rows.length := by
  rw [rows_eq, count, length_index]

theorem get?_eq_rows (row : Nat) : l.get? row = l.rows[row]? := by
  rw [rows_eq, get?_eq_getElem?]

theorem rows_congr {l l' : Listing} (h : l'.threads = l.threads) : l'.rows = l.rows := by
  rw [rows_eq, rows_eq, h]

theorem count_congr {l l' : Listing} (h : l'.threads = l.threads) : l'.count = l.count := by
  rw [count_eq, count_eq, rows_congr h]

end Triage.Listing
