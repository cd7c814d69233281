import Mathlib.Data.List.Sort
import Triage.Proofs.Places

/-! The marked rows of a listing. They are kept in ascending order and each once, so that two listings of one length
with the same rows marked have the same list of marks. -/

namespace Triage.Listing

variable {l : Listing} {row : Nat}

theorem mem_insertRow {x : Nat} {rows : List Nat} : x ∈ insertRow row rows ↔ x = row ∨ x ∈ rows := by
  induction rows with
  | nil => simp [insertRow]
  | cons r rest ih =>
    unfold insertRow
    split
    · exact List.mem_cons
    · rw [List.mem_cons, ih, List.mem_cons]
      tauto

theorem insertRow_pairwise {rows : List Nat} (h : rows.Pairwise (· < ·)) (hnew : row ∉ rows) :
    (insertRow row rows).Pairwise (· < ·) := by
  induction rows with
  | nil => exact List.pairwise_singleton _ _
  | cons r rest ih =>
    obtain ⟨hr, hrest⟩ := List.pairwise_cons.mp h
    unfold insertRow
    split
    · next hlt =>
      refine List.pairwise_cons.mpr ⟨fun x hx => ?_, h⟩
      rcases List.mem_cons.mp hx with rfl | hx
      · exact hlt
      · exact hlt.trans (hr x hx)
    · next hge =>
      have hne : row ≠ r := fun heq => hnew (heq ▸ List.mem_cons_self)
      refine List.pairwise_cons.mpr ⟨fun x hx => ?_, ih hrest fun hmem => hnew (List.mem_cons_of_mem _ hmem)⟩
      rcases mem_insertRow.mp hx with rfl | hx
      · omega
      · exact hr x hx

/-- The marks of a listing are rows of it, in ascending order. -/
structure OrderlyMarks (l : Listing) : Prop where
  ascending : l.marked.Pairwise (· < ·)
  lt_count : ∀ r ∈ l.marked, r < l.count

theorem orderlyMarks_setThreads (l : Listing) (threads : List Thread) : (l.setThreads threads).OrderlyMarks :=
  ⟨.nil, fun _ h => nomatch h⟩

theorem threads_toggle (l : Listing) (row : Nat) : (l.toggle row).threads = l.threads := by
  unfold toggle
  split
  · rfl
  · split <;> rfl

theorem selected_toggle (l : Listing) (row : Nat) : (l.toggle row).selected = l.selected := by
  unfold toggle
  split
  · rfl
  · split <;> rfl

theorem mem_toggle (l : Listing) (row x : Nat) :
    x ∈ (l.toggle row).marked ↔ if x = row ∧ row < l.count then x ∉ l.marked else x ∈ l.marked := by
  unfold toggle
  split
  · next hge => rw [if_neg fun h => absurd h.2 (Nat.not_lt.mpr hge)]
  · next hlt =>
    have hlt : row < l.count := Nat.lt_of_not_le hlt
    split
    · next hmem =>
      simp only [List.mem_filter, bne_iff_ne, ne_eq]
      by_cases hx : x = row
      · subst hx
        simp [hmem, hlt]
      · simp [hx]
    · next hmem =>
      rw [mem_insertRow]
      by_cases hx : x = row
      · subst hx
        simp [hmem, hlt]
      · simp [hx]

theorem OrderlyMarks.toggle (h : l.OrderlyMarks) (row : Nat) : (l.toggle row).OrderlyMarks where
  ascending := by
    unfold Listing.toggle
    split
    · exact h.ascending
    · split
      · exact h.ascending.filter _
      · next hmem => exact insertRow_pairwise h.ascending hmem
  lt_count := by
    intro r hr
    rw [count_congr (threads_toggle l row)]
    rw [mem_toggle] at hr
    split at hr
    · next hrow => exact hrow.1 ▸ hrow.2
    · exact h.lt_count r hr

theorem OrderlyMarks.marked_eq (h : l.OrderlyMarks) : l.marked = (List.range l.count).filter l.isMarked := by
  refine h.ascending.eq_of_mem_iff (List.pairwise_lt_range.filter _) fun r => ?_
  simp only [List.mem_filter, List.mem_range, isMarked, List.contains_iff_mem]
  exact ⟨fun hr => ⟨h.lt_count r hr, hr⟩, fun hr => hr.2⟩

def toggleAll (l : Listing) (rows : List Nat) : Listing := rows.foldl toggle l

theorem threads_toggleAll (l : Listing) (rows : List Nat) : (l.toggleAll rows).threads = l.threads := by
  induction rows generalizing l with
  | nil => rfl
  | cons row rest ih => exact (ih (l.toggle row)).trans (threads_toggle l row)

theorem selected_toggleAll (l : Listing) (rows : List Nat) : (l.toggleAll rows).selected = l.selected := by
  induction rows generalizing l with
  | nil => rfl
  | cons row rest ih => exact (ih (l.toggle row)).trans (selected_toggle l row)

theorem OrderlyMarks.toggleAll (h : l.OrderlyMarks) (rows : List Nat) : (l.toggleAll rows).OrderlyMarks := by
  induction rows generalizing l with
  | nil => exact h
  | cons row rest ih => exact ih (h.toggle row)

theorem mem_toggleAll {rows : List Nat} (hrows : rows.Nodup) (hnew : ∀ r ∈ rows, r ∉ l.marked) (x : Nat) :
    x ∈ (l.toggleAll rows).marked ↔ x ∈ l.marked ∨ x ∈ rows ∧ x < l.count := by
  induction rows generalizing l with
  | nil => simp [toggleAll]
  | cons row rest ih =>
    obtain ⟨hrow, hrest⟩ := List.nodup_cons.mp hrows
    have hcount : (l.toggle row).count = l.count := count_congr (threads_toggle l row)
    have hstill (r : Nat) (hr : r ∈ rest) : r ∉ (l.toggle row).marked := by
      have hne : r ≠ row := fun heq => hrow (heq ▸ hr)
      rw [mem_toggle, if_neg fun h => hne h.1]
      exact hnew r (List.mem_cons_of_mem _ hr)
    have hstep : x ∈ ((l.toggle row).toggleAll rest).marked ↔ _ := ih hrest hstill
    change x ∈ ((l.toggle row).toggleAll rest).marked ↔ _
    rw [hstep, mem_toggle, hcount, List.mem_cons]
    have hfirst := hnew row List.mem_cons_self
    by_cases hx : x = row
    · subst hx
      by_cases hlt : x < l.count <;> simp [hlt, hfirst]
    · simp [hx]

end Triage.Listing
