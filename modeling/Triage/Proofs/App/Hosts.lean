import Triage.Proofs.App.Desk
import Triage.Proofs.Rows

/-! Two hosts under the same tag calls. Scripts cannot tell a desk from a host without an application that holds the
same rows, as long as the index does what it is asked; where it does not, the desk keeps its state. -/

namespace Triage

namespace MemoryHost

theorem mem_dedup {row : Nat} : ∀ {rows : List Nat}, row ∈ dedup rows ↔ row ∈ rows
  | [] | [_] => Iff.rfl
  | r :: next :: rest => by
    have ih : row ∈ dedup (next :: rest) ↔ row ∈ next :: rest := mem_dedup
    unfold dedup
    split
    · next heq =>
      rw [ih, heq]
      simp
    · rw [List.mem_cons, ih, ← List.mem_cons]

theorem dedup_pairwise : ∀ {rows : List Nat}, rows.Pairwise (· ≤ ·) → (dedup rows).Pairwise (· < ·)
  | [], _ => .nil
  | [_], _ => List.pairwise_singleton _ _
  | r :: next :: rest, h => by
    obtain ⟨hr, hrest⟩ := List.pairwise_cons.mp h
    unfold dedup
    split
    · exact dedup_pairwise hrest
    · next hne =>
      refine List.pairwise_cons.mpr ⟨fun x hx => ?_, dedup_pairwise hrest⟩
      -- What follows a different row is greater than it, as the next row already is.
      have hnext : r < next := Nat.lt_of_le_of_ne (hr next List.mem_cons_self) hne
      rcases List.mem_cons.mp (mem_dedup.mp hx) with rfl | hx
      · exact hnext
      · exact hnext.trans_le ((List.pairwise_cons.mp hrest).1 x hx)

/-- Sorted and each once, the marked rows are those of the listing in row order; others show no message. -/
theorem markedMessages_eq (h : MemoryHost) :
    h.markedMessages = ((List.range h.messages.length).filter h.marked.contains).filterMap (h.messages[·]?) := by
  have hsorted : h.marked.mergeSort.Pairwise (· ≤ ·) := List.pairwise_mergeSort' (· ≤ ·) _
  have hlisted : (dedup h.marked.mergeSort).filter (· < h.messages.length) =
      (List.range h.messages.length).filter h.marked.contains := by
    refine ((dedup_pairwise hsorted).filter _).eq_of_mem_iff (List.pairwise_lt_range.filter _) fun row => ?_
    simp only [List.mem_filter, List.mem_range, mem_dedup, List.mem_mergeSort, List.contains_iff_mem,
      decide_eq_true_eq]
    exact and_comm
  rw [markedMessages, ← hlisted, List.filterMap_filter]
  refine List.filterMap_congr fun row _ => ?_
  by_cases hrow : row < h.messages.length
  · simp [hrow]
  · simp [hrow]

end MemoryHost

structure Host.SameMessages {σ τ : Type} [Host σ] [Host τ] (a : σ) (b : τ) : Prop where
  all : Host.allMessages a = Host.allMessages b
  marked : Host.markedMessages a = Host.markedMessages b
  selected : Host.selectedMessage? a = Host.selectedMessage? b

def Host.tagAll {σ : Type} [Host σ] (host : σ) (calls : List TagCall) : σ :=
  calls.foldl (fun host c => (Host.tag host c.ids c.operations).2) host

def TagCall.apply (c : TagCall) (m : Message) : Message := if m.id ∈ c.ids then m.applyTags c.operations else m

namespace App

/-- A desk and a host without an application that hold the same rows, mark the same and select the same. -/
structure Mirrors (d : Desk) (h : MemoryHost) : Prop where
  rows : d.state.messages.rows = h.messages
  marked : d.state.messages.marked = (List.range h.messages.length).filter h.marked.contains
  selected : h.selected = if h.messages.isEmpty then none else some d.state.messages.selected

variable {d : Desk} {h : MemoryHost}

theorem Mirrors.sameMessages (hm : Mirrors d h) : Host.SameMessages d h where
  all := hm.rows
  marked := by
    have hget : d.state.messages.get? = (h.messages[·]?) := by
      funext row
      rw [Listing.get?_eq_rows, hm.rows]
    change d.state.messages.marked.filterMap d.state.messages.get? = h.markedMessages
    rw [hm.marked, hget, h.markedMessages_eq]
  selected := by
    change d.state.messages.get? d.state.messages.selected = h.selected.bind (h.messages[·]?)
    rw [Listing.get?_eq_rows, hm.rows, hm.selected]
    cases h.messages <;> rfl

theorem Desk.tag_of_ok {c : TagCall} (hok : d.index.tag c.ids c.operations = .ok ()) :
    ∃ d', Host.tag d c.ids c.operations = (.ok (), d') ∧ d'.index = d.index ∧
      d'.state.messages = d.state.messages.applyTags c.ids c.operations := by
  have hindex : (d.noteRun c.arguments).index = d.index := by
    obtain ⟨runs, hnoted, -⟩ := d.noteRun_eq c.arguments
    rw [hnoted]
  change ∃ d', d.tag c.ids c.operations = (.ok (), d') ∧ _
  unfold Desk.tag
  rw [hok]
  exact ⟨_, rfl, hindex, rfl⟩

theorem Desk.tag_of_error {ids : List MessageId} {operations : List String} {e : Error}
    (herror : d.index.tag ids operations = .error e) :
    ∃ d', Host.tag d ids operations = (.error e, d') ∧ d'.state = d.state := by
  have hstate : (d.noteRun (Index.tagArguments ids operations)).state = d.state := by
    obtain ⟨runs, hnoted, -⟩ := d.noteRun_eq (Index.tagArguments ids operations)
    rw [hnoted]
  change ∃ d', d.tag ids operations = (.error e, d') ∧ _
  unfold Desk.tag
  rw [herror]
  exact ⟨_, rfl, hstate⟩

theorem Mirrors.tag (hm : Mirrors d h) {c : TagCall} (hok : d.index.tag c.ids c.operations = .ok ()) :
    Mirrors (Host.tag d c.ids c.operations).2 (Host.tag h c.ids c.operations).2 := by
  obtain ⟨d', htag, -, hmessages⟩ := Desk.tag_of_ok hok
  rw [htag]
  have hrows : (d.state.messages.applyTags c.ids c.operations).rows = (h.messages.map c.apply) := by
    rw [Listing.rows_applyTags, hm.rows]
    rfl
  refine ⟨?_, ?_, ?_⟩
  · rw [hmessages]
    exact hrows
  · rw [hmessages]
    change d.state.messages.marked = (List.range (h.messages.map c.apply).length).filter h.marked.contains
    rw [List.length_map, hm.marked]
  · rw [hmessages]
    change h.selected = if (h.messages.map c.apply).isEmpty then none else some d.state.messages.selected
    rw [List.isEmpty_map, hm.selected]

theorem Mirrors.tagAll (hm : Mirrors d h) {calls : List TagCall}
    (hok : ∀ c ∈ calls, d.index.tag c.ids c.operations = .ok ()) :
    Mirrors (Host.tagAll d calls) (Host.tagAll h calls) := by
  induction calls generalizing d h with
  | nil => exact hm
  | cons c rest ih =>
    obtain ⟨d', htag, hindex, -⟩ := Desk.tag_of_ok (hok c List.mem_cons_self)
    refine ih (hm.tag (hok c List.mem_cons_self)) fun c' hc' => ?_
    change (Host.tag d c.ids c.operations).2.index.tag c'.ids c'.operations = _
    rw [htag, hindex]
    exact hok c' (List.mem_cons_of_mem _ hc')

theorem mirrors_of_marks {threads : List Thread} {marks rows : List Nat} (hrows : rows.Nodup)
    (hmarks : ∀ r, r ∈ marks ↔ r ∈ rows)
    (hd : d.state.messages = (({} : Listing).setThreads threads).toggleAll rows) :
    Mirrors d { MemoryHost.ofMessages (Listing.rows { threads }) with marked := marks } := by
  let fresh := ({} : Listing).setThreads threads
  have hthreads : d.state.messages.threads = threads := by
    rw [hd]
    exact Listing.threads_toggleAll fresh rows
  have hsame : d.state.messages.rows = Listing.rows { threads } := Listing.rows_congr hthreads
  have horderly : d.state.messages.OrderlyMarks := hd ▸ (Listing.orderlyMarks_setThreads {} threads).toggleAll rows
  refine ⟨hsame, ?_, ?_⟩
  -- Both hosts list the marked rows in ascending order, so it is enough that the same rows are marked.
  · rw [horderly.marked_eq, Listing.count_congr (l := { threads }) hthreads, Listing.count_eq]
    refine List.filter_congr fun r hr => ?_
    have hlt : r < fresh.count := by
      rw [Listing.count_eq]
      exact List.mem_range.mp hr
    have hmem : r ∈ d.state.messages.marked ↔ r ∈ marks := by
      rw [hd, Listing.mem_toggleAll hrows (fun _ _ => List.not_mem_nil), hmarks]
      exact ⟨fun h => h.elim nofun And.left, fun h => .inr ⟨h, hlt⟩⟩
    exact Bool.eq_iff_iff.mpr (by simpa [Listing.isMarked] using hmem)
  · have hselected : d.state.messages.selected = 0 := by
      rw [hd, Listing.selected_toggleAll]
      exact Nat.zero_min _
    rw [hselected]
    rfl

/-- Scripts get the same answers about messages from both hosts after any tag calls that the index carries out. Of a
call that it does not carry out they get the error, and the state stays as it was. -/
theorem tagAll_sameMessages {threads : List Thread} {marks rows : List Nat} (hrows : rows.Nodup)
    (hmarks : ∀ r, r ∈ marks ↔ r ∈ rows)
    (hd : d.state.messages = (({} : Listing).setThreads threads).toggleAll rows) {calls : List TagCall}
    (hok : ∀ c ∈ calls, d.index.tag c.ids c.operations = .ok ()) :
    Host.SameMessages (Host.tagAll d calls)
      (Host.tagAll { MemoryHost.ofMessages (Listing.rows { threads }) with marked := marks } calls) ∧
    ∀ (d : Desk) (ids : List MessageId) (operations : List String) (e : Error), d.index.tag ids operations = .error e →
      ∃ d', Host.tag d ids operations = (.error e, d') ∧ d'.state = d.state := by
  refine ⟨?_, fun d ids operations e => Desk.tag_of_error⟩
  have hmirrors := mirrors_of_marks hrows hmarks hd
  exact (hmirrors.tagAll hok).sameMessages

def sharing : List Thread :=
  [{ id := "t1", messages := [{ id := "a", tags := ["inbox"] }, { id := "b" }] },
   { id := "t2", messages := [{ id := "a" }] }]

def twoCalls : List TagCall := [⟨["a", "a", "c"], ["+todo", "-inbox"]⟩, ⟨["b", "a"], ["done"]⟩]

def sharingDesk : Desk where
  state := { messages := ((default : Listing).setThreads sharing).toggleAll [2, 0] }
  index := { run := fun _ => .ok {} }

theorem tagAll_sameMessages_sharing :
    Host.SameMessages (Host.tagAll sharingDesk twoCalls)
      (Host.tagAll { MemoryHost.ofMessages (Listing.rows { threads := sharing }) with marked := [2, 0, 2] } twoCalls) ∧
    (Host.markedMessages (Host.tagAll sharingDesk twoCalls)).map (·.tags) = [["done"], ["todo", "done"]] := by
  have hmarks (r : Nat) : r ∈ [2, 0, 2] ↔ r ∈ [2, 0] := by
    simp only [List.mem_cons, List.not_mem_nil, or_false]
    omega
  have hok : ∀ c ∈ twoCalls, sharingDesk.index.tag c.ids c.operations = .ok () := by
    have hall : ∀ c ∈ twoCalls, (sharingDesk.index.tag c.ids c.operations).isOk = true := by decide +kernel
    intro c hc
    cases htag : sharingDesk.index.tag c.ids c.operations with
    | ok => rfl
    | error e =>
      have hc := hall c hc
      rw [htag] at hc
      cases hc
  exact ⟨(tagAll_sameMessages (by decide) hmarks rfl hok).1, by decide +kernel⟩

end App
end Triage
