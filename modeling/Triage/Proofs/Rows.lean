import Mathlib.Algebra.Ring.Parity
import Mathlib.Data.List.Induction
import Triage.Proofs.Marks

/-! Runs of operations on a listing. Every row has one message and every message one row, the selected and the marked
rows are rows of the listing, and the marks are told by how often each of them was turned over. -/

namespace Triage.Listing

variable (l : Listing)

theorem length_places : l.places.length = l.count := by
  rw [← index_eq_places]
  rfl

theorem mem_places {p : Nat × Nat} : p ∈ l.places ↔ (l.messageAt? p).isSome :=
  mem_placesFrom.trans (and_iff_right (Nat.zero_le _))

theorem get?_eq (row : Nat) : l.get? row = l.places[row]?.bind l.messageAt? := by
  rw [get?, index_eq_places]

theorem isSome_get?_iff (row : Nat) : (l.get? row).isSome ↔ row < l.count := by
  rw [get?_eq_rows, count_eq]
  simp

theorem existsUnique_row {p : Nat × Nat} (hp : (l.messageAt? p).isSome) : ∃! row : Nat, l.places[row]? = some p := by
  have hnodup : l.places.Nodup := (placesFrom_pairwise 0 l.threads).imp fun hbefore heq => by
    unfold Before at hbefore
    rw [heq] at hbefore
    omega
  obtain ⟨row, hrow⟩ := List.mem_iff_getElem?.mp ((mem_places l).mpr hp)
  obtain ⟨hlt, -⟩ := List.getElem?_eq_some_iff.mp hrow
  exact ⟨row, hrow, fun row' hrow' => ((List.getElem?_inj hlt hnodup).mp (hrow.trans hrow'.symm)).symm⟩

inductive Operation where
  | setThreads (threads : List Thread)
  | select (row : Nat)
  | move (delta : Int)
  | toggle (row : Nat)
  | invert
  | clearMarks
  | applyTags (ids : List MessageId) (operations : List String)
  deriving DecidableEq

def perform (l : Listing) : Operation → Listing
  | .setThreads threads => l.setThreads threads
  | .select row => (l.select row).2
  | .move delta => l.move delta
  | .toggle row => l.toggle row
  | .invert => l.invert
  | .clearMarks => l.clearMarks
  | .applyTags ids operations => l.applyTags ids operations

def run (ops : List Operation) : Listing := ops.foldl perform default

theorem threads_select (row : Nat) : (l.select row).2.threads = l.threads := by
  unfold select
  split <;> rfl

theorem threads_move (delta : Int) : (l.move delta).threads = l.threads := by
  unfold move
  split <;> rfl

theorem marked_select (row : Nat) : (l.select row).2.marked = l.marked := by
  unfold select
  split <;> rfl

theorem marked_move (delta : Int) : (l.move delta).marked = l.marked := by
  unfold move
  split <;> rfl

theorem rows_applyTags (ids : List MessageId) (operations : List String) :
    (l.applyTags ids operations).rows = l.rows.map fun m => if m.id ∈ ids then m.applyTags operations else m := by
  have hthread (t : Thread) : (t.applyTags ids operations).messages.reverse =
      t.messages.reverse.map fun m => if m.id ∈ ids then m.applyTags operations else m := List.map_reverse.symm
  rw [rows_eq, rows_eq, List.map_flatMap]
  change (l.threads.map (·.applyTags ids operations)).flatMap (·.messages.reverse) = _
  rw [List.flatMap_map]
  exact congrArg (List.flatMap · l.threads) (funext hthread)

theorem count_applyTags (ids : List MessageId) (operations : List String) :
    (l.applyTags ids operations).count = l.count := rfl

theorem places_applyTags (ids : List MessageId) (operations : List String) :
    (l.applyTags ids operations).places = l.places := by
  rw [← index_eq_places, ← index_eq_places]
  rfl

theorem ids_applyTags (ids : List MessageId) (operations : List String) :
    (l.applyTags ids operations).rows.map (·.id) = l.rows.map (·.id) := by
  rw [rows_applyTags, List.map_map]
  refine List.map_congr_left fun m _ => ?_
  simp only [Function.comp]
  split <;> rfl

/-- A sum of 64 bits of a row and a signed number: where it does not fit, it is the greatest number or zero. -/
def saturatingAdd (row : UInt64) (delta : Int64) : UInt64 :=
  let sum := row + delta.toUInt64
  if sum < row ↔ delta < 0 then sum else if sum < row then 0xFFFFFFFFFFFFFFFF else 0

theorem toInt_eq (delta : Int64) :
    delta.toInt = if delta.toUInt64.toNat < 0x8000000000000000 then (delta.toUInt64.toNat : Int)
      else delta.toUInt64.toNat - 0x10000000000000000 := by
  have hcond : delta.toInt = _ := BitVec.toInt_eq_toNat_cond delta.toBitVec
  have hword : delta.toUInt64.toNat = delta.toBitVec.toNat := rfl
  rw [hcond, hword]
  split <;> split <;> omega

theorem toNat_saturatingAdd (row : UInt64) (delta : Int64) :
    (saturatingAdd row delta).toNat = min (row.toNat + delta.toInt).toNat 0xFFFFFFFFFFFFFFFF := by
  have hsum : (row + delta.toUInt64).toNat = (row.toNat + delta.toUInt64.toNat) % 0x10000000000000000 :=
    UInt64.toNat_add ..
  have hneg : delta < 0 ↔ delta.toInt < 0 := Int64.lt_iff_toInt_lt
  have hdelta := toInt_eq delta
  have hrow := row.toNat_lt
  have hword := delta.toUInt64.toNat_lt
  unfold saturatingAdd
  simp only [hneg, UInt64.lt_iff_toNat_lt, hsum]
  split
  · rw [hsum]
    omega
  · split
    · simp
      omega
    · simp
      omega

theorem toNat_min (a b : UInt64) : (min a b).toNat = min a.toNat b.toNat := by
  change (if a ≤ b then a else b).toNat = _
  split
  · next hle => exact (Nat.min_eq_left (UInt64.le_iff_toNat_le.mp hle)).symm
  · next hgt => exact (Nat.min_eq_right (Nat.le_of_not_le fun hle => hgt (UInt64.le_iff_toNat_le.mpr hle))).symm

theorem selected_move_words {row : UInt64} (hrow : row.toNat = l.selected) (delta : Int64) (hsome : 0 < l.count)
    (hfits : l.count < 0x10000000000000000) :
    (min (saturatingAdd row delta) (.ofNat (l.count - 1))).toNat = (l.move delta.toInt).selected := by
  have hlast : (UInt64.ofNat (l.count - 1)).toNat = l.count - 1 :=
    UInt64.toNat_ofNat_of_lt' (Nat.lt_of_le_of_lt (Nat.sub_le _ _) hfits)
  unfold move
  rw [if_neg hsome.ne', toNat_min, toNat_saturatingAdd, hlast, hrow]
  simp only
  omega

theorem selected_move (delta : Int) (h : l.selected ≤ l.count - 1) :
    ((l.move delta).selected : Int) = max 0 (min (l.selected + delta) (l.count - 1 : Nat)) := by
  unfold move
  split
  · omega
  · simp only
    omega

variable {l : Listing}

theorem mem_invert (row : Nat) : row ∈ l.invert.marked ↔ row < l.count ∧ row ∉ l.marked := by
  simp [invert]

theorem OrderlyMarks.invert (l : Listing) : l.invert.OrderlyMarks where
  ascending := List.pairwise_lt_range.filter _
  lt_count r hr := ((mem_invert r).mp hr).1

theorem OrderlyMarks.congr {l' : Listing} (h : l.OrderlyMarks) (hmarked : l'.marked = l.marked)
    (hcount : l'.count = l.count) : l'.OrderlyMarks :=
  ⟨hmarked ▸ h.ascending, fun r hr => hcount ▸ h.lt_count r (hmarked ▸ hr)⟩

theorem OrderlyMarks.perform (h : l.OrderlyMarks) (op : Operation) : (l.perform op).OrderlyMarks := by
  cases op with
  | setThreads threads => exact orderlyMarks_setThreads l threads
  | select row => exact h.congr (l.marked_select row) (count_congr (l.threads_select row))
  | move delta => exact h.congr (l.marked_move delta) (count_congr (l.threads_move delta))
  | toggle row => exact h.toggle row
  | invert => exact .invert l
  | clearMarks => exact ⟨.nil, nofun⟩
  | applyTags ids operations => exact h.congr rfl (l.count_applyTags ids operations)

theorem OrderlyMarks.ext {l' : Listing} (h : l.OrderlyMarks) (h' : l'.OrderlyMarks) (hthreads : l'.threads = l.threads)
    (hselected : l'.selected = l.selected) (hmem : ∀ row, row ∈ l'.marked ↔ row ∈ l.marked) : l' = l := by
  obtain ⟨threads, index, selected, marked, hindex⟩ := l
  obtain ⟨threads', index', selected', marked', hindex'⟩ := l'
  obtain rfl : threads' = threads := hthreads
  obtain rfl : index' = index := hindex'.trans hindex.symm
  obtain rfl : selected' = selected := hselected
  obtain rfl : marked' = marked := h'.ascending.eq_of_mem_iff h.ascending hmem
  rfl

theorem count_toggle (l : Listing) (row : Nat) : (l.toggle row).count = l.count := count_congr (threads_toggle l row)

theorem OrderlyMarks.toggle_toggle (h : l.OrderlyMarks) (row row' : Nat) :
    (l.toggle row).toggle row' = (l.toggle row').toggle row := by
  refine ((h.toggle row').toggle row).ext ((h.toggle row).toggle row') ?_ ?_ fun x => ?_
  · simp only [threads_toggle]
  · simp only [selected_toggle]
  · simp only [mem_toggle, count_toggle]
    split_ifs <;> tauto

theorem toggle_invert (l : Listing) (row : Nat) : (l.toggle row).invert = l.invert.toggle row := by
  refine ((OrderlyMarks.invert l).toggle row).ext (.invert _) ?_ ?_ fun x => ?_
  · rw [threads_toggle]
    exact threads_toggle l row
  · rw [selected_toggle]
    exact selected_toggle l row
  · have hcount : l.invert.count = l.count := rfl
    rw [mem_invert, mem_toggle, mem_toggle, mem_invert, count_toggle, hcount]
    by_cases hx : x = row ∧ row < l.count
    · rw [if_pos hx, if_pos hx]
      obtain ⟨rfl, hlt⟩ := hx
      tauto
    · rw [if_neg hx, if_neg hx]

theorem OrderlyMarks.length_marked_add (h : l.OrderlyMarks) : l.marked.length + l.invert.marked.length = l.count := by
  have hrows := List.length_eq_length_filter_add (l := List.range l.count) l.isMarked
  rw [List.length_range, ← h.marked_eq] at hrows
  exact hrows.symm

structure InRange (l : Listing) : Prop extends l.OrderlyMarks where
  selected_le : l.selected ≤ l.count - 1

theorem selected_perform_le (h : l.selected ≤ l.count - 1) (op : Operation) :
    (l.perform op).selected ≤ (l.perform op).count - 1 := by
  cases op with
  | setThreads threads => exact Nat.min_le_right _ _
  | select row =>
    rw [perform, count_congr (l.threads_select row), select]
    split
    · next hlt => exact Nat.le_pred_of_lt hlt
    · exact h
  | move delta =>
    rw [perform, count_congr (l.threads_move delta), move]
    split
    · exact h
    · exact Nat.min_le_right _ _
  | toggle row =>
    rw [perform, selected_toggle, count_toggle]
    exact h
  | invert | clearMarks => exact h
  | applyTags ids operations =>
    rw [perform, count_applyTags]
    exact h

theorem run_concat (ops : List Operation) (op : Operation) : run (ops ++ [op]) = (run ops).perform op :=
  List.foldl_concat ..

theorem inRange_run (ops : List Operation) : (run ops).InRange := by
  induction ops using List.reverseRecOn with
  | nil => exact ⟨⟨.nil, nofun⟩, Nat.zero_le _⟩
  | append_singleton ops op ih =>
    rw [run_concat]
    exact ⟨ih.toOrderlyMarks.perform op, selected_perform_le ih.selected_le op⟩

/-- What is shown in which row, and that the rows that are selected and marked are there. -/
structure Consistent (l : Listing) : Prop where
  count : l.count = l.threads.foldr (·.messageCount + ·) 0
  indexed : l.index = l.places
  ordered : l.places.Pairwise Before
  placed : l.places.length = l.count
  oneRow : ∀ p, (l.messageAt? p).isSome → ∃! row : Nat, l.places[row]? = some p
  shown : ∀ row, l.get? row = l.places[row]?.bind l.messageAt?
  shows : ∀ row, (l.get? row).isSome ↔ row < l.count
  all : (List.range l.count).map l.get? = l.rows.map some
  marked : l.OrderlyMarks
  markedMessages : l.markedMessages.map some = l.marked.map l.get?
  selected : l.selected ≤ l.count - 1
  selectedMessage : l.selectedMessage?.isSome ↔ 0 < l.count

theorem map_filterMap_some {α β : Type} {f : α → Option β} {xs : List α} (h : ∀ x ∈ xs, (f x).isSome) :
    (xs.filterMap f).map some = xs.map f := by
  induction xs with
  | nil => rfl
  | cons x xs ih =>
    obtain ⟨hx, hxs⟩ := List.forall_mem_cons.mp h
    obtain ⟨y, hy⟩ := Option.isSome_iff_exists.mp hx
    rw [List.filterMap_cons_some hy, List.map_cons, List.map_cons, ih hxs, hy]

theorem OrderlyMarks.map_markedMessages (h : l.OrderlyMarks) : l.markedMessages.map some = l.marked.map l.get? :=
  map_filterMap_some fun row hrow => (l.isSome_get?_iff row).mpr (h.lt_count row hrow)

theorem InRange.consistent (h : l.InRange) : l.Consistent where
  count := by
    rw [count_eq, rows_eq]
    induction l.threads with
    | nil => rfl
    | cons t rest ih => simp [ih, Thread.messageCount]
  indexed := l.index_eq_places
  ordered := placesFrom_pairwise 0 l.threads
  placed := l.length_places
  oneRow _ := l.existsUnique_row
  shown := l.get?_eq
  shows := l.isSome_get?_iff
  all := by
    rw [count_eq, ← map_getElem?_range]
    exact List.map_congr_left fun row _ => l.get?_eq_rows row
  marked := h.toOrderlyMarks
  markedMessages := h.map_markedMessages
  selected := h.selected_le
  selectedMessage := by
    have hselected := h.selected_le
    rw [selectedMessage?, isSome_get?_iff]
    omega

/-- Listings are consistent after any operations. The selection moves by exactly as many rows as there are, also in
words of 64 bits; rows past the end are ignored, and tags are not looked at for rows, marks and the selection. -/
theorem run_consistent (ops : List Operation) :
    (run ops).Consistent ∧
      (∀ delta : Int, (((run ops).move delta).selected : Int) =
        max 0 (min ((run ops).selected + delta) ((run ops).count - 1 : Nat))) ∧
      (∀ (row : UInt64) (delta : Int64), row.toNat = (run ops).selected → 0 < (run ops).count →
        (run ops).count < 0x10000000000000000 →
          (min (saturatingAdd row delta) (.ofNat ((run ops).count - 1))).toNat =
            ((run ops).move delta.toInt).selected) ∧
      (∀ row, (run ops).count ≤ row → (run ops).select row = (false, run ops) ∧ (run ops).toggle row = run ops) ∧
      ∀ ids operations, ((run ops).applyTags ids operations).places = (run ops).places ∧
        ((run ops).applyTags ids operations).rows.map (·.id) = (run ops).rows.map (·.id) ∧
        ((run ops).applyTags ids operations).marked = (run ops).marked ∧
        ((run ops).applyTags ids operations).selected = (run ops).selected := by
  have hrange := inRange_run ops
  refine ⟨hrange.consistent, fun delta => selected_move _ delta hrange.selected_le,
    fun row delta hrow => selected_move_words _ hrow delta, fun row hrow => ⟨?_, ?_⟩, fun ids operations =>
    ⟨places_applyTags _ ids operations, ids_applyTags _ ids operations, rfl, rfl⟩⟩
  · exact if_neg (Nat.not_lt.mpr hrow)
  · exact if_pos hrow

theorem run_consistent_moving :
    let threads : List Thread :=
      [{ messages := [{ id := "a" }, { id := "b" }] }, { messages := [{ id := "c" }] }]
    let ops : List Operation := [.setThreads threads, .select 1, .toggle 2]
    (1 : UInt64).toNat = (run ops).selected ∧ 0 < (run ops).count ∧ (run ops).count < 0x10000000000000000 ∧
      (min (saturatingAdd 1 Int64.minValue) (.ofNat ((run ops).count - 1))).toNat =
        ((run ops).move Int64.minValue.toInt).selected ∧
      (run ops).count ≤ 3 ∧ (run ops).toggle 3 = run ops := by
  intro threads ops
  have hrow : (1 : UInt64).toNat = (run ops).selected := by decide
  have hsome : 0 < (run ops).count := by decide
  have hfits : (run ops).count < 0x10000000000000000 := by decide
  have hpast : (run ops).count ≤ 3 := by decide
  obtain ⟨-, -, hwords, hignored, -⟩ := run_consistent ops
  exact ⟨hrow, hsome, hfits, hwords 1 Int64.minValue hrow hsome hfits, hpast, (hignored 3 hpast).2⟩

def Operation.clears : Operation → Bool
  | .setThreads _ => true
  | .clearMarks => true
  | _ => false

def recent (ops : List Operation) : List Operation := ops.reverse.takeWhile (!·.clears)

theorem recent_concat (ops : List Operation) (op : Operation) :
    recent (ops ++ [op]) = if op.clears then [] else op :: recent ops := by
  unfold recent
  rw [List.reverse_concat, List.takeWhile_cons]
  cases op.clears <;> rfl

/-- How often the mark of a row was turned over since all marks were removed. -/
def turns (ops : List Operation) (row : Nat) : Nat := (recent ops).count (.toggle row) + (recent ops).count .invert

theorem turns_concat (ops : List Operation) (op : Operation) (row : Nat) :
    turns (ops ++ [op]) row =
      if op.clears then 0 else turns ops row + if op = .toggle row ∨ op = .invert then 1 else 0 := by
  rw [turns, recent_concat]
  cases op with
  | setThreads | clearMarks | select | move | applyTags => simp [Operation.clears, turns]
  | toggle r =>
    by_cases hr : r = row
    · simp [Operation.clears, turns, hr, Nat.add_right_comm]
    · simp [Operation.clears, turns, hr]
  | invert => simp [Operation.clears, turns, Nat.add_assoc]

theorem mem_marked_run (ops : List Operation) (row : Nat) :
    row ∈ (run ops).marked ↔ row < (run ops).count ∧ Odd (turns ops row) := by
  induction ops using List.reverseRecOn with
  | nil => exact ⟨nofun, fun h => absurd h.1 (Nat.not_lt_zero row)⟩
  | append_singleton ops op ih =>
    rw [run_concat, turns_concat]
    cases op with
    | setThreads | clearMarks => simp [perform, setThreads, clearMarks, Operation.clears]
    | select r =>
      rw [perform, marked_select, count_congr (threads_select _ r)]
      simpa [Operation.clears] using ih
    | move delta =>
      rw [perform, marked_move, count_congr (threads_move _ delta)]
      simpa [Operation.clears] using ih
    | applyTags ids operations =>
      have hmarked : ((run ops).applyTags ids operations).marked = (run ops).marked := rfl
      rw [perform, count_applyTags, hmarked]
      simpa [Operation.clears] using ih
    | toggle r =>
      rw [perform, mem_toggle, count_toggle, ih]
      by_cases hr : row = r
      · subst hr
        simp only [Operation.clears, Bool.false_eq_true, if_false, true_or, if_true, true_and, Nat.odd_add_one]
        split_ifs <;> tauto
      · simp [Operation.clears, hr, Ne.symm hr]
    | invert =>
      have hcount : ((run ops).perform .invert).count = (run ops).count := rfl
      rw [hcount, perform, mem_invert, ih]
      simp only [Operation.clears, Bool.false_eq_true, if_false, or_true, if_true, Nat.odd_add_one]
      tauto

/-- What never turns a mark over: moving the selection, tagging, and rows past the end. -/
def Operation.IsIdle (l : Listing) : Operation → Prop
  | .select _ => True
  | .move _ => True
  | .applyTags .. => True
  | .toggle row => l.count ≤ row
  | _ => False

structure SameMarks (l l' : Listing) : Prop where
  marked : l'.marked = l.marked
  count : l'.count = l.count

theorem SameMarks.symm {l' : Listing} (h : l.SameMarks l') : l'.SameMarks l := ⟨h.marked.symm, h.count.symm⟩

theorem SameMarks.trans {l₁ l₂ l₃ : Listing} (h₁ : l₁.SameMarks l₂) (h₂ : l₂.SameMarks l₃) : l₁.SameMarks l₃ :=
  ⟨h₂.marked.trans h₁.marked, h₂.count.trans h₁.count⟩

theorem sameMarks_of_isIdle {op : Operation} (h : op.IsIdle l) : l.SameMarks (l.perform op) := by
  cases op with
  | select row => exact ⟨l.marked_select row, count_congr (l.threads_select row)⟩
  | move delta => exact ⟨l.marked_move delta, count_congr (l.threads_move delta)⟩
  | applyTags ids operations => exact ⟨rfl, l.count_applyTags ids operations⟩
  | toggle row =>
    have hpast : l.toggle row = l := if_pos h
    rw [perform, hpast]
    exact ⟨rfl, rfl⟩
  | setThreads | invert | clearMarks => exact h.elim

theorem SameMarks.perform {l' : Listing} (h : l.SameMarks l') (op : Operation) :
    (l.perform op).SameMarks (l'.perform op) := by
  have hidle (hop : ∀ l, op.IsIdle l) : (l.perform op).SameMarks (l'.perform op) :=
    (sameMarks_of_isIdle (hop l)).symm.trans (h.trans (sameMarks_of_isIdle (hop l')))
  cases op with
  | select | move | applyTags => exact hidle fun _ => trivial
  | setThreads threads => exact ⟨rfl, rfl⟩
  | clearMarks => exact ⟨rfl, h.count⟩
  | invert =>
    refine ⟨?_, h.count⟩
    rw [Listing.perform, Listing.perform, invert, invert, h.marked, h.count]
  | toggle row =>
    refine ⟨?_, ?_⟩
    · rw [Listing.perform, Listing.perform, toggle, toggle, h.count, h.marked]
      split_ifs
      · exact h.marked
      · rfl
      · rfl
    · rw [Listing.perform, Listing.perform, count_toggle, count_toggle, h.count]

theorem sameMarks_run {earlier : List Operation} {op : Operation} (h : op.IsIdle (run earlier))
    (later : List Operation) : (run (earlier ++ later)).SameMarks (run (earlier ++ op :: later)) := by
  induction later using List.reverseRecOn with
  | nil =>
    rw [run_concat, List.append_nil]
    exact sameMarks_of_isIdle h
  | append_singleton later last ih =>
    rw [← List.cons_append, ← List.append_assoc, ← List.append_assoc, run_concat, run_concat]
    exact ih.perform last

/-- The marks after any operations are told by parity. Operations that do not matter can be left out, marks of
different rows and inversions can be exchanged, and inverting marks exactly the rows that were not marked. -/
theorem run_marks_parity (ops : List Operation) :
    (∀ row, (run ops).isMarked row ↔ row < (run ops).count ∧
        Odd ((recent ops).count (.toggle row) + (recent ops).count .invert)) ∧
      (∀ earlier op later, ops = earlier ++ op :: later → op.IsIdle (run earlier) →
        (run ops).marked = (run (earlier ++ later)).marked) ∧
      (∀ row row', ((run ops).toggle row).toggle row' = ((run ops).toggle row').toggle row) ∧
      (∀ row, ((run ops).toggle row).invert = (run ops).invert.toggle row) ∧
      (run ops).marked.length + (run ops).invert.marked.length = (run ops).count := by
  have hmarks := (inRange_run ops).toOrderlyMarks
  refine ⟨fun row => ?_, ?_, hmarks.toggle_toggle, toggle_invert _, hmarks.length_marked_add⟩
  · rw [isMarked, List.contains_iff_mem]
    exact mem_marked_run ops row
  · rintro earlier op later rfl hidle
    exact (sameMarks_run hidle later).marked

theorem run_marks_parity_idle :
    let ops : List Operation := [.setThreads [{ messages := [{ id := "a" }, { id := "b" }] }], .toggle 0, .invert,
      .toggle 2, .invert]
    Operation.IsIdle (run (ops.take 3)) (.toggle 2) ∧ (run ops).marked = (run (ops.take 3 ++ [.invert])).marked ∧
      (run ops).isMarked 0 := by
  intro ops
  have hidle : Operation.IsIdle (run (ops.take 3)) (.toggle 2) := by
    change (run (ops.take 3)).count ≤ 2
    decide
  obtain ⟨hparity, hleave, -⟩ := run_marks_parity ops
  exact ⟨hidle, hleave (ops.take 3) (.toggle 2) [.invert] rfl hidle, (hparity 0).mpr ⟨by decide, by decide⟩⟩

end Triage.Listing
