import Triage.Index.Search
import Triage.Proofs.Places
import Triage.Text.Utf8

/-! The dates of a thread in row order. Rows go backwards through a reply tree in which each message stands before the
replies to it. So a thread is listed newest first exactly if no date goes back, neither from a message to its answers
nor from one answer to the next. -/

namespace Triage

def Message.dates (ms : List Message) : List Seconds := ms.filterMap (·.date)

namespace Listing

/-- The rows of one thread, which follow those of the threads before it. -/
def rowsOf (l : Listing) (i : Nat) : List Message :=
  (l.rows.drop (ofThreads (l.threads.take i)).count).take (l.threads[i]?.elim 0 (·.messageCount))

def NewestFirst (l : Listing) : Prop := ∀ i, (Message.dates (l.rowsOf i)).Pairwise (· ≥ ·)

theorem rowsOf_of_getElem? {l : Listing} {i : Nat} {t : Thread} (h : l.threads[i]? = some t) :
    l.rowsOf i = t.messages.reverse := by
  obtain ⟨hi, rfl⟩ := List.getElem?_eq_some_iff.mp h
  have hsplit : l.threads.take i ++ l.threads[i] :: l.threads.drop (i + 1) = l.threads := by
    rw [← List.drop_eq_getElem_cons hi, List.take_append_drop]
  have hrows := calc
    l.rows = (l.threads.take i ++ l.threads[i] :: l.threads.drop (i + 1)).flatMap (·.messages.reverse) := by
      rw [hsplit, rows_eq]
    _ = (l.threads.take i).flatMap (·.messages.reverse) ++
        (l.threads[i].messages.reverse ++ (l.threads.drop (i + 1)).flatMap (·.messages.reverse)) := by
      rw [List.flatMap_append, List.flatMap_cons]
  have hbefore : (ofThreads (l.threads.take i)).count = ((l.threads.take i).flatMap (·.messages.reverse)).length := by
    rw [count_eq, rows_eq, threads_ofThreads]
  unfold rowsOf
  rw [hrows, h, hbefore, List.drop_left]
  exact List.take_left' List.length_reverse

theorem rowsOf_of_none {l : Listing} {i : Nat} (h : l.threads[i]? = none) : l.rowsOf i = [] := by
  unfold rowsOf
  rw [h]
  exact List.take_zero

theorem newestFirst_iff (l : Listing) :
    l.NewestFirst ↔ ∀ t ∈ l.threads, (Message.dates t.messages).Pairwise (· ≤ ·) := by
  have hreverse (ms : List Message) :
      (Message.dates ms.reverse).Pairwise (· ≥ ·) ↔ (Message.dates ms).Pairwise (· ≤ ·) := by
    rw [Message.dates, List.filterMap_reverse, List.pairwise_reverse]
    rfl
  constructor
  · intro h t ht
    obtain ⟨i, hi⟩ := List.mem_iff_getElem?.mp ht
    rw [← hreverse, ← rowsOf_of_getElem? hi]
    exact h i
  · intro h i
    cases ht : l.threads[i]? with
    | none =>
      rw [rowsOf_of_none ht]
      exact .nil
    | some t =>
      rw [rowsOf_of_getElem? ht, hreverse]
      exact h t (List.mem_of_getElem? ht)

end Listing

namespace Index

def Shown.date? (s : Shown) : Option Seconds := s.timestamp.bind Seconds.date?

mutual

def Node.dates : Node → List Seconds
  | .node message replies => (message.bind Shown.date?).toList ++ forestDates replies

def forestDates : List Node → List Seconds
  | [] => []
  | n :: rest => n.dates ++ forestDates rest

end

mutual

def Node.IsOrdered : Node → Prop
  | .node message replies =>
    (∀ d ∈ message.bind Shown.date?, ∀ d' ∈ forestDates replies, d ≤ d') ∧ ForestOrdered replies

def ForestOrdered : List Node → Prop
  | [] => True
  | n :: rest => n.IsOrdered ∧ ForestOrdered rest ∧ ∀ d ∈ n.dates, ∀ d' ∈ forestDates rest, d ≤ d'

end

mutual

theorem dates_messages (threadId : String) (n : Node) : Message.dates (n.messages threadId) = n.dates := by
  cases n with
  | node message replies =>
    have hreplies := dates_forestMessages threadId replies
    unfold Message.dates at hreplies ⊢
    rw [Node.messages, Node.dates, List.filterMap_append, hreplies]
    cases message with
    | none => rfl
    | some shown =>
      have hdate : (messageOf threadId shown).date = shown.date? := rfl
      cases hd : shown.date? <;> simp [hdate, hd]

theorem dates_forestMessages (threadId : String) (ns : List Node) :
    Message.dates (forestMessages threadId ns) = forestDates ns := by
  cases ns with
  | nil => rfl
  | cons n rest =>
    have hfirst := dates_messages threadId n
    have hrest := dates_forestMessages threadId rest
    unfold Message.dates at hfirst hrest ⊢
    rw [forestMessages, forestDates, List.filterMap_append, hfirst, hrest]

end

mutual

theorem Node.isOrdered_iff (n : Node) : n.IsOrdered ↔ n.dates.Pairwise (· ≤ ·) := by
  cases n with
  | node message replies =>
    have hone : (message.bind Shown.date?).toList.Pairwise (· ≤ ·) := by cases message.bind Shown.date? <;> simp
    rw [Node.IsOrdered, Node.dates, List.pairwise_append, forestOrdered_iff replies]
    simp only [Option.mem_toList]
    exact ⟨fun ⟨habove, hreplies⟩ => ⟨hone, hreplies, habove⟩, fun ⟨_, hreplies, habove⟩ => ⟨habove, hreplies⟩⟩

theorem forestOrdered_iff (ns : List Node) : ForestOrdered ns ↔ (forestDates ns).Pairwise (· ≤ ·) := by
  cases ns with
  | nil => exact ⟨fun _ => .nil, fun _ => trivial⟩
  | cons n rest =>
    rw [ForestOrdered, forestDates, List.pairwise_append, Node.isOrdered_iff n, forestOrdered_iff rest]

end

theorem assemble_eq_ok {summaries : List Summary} {forests : List Forest} {threads : List Thread}
    (h : assemble summaries forests = .ok threads) :
    summaries.length = forests.length ∧ threads = List.zipWith threadOf summaries forests := by
  unfold assemble at h
  split at h
  · next hlength => exact ⟨hlength, (Except.ok.inj h).symm⟩
  · cases h

theorem readThreads_eq_ok {found shown : Json.Bytes} {threads : List Thread}
    (h : readThreads found shown = .ok threads) :
    ∃ summaries forests, readSummaries found = .ok summaries ∧ readForests shown = .ok forests ∧
      assemble summaries forests = .ok threads := by
  unfold readThreads at h
  split at h
  · cases h
  · next summaries hsummaries =>
    split at h
    · cases h
    · next forests hforests => exact ⟨summaries, forests, hsummaries, hforests, h⟩

/-- The threads that are read are loaded. The rows of a thread are its messages from the last to the first, and threads
are listed newest first exactly if all their reply trees are ordered. -/
theorem readThreads_newestFirst_iff {found shown : Json.Bytes} {threads : List Thread}
    (h : readThreads found shown = .ok threads) (l : Listing) :
    ∃ forests, readForests shown = .ok forests ∧
      (∀ i forest, forests[i]? = some forest → ∃ t, threads[i]? = some t ∧
        (l.setThreads threads).rowsOf i = (forestMessages t.id forest).reverse) ∧
      ((l.setThreads threads).NewestFirst ↔ ∀ forest ∈ forests, ForestOrdered forest) := by
  obtain ⟨summaries, forests, -, hforests, hassemble⟩ := readThreads_eq_ok h
  obtain ⟨hlength, rfl⟩ := assemble_eq_ok hassemble
  -- Every tree is part of a thread, as there are as many summaries as trees.
  have hthread (i : Nat) (forest : Forest) (hi : forests[i]? = some forest) :
      ∃ s, (List.zipWith threadOf summaries forests)[i]? = some (threadOf s forest) := by
    have hlt : i < summaries.length := hlength ▸ (List.getElem?_eq_some_iff.mp hi).1
    exact ⟨summaries[i], List.getElem?_zipWith_eq_some.mpr ⟨_, forest, List.getElem?_eq_getElem hlt, hi, rfl⟩⟩
  refine ⟨forests, hforests, fun i forest hi => ?_, ?_⟩
  · obtain ⟨s, hs⟩ := hthread i forest hi
    have hrows : (l.setThreads _).rowsOf i = (threadOf s forest).messages.reverse := Listing.rowsOf_of_getElem? hs
    exact ⟨threadOf s forest, hs, hrows⟩
  · have hdates (s : Summary) (forest : Forest) :
        ForestOrdered forest ↔ (Message.dates (threadOf s forest).messages).Pairwise (· ≤ ·) := by
      rw [forestOrdered_iff, ← dates_forestMessages s.thread forest]
      rfl
    rw [Listing.newestFirst_iff]
    constructor
    · intro hthreads forest hforest
      obtain ⟨i, hi⟩ := List.mem_iff_getElem?.mp hforest
      obtain ⟨s, hs⟩ := hthread i forest hi
      exact (hdates s forest).mpr (hthreads _ (List.mem_of_getElem? hs))
    · intro hordered t ht
      obtain ⟨i, hi⟩ := List.mem_iff_getElem?.mp ht
      obtain ⟨s, forest, -, hforest, rfl⟩ := List.getElem?_zipWith_eq_some.mp hi
      exact (hdates s forest).mp (hordered forest (List.mem_of_getElem? hforest))

def nodeText (id : String) (timestamp : Nat) (replies : List String) : String :=
  "[\x7b\"id\":\"" ++ id ++ "\",\"timestamp\":" ++ toString timestamp ++ "\x7d,[" ++ ",".intercalate replies ++ "]]"

def branching : Json.Bytes :=
  Text.Utf8.encode ("[[" ++ nodeText "root" 1700000100
    [nodeText "early" 1700000200 [nodeText "latest" 1700000400 []], nodeText "late" 1700000300 []] ++ "]]")

def oneThread : Json.Bytes := Text.Utf8.encode "[\x7b\"thread\":\"t1\"\x7d]"

theorem readThreads_newestFirst_iff_branching :
    ∃ threads forests, readThreads oneThread branching = .ok threads ∧ readForests branching = .ok forests ∧
      ((({} : Listing).setThreads threads).NewestFirst ↔ ∀ forest ∈ forests, ForestOrdered forest) := by
  have hread : (readThreads oneThread branching).isOk := by decide +kernel
  cases hthreads : readThreads oneThread branching with
  | error e => simp [hthreads, Except.isOk, Except.toBool] at hread
  | ok threads =>
    obtain ⟨forests, hforests, -, hiff⟩ := readThreads_newestFirst_iff hthreads {}
    exact ⟨threads, forests, rfl, hforests, hiff⟩

/-- The second answer is listed above the later answer to the first. -/
theorem branching_not_newestFirst :
    ∃ threads, readThreads oneThread branching = .ok threads ∧ ¬ (({} : Listing).setThreads threads).NewestFirst := by
  have hdates : ((readThreads oneThread branching).toOption.map
      fun threads => Message.dates ((({} : Listing).setThreads threads).rowsOf 0)) =
        some [1700000300, 1700000400, 1700000200, 1700000100] := by
    decide +kernel
  cases hthreads : readThreads oneThread branching with
  | error e => simp [hthreads, Except.toOption] at hdates
  | ok threads =>
    rw [hthreads] at hdates
    have hrows : Message.dates ((({} : Listing).setThreads threads).rowsOf 0) =
        [1700000300, 1700000400, 1700000200, 1700000100] := Option.some.inj hdates
    refine ⟨threads, rfl, fun hnewest => ?_⟩
    have hfirst := hnewest 0
    rw [hrows] at hfirst
    exact absurd hfirst (by decide)

end Index
end Triage
