import Mathlib.Order.Bounds.Defs
import Triage.Proofs.Chronology
import Triage.Proofs.Text.Parts

/-! Threads as they are put together from summaries and reply trees. Each message is traced back to the place of its
node in the tree, which is the way down to it: the number of its tree, of the reply, of the reply to that, and so on.
-/

namespace Triage.Index

def Filenames.names : Filenames → List String
  | .one name => [name]
  | .many names => names

theorem Filenames.first_eq (f : Filenames) : f.first = f.names.headD "" := by cases f <;> rfl

/-- The message of a thread that stands for a shown one. -/
structure StandsFor (threadId : String) (s : Shown) (m : Message) : Prop where
  id : m.id = s.id
  threadId : m.threadId = threadId
  filename : m.filename = s.filename.names.headD ""
  flags : m.flags = Flags.ofFilename m.filename
  tags : m.tags = s.tags
  headers : s.headers = ⟨m.subject, m.sender, m.recipient⟩
  date : ∀ d, m.date = some d ↔ s.timestamp = some d ∧ Seconds.first ≤ d ∧ d ≤ Seconds.last

theorem bind_date?_eq_some {timestamp : Option Int} {d : Seconds} :
    timestamp.bind Seconds.date? = some d ↔ timestamp = some d ∧ Seconds.first ≤ d ∧ d ≤ Seconds.last := by
  rw [Option.bind_eq_some_iff]
  constructor
  · rintro ⟨s, rfl, hs⟩
    unfold Seconds.date? at hs
    split at hs
    · next hrange =>
      obtain rfl := Option.some.inj hs
      exact ⟨rfl, hrange⟩
    · cases hs
  · rintro ⟨rfl, hrange⟩
    exact ⟨d, rfl, if_pos hrange⟩

theorem messageOf_standsFor (threadId : String) (s : Shown) : StandsFor threadId s (messageOf threadId s) where
  id := rfl
  threadId := rfl
  filename := s.filename.first_eq
  flags := rfl
  tags := rfl
  headers := rfl
  date := fun _ => bind_date?_eq_some

/-- The message at a place below a node, if it is shown. The node itself is at the empty place. -/
def Node.shownAt? : Node → List Nat → Option Shown
  | .node message _, [] => message
  | .node _ replies, i :: place => replies[i]?.bind (·.shownAt? place)

abbrev Before : List Nat → List Nat → Prop := List.Lex (· < ·)

/-- The messages of all nodes below one that are shown, each in its turn. -/
structure Listed (threadId : String) (top : Node) (places : List (List Nat)) (messages : List Message) : Prop where
  inOrder : places.Pairwise Before
  complete : ∀ place, place ∈ places ↔ (top.shownAt? place).isSome
  messages : List.Forall₂ (fun place m => ∃ s, top.shownAt? place = some s ∧ StandsFor threadId s m) places messages

def afterSibling : List Nat → List Nat
  | [] => []
  | i :: place => (i + 1) :: place

section

variable {threadId : String} {places : List (List Nat)} {messages : List Message}

theorem shownAt?_afterSibling (n : Node) (rest : Forest) (place : List Nat) :
    (Node.node none (n :: rest)).shownAt? (afterSibling place) = (Node.node none rest).shownAt? place := by
  cases place <;> rfl

theorem Listed.ne_nil {replies : Forest} (h : Listed threadId (.node none replies) places messages) {place : List Nat}
    (hplace : place ∈ places) : place ≠ [] := by
  rintro rfl
  cases (h.complete []).mp hplace

theorem listed_nil : Listed threadId (.node none []) [] [] where
  inOrder := .nil
  complete := fun place => by cases place <;> simp [Node.shownAt?]
  messages := .nil

theorem Listed.node {replies : Forest} (h : Listed threadId (.node none replies) places messages)
    (message : Option Shown) :
    Listed threadId (.node message replies) ((message.map fun _ => []).toList ++ places)
      ((message.map (messageOf threadId)).toList ++ messages) := by
  cases message with
  | none => exact h
  | some s =>
    -- Showing the node itself changes nothing at the places below it.
    have hbelow {place : List Nat} (hne : place ≠ []) :
        (Node.node (some s) replies).shownAt? place = (Node.node none replies).shownAt? place := by
      cases place with
      | nil => exact absurd rfl hne
      | cons i place => rfl
    refine ⟨.cons ?_ h.inOrder, ?_, .cons ⟨s, rfl, messageOf_standsFor threadId s⟩ ?_⟩
    · intro place hplace
      obtain ⟨i, rest, rfl⟩ := List.exists_cons_of_ne_nil (h.ne_nil hplace)
      exact .nil
    · intro place
      by_cases hne : place = []
      · subst hne
        simp [Node.shownAt?]
      · rw [hbelow hne, ← h.complete place]
        simp [hne]
    · refine h.messages.imp ?_
      rintro place m ⟨s', hs', hm⟩
      have hne : place ≠ [] := by
        rintro rfl
        cases hs'
      exact ⟨s', (hbelow hne).trans hs', hm⟩

theorem Listed.cons {n : Node} {rest : Forest} {later : List (List Nat)} {laterMessages : List Message}
    (hn : Listed threadId n places messages) (hrest : Listed threadId (.node none rest) later laterMessages) :
    Listed threadId (.node none (n :: rest)) (places.map (0 :: ·) ++ later.map afterSibling)
      (messages ++ laterMessages) := by
  refine ⟨List.pairwise_append.mpr ⟨?_, ?_, ?_⟩, ?_, List.rel_append ?_ ?_⟩
  · exact List.pairwise_map.mpr (hn.inOrder.imp fun h => .cons h)
  -- Moving up by one keeps the order, since no place among the siblings is empty.
  · refine List.pairwise_map.mpr (hrest.inOrder.imp_of_mem ?_)
    intro p q hp hq hbefore
    cases hbefore with
    | nil => exact absurd rfl (hrest.ne_nil hp)
    | cons h => exact .cons h
    | rel h => exact .rel (Nat.succ_lt_succ h)
  · intro p hp q hq
    obtain ⟨p, -, rfl⟩ := List.mem_map.mp hp
    obtain ⟨q, hlater, rfl⟩ := List.mem_map.mp hq
    obtain ⟨i, q, rfl⟩ := List.exists_cons_of_ne_nil (hrest.ne_nil hlater)
    exact .rel (Nat.succ_pos i)
  · intro place
    rw [List.mem_append, List.mem_map, List.mem_map]
    constructor
    · rintro (⟨p, hp, rfl⟩ | ⟨q, hq, rfl⟩)
      · exact (hn.complete p).mp hp
      · rw [shownAt?_afterSibling]
        exact (hrest.complete q).mp hq
    · intro hshown
      match place with
      | [] => cases hshown
      | 0 :: p => exact .inl ⟨p, (hn.complete p).mpr hshown, rfl⟩
      | (i + 1) :: p => exact .inr ⟨i :: p, (hrest.complete (i :: p)).mpr hshown, rfl⟩
  · exact List.forall₂_map_left_iff.mpr hn.messages
  · refine List.forall₂_map_left_iff.mpr (hrest.messages.imp ?_)
    rintro place m ⟨s, hs, hm⟩
    exact ⟨s, (shownAt?_afterSibling n rest place).trans hs, hm⟩

end

mutual

theorem exists_listed (threadId : String) (n : Node) : ∃ places, Listed threadId n places (n.messages threadId) := by
  cases n with
  | node message replies =>
    obtain ⟨places, h⟩ := exists_listed_forest threadId replies
    exact ⟨_, h.node message⟩

theorem exists_listed_forest (threadId : String) (ns : List Node) :
    ∃ places, Listed threadId (.node none ns) places (forestMessages threadId ns) := by
  cases ns with
  | nil => exact ⟨[], listed_nil⟩
  | cons n rest =>
    obtain ⟨places, hn⟩ := exists_listed threadId n
    obtain ⟨later, hrest⟩ := exists_listed_forest threadId rest
    exact ⟨_, hn.cons hrest⟩

end

theorem splitAuthors_spec (authors : String) :
    ∃ parts names, Text.Separated (fun c => c = ',' ∨ c = '|') authors.toList parts ∧
      List.Forall₂ (Text.Trimmed Text.isBlank) parts names ∧
      splitAuthors authors = (names.filter (· ≠ [])).map String.ofList := by
  have hseparated := Text.separated_splitOn_map (fun c => c = ',' ∨ c = '|') ','
    (fun c => if c = '|' then ',' else c) (fun c => by grind) (fun c hc => if_neg fun h => hc (.inr h))
    authors.toList
  have htrimmed (parts : List (List Char)) :
      List.Forall₂ (Text.Trimmed Text.isBlank) parts (parts.map (Text.trimBy Text.isBlank)) :=
    List.forall₂_map_right_iff.mpr (List.forall₂_same.mpr fun part _ => Text.trimmed_trimBy Text.isBlank part)
  refine ⟨_, _, hseparated, htrimmed _, ?_⟩
  · rw [← List.filterMap_eq_map, List.filterMap_filter]
    unfold splitAuthors
    refine List.filterMap_congr fun name _ => ?_
    cases name <;> simp

structure Spans (timestamp : Option Int) (dates : List Seconds) (newest oldest : Option Seconds) : Prop where
  greatest : dates ≠ [] → ∃ d, newest = some d ∧ IsGreatest {d | d ∈ dates} d
  least : dates ≠ [] → ∃ d, oldest = some d ∧ IsLeast {d | d ∈ dates} d
  undated : dates = [] →
    oldest = none ∧ ∀ d, newest = some d ↔ timestamp = some d ∧ Seconds.first ≤ d ∧ d ≤ Seconds.last

theorem spans (timestamp : Option Int) (dates : List Seconds) :
    Spans timestamp dates (dates.max?.or (timestamp.bind Seconds.date?)) dates.min? where
  greatest := by
    intro hne
    obtain ⟨d, hd⟩ := Option.isSome_iff_exists.mp (List.isSome_max?_of_ne_nil hne)
    have hmax := List.max?_eq_some_iff.mp hd
    exact ⟨d, by rw [hd, Option.some_or], hmax.1, fun d' => hmax.2 d'⟩
  least := by
    intro hne
    obtain ⟨d, hd⟩ := Option.isSome_iff_exists.mp (List.isSome_min?_of_ne_nil hne)
    have hmin := List.min?_eq_some_iff.mp hd
    exact ⟨d, hd, hmin.1, fun d' => hmin.2 d'⟩
  undated := by
    rintro rfl
    exact ⟨rfl, fun _ => bind_date?_eq_some⟩

structure Assembled (summary : Summary) (forest : Forest) (t : Thread) : Prop where
  id : t.id = summary.thread
  subject : t.subject = summary.subject
  tags : t.tags = summary.tags
  matched : t.matched = summary.matched
  authors : ∃ parts names, Text.Separated (fun c => c = ',' ∨ c = '|') summary.authors.toList parts ∧
    List.Forall₂ (Text.Trimmed Text.isBlank) parts names ∧
    t.authors = (names.filter (· ≠ [])).map String.ofList
  messages : ∃ places, Listed summary.thread (.node none forest) places t.messages
  dates : Spans summary.timestamp (Message.dates t.messages) t.newest t.oldest
  between : ∀ m ∈ t.messages, ∀ d ∈ m.date, ∃ first ∈ t.oldest, ∃ last ∈ t.newest, first ≤ d ∧ d ≤ last

theorem Spans.between {timestamp : Option Int} {dates : List Seconds} {newest oldest : Option Seconds}
    (h : Spans timestamp dates newest oldest) {d : Seconds} (hd : d ∈ dates) :
    ∃ first ∈ oldest, ∃ last ∈ newest, first ≤ d ∧ d ≤ last := by
  have hne := List.ne_nil_of_mem hd
  obtain ⟨first, hfirst, hleast⟩ := h.least hne
  obtain ⟨last, hlast, hgreatest⟩ := h.greatest hne
  exact ⟨first, hfirst, last, hlast, hleast.2 hd, hgreatest.2 hd⟩

theorem threadOf_assembled (summary : Summary) (forest : Forest) :
    Assembled summary forest (threadOf summary forest) where
  id := rfl
  subject := rfl
  tags := rfl
  matched := rfl
  authors := splitAuthors_spec summary.authors
  messages := exists_listed_forest summary.thread forest
  dates := spans summary.timestamp _
  between := fun _ hm _ hd => (spans summary.timestamp _).between (List.mem_filterMap.mpr ⟨_, hm, hd⟩)

/-- Each thread is put together from the summary and the forest at its own place in the two lists, and lists of
different lengths give no thread at all. -/
theorem assemble_spec (summaries : List Summary) (forests : List Forest) :
    (summaries.length ≠ forests.length →
      assemble summaries forests = .error (.index (.lengthMismatch summaries.length forests.length))) ∧
    (summaries.length = forests.length →
      ∃ threads, assemble summaries forests = .ok threads ∧ threads.length = summaries.length ∧
        ∀ (i : Nat) summary forest, summaries[i]? = some summary → forests[i]? = some forest →
          ∃ t, threads[i]? = some t ∧ Assembled summary forest t) := by
  refine ⟨fun hlengths => if_neg hlengths,
    fun hlength => ⟨List.zipWith threadOf summaries forests, if_pos hlength, ?_, ?_⟩⟩
  · rw [List.length_zipWith, hlength, Nat.min_self]
  · intro i summary forest hsummary hforest
    exact ⟨threadOf summary forest, List.getElem?_zipWith_eq_some.mpr ⟨_, _, hsummary, hforest, rfl⟩,
      threadOf_assembled summary forest⟩

def lunch : Summary := { thread := "t1", authors := "Alice, Bob| Carol,", subject := "Lunch?" }

def hiddenAnswer : Forest :=
  [.node (some { id := "a", filename := .one "a:2,S", timestamp := some 9000000000000 })
    [.node none [.node (some { id := "b", timestamp := some 1700000300 }) [],
      .node (some { id := "c", timestamp := some 1700000200 }) []]]]

theorem assemble_spec_hiddenAnswer :
    ∃ t, assemble [lunch] [hiddenAnswer] = .ok [t] ∧ Assembled lunch hiddenAnswer t ∧
      t.authors = ["Alice", "Bob", "Carol"] ∧ t.messages.map (·.id) = ["a", "b", "c"] ∧
      t.newest = some 1700000300 ∧ t.oldest = some 1700000200 := by
  obtain ⟨threads, hthreads, -, hassembled⟩ := (assemble_spec [lunch] [hiddenAnswer]).2 rfl
  obtain ⟨t, ht, hspec⟩ := hassembled 0 lunch hiddenAnswer rfl rfl
  have hone : threads = [threadOf lunch hiddenAnswer] := (Except.ok.inj hthreads).symm
  obtain rfl : threadOf lunch hiddenAnswer = t := by
    rw [hone] at ht
    exact Option.some.inj ht
  refine ⟨_, rfl, hspec, ?_, ?_, ?_, ?_⟩ <;> decide +kernel

end Triage.Index
